import MeshControl.Ordered.Set
import MeshControl.Provenance
import MeshControl.Region.Loader
import MeshControl.Scp.Message
import MeshControl.SendBuffer.Schedule
import MeshControl.Stream.Streamer
import MeshControl.Vertex.Context

/-!
# Sources of events

A source brings events into the machine: live from a host, from a schedule of keys to send at
given times, or both. Its regions are

| number | region | bytes |
|--------|--------|-------|
| 0 | timing | 12 |
| 1 | configuration | 40 |
| 2 | send buffer, if there is a schedule | its size |
| 3 | recording buffer, if events are recorded | its size |
| 4 | state of the recording, likewise | 8 |
| 5 | counters | 20 |

Between runs a source may get a new schedule or another window. It remembers which of its
regions have become stale by that, until they are written again.
-/

namespace MeshControl

/-- A part of a source's memory. -/
inductive SourceRegion where
  | timing
  | configuration
  | sendBuffer
  | recordingBuffer
  | recordingState
  | provenance
  deriving DecidableEq, Repr

namespace SourceRegion

/-- The number of the region. -/
def id : SourceRegion → RegionId
  | .timing => 0
  | .configuration => 1
  | .sendBuffer => 2
  | .recordingBuffer => 3
  | .recordingState => 4
  | .provenance => 5

/-- The label of the region. -/
def label : SourceRegion → String
  | .timing => "SYSTEM"
  | .configuration => "CONFIGURATION"
  | .sendBuffer => "SEND_BUFFER"
  | .recordingBuffer => "RECORDING_BUFFER"
  | .recordingState => "RECORDING_BUFFER_STATE"
  | .provenance => "PROVENANCE"

/-- True for regions that the core fills. -/
def unfilled : SourceRegion → Bool
  | .recordingBuffer | .provenance => true
  | .timing | .configuration | .sendBuffer | .recordingState => false

/-- The region with its size. -/
def sized (region : SourceRegion) (size : UInt32) : Region :=
  ⟨region.id, size, region.label, region.unfilled⟩

end SourceRegion

namespace Source

/-- Live events: the board port they arrive at, the slot of the tag that takes them in, and the
port of the core they go to. -/
structure LiveInput where
  port : UInt16
  slot : TagSlot
  corePort : UInt8
  deriving DecidableEq, Repr

/-- The host endpoint that is told about free space, with its tag slot if that is fixed. -/
structure Notification where
  host : IpAddress
  port : UInt16
  slot : Option TagSlot
  deriving DecidableEq, Repr

/-- A schedule and the buffer through which it is sent. -/
structure Sending where
  schedule : Schedule Float
  capacity : UInt32
  threshold : UInt32
  notification : Notification

/-- The buffer into which events are recorded. -/
structure Recording where
  bufferSize : UInt32
  sizeBeforeReceive : UInt32
  deriving DecidableEq, Repr

/-- The size of a send buffer for which none is asked. -/
def defaultCapacity : UInt32 := 1048576

/-- The free space that calls for a refill if none is asked for. -/
def defaultThreshold : UInt32 := 640

/-- What a source is asked to do. -/
structure Settings where
  label : String
  /-- Number of keys. -/
  count : Nat
  board : Option IpAddress := none
  /-- Board port and tag slot of live events. -/
  live : Option (UInt16 × TagSlot) := none
  corePort : UInt8 := Scp.inputPort
  key : Option Key := none
  halfPrefix : Option Key.HalfPrefix := none
  /-- Check received keys against key and mask. -/
  checkKeys : Bool := false
  schedule : Option (Schedule Float) := none
  capacity : UInt32 := defaultCapacity
  threshold : UInt32 := defaultThreshold
  notification : Option Notification := none
  recording : Option Recording := none

end Source

/-- A source of events. -/
structure Source where
  label : String
  board : Option IpAddress
  live : Option Source.LiveInput
  keys : Key.Allocation
  checkKeys : Bool
  sending : Option Source.Sending
  recording : Option Source.Recording
  /-- Regions whose contents on the machine are stale. -/
  dirty : OrderedSet RegionId

namespace Source

/-- The sending that some settings ask for. A schedule needs an endpoint to notify. -/
def Settings.sending (settings : Settings) : Except Fault (Option Sending) :=
  match settings.schedule with
  | none => .ok none
  | some schedule =>
    match settings.notification with
    | none => .error (.configuration (.missingNotificationTag settings.label))
    | some notification =>
      let flow := Stream.Flow.start settings.capacity settings.threshold
      .ok (some ⟨schedule, flow.capacity, flow.threshold, notification⟩)

/-- The source that some settings ask for. -/
def build (settings : Settings) : Except Fault Source := do
  let keys ← Key.Allocation.resolve settings.count settings.key settings.halfPrefix
  let sending ← settings.sending
  return {
    label := settings.label
    board := settings.board
    live := settings.live.map fun (port, slot) => ⟨port, slot, settings.corePort⟩
    keys
    checkKeys := settings.checkKeys
    sending
    recording := settings.recording
    dirty := .empty }

/-- The tag that delivers live events to the source on `core`. -/
def reverseTag (source : Source) (core : Core) : Option ReverseTag :=
  source.live.map fun live => ⟨source.board, live.slot, live.port, core, live.corePort⟩

/-- The tag that carries notifications of free space, if its slot is fixed. -/
def notificationTag (source : Source) : Option IpTag := do
  let sending ← source.sending
  let slot ← sending.notification.slot
  return {
    board := source.board
    slot
    host := sending.notification.host
    port := sending.notification.port
    strip := true }

/-- Replace the schedule, which makes the send buffer stale. -/
def setSchedule (source : Source) (schedule : Schedule Float) : Except Fault Source :=
  match source.sending with
  | none => .error (.specification (.noSendBuffer source.label))
  | some sending => .ok { source with
      sending := some { sending with schedule }
      dirty := source.dirty.insert SourceRegion.sendBuffer.id }

/-- The window has moved, which makes the timing and the send buffer stale. -/
def windowChanged (source : Source) : Source :=
  let dirty := source.dirty.insert SourceRegion.timing.id
  { source with
    dirty := if source.sending.isSome then dirty.insert SourceRegion.sendBuffer.id else dirty }

/-- The keys of the source once routing has assigned what the context says. -/
def routedKeys (source : Source) (context : Context) : Key.Allocation :=
  match context.routed with
  | some pattern => source.keys.route pattern
  | none => source.keys

/-- Number of keys that the schedule is for, as far as a word can count. -/
def sendCount (source : Source) : UInt32 := UInt32.ofNat (min source.keys.count 4294967295)

/-- The keys to send in the window of the context, if there is a schedule. -/
def fillSendBuffer (source : Source) (context : Context) : Except Fault (Option SendBuffer) :=
  match source.sending with
  | none => .ok none
  | some sending =>
    match (source.routedKeys context).pattern with
    | none => .error (.specification (.noBaseKey source.label))
    | some pattern =>
      let timing := context.timing
      .ok (some ((SendBuffer.empty sending.capacity).fill timing.tickOf timing sending.schedule
        pattern.key source.sendCount).1)

/-- The stream of the send buffer, if there is a schedule. -/
def streamer (source : Source) (context : Context) : Except Fault (Option Stream.Streamer) := do
  match source.sending, ← source.fillSendBuffer context with
  | some sending, some buffer =>
    return some (.start buffer (.start sending.capacity sending.threshold))
  | _, _ => return none

/-- The regions of the source. -/
def regions (source : Source) : List Region :=
  [SourceRegion.timing.sized 12, SourceRegion.configuration.sized 40] ++
    (source.sending.map fun sending => SourceRegion.sendBuffer.sized sending.capacity).toList ++
    (match source.recording with
      | some recording => [SourceRegion.recordingBuffer.sized recording.bufferSize,
          SourceRegion.recordingState.sized 8]
      | none => []) ++
    [SourceRegion.provenance.sized (UInt32.ofNat (Provenance.blockSize 0))]

/-- The allocated tag through which a source is notified. -/
def findNotificationTag (label : String) (notification : Notification) (context : Context) :
    Except Fault IpTag :=
  match context.ipTags.find? fun tag =>
    tag.host = notification.host && tag.port = notification.port with
  | some tag => .ok tag
  | none => .error (.configuration (.missingNotificationTag label))

/-- The words of the configuration region. -/
def configurationWords (source : Source) (context : Context) : Except Fault (List UInt32) := do
  let keys := source.routedKeys context
  let overlay := match keys.overlay with
    | some overlay => [1, overlay.bits, overlay.half.code]
    | none => [0, 0, 0]
  let pattern := match keys.pattern with
    | some pattern => [1, pattern.key, pattern.mask]
    | none => [0, 0, 0]
  let buffer ← match source.sending with
    | some sending => do
      let tag ← findNotificationTag source.label sending.notification context
      pure [sending.capacity, sending.threshold, tag.slot.toUInt32]
    | none => pure [0, 0, 0]
  return overlay ++ [flagWord source.checkKeys] ++ pattern ++ buffer

open Spec in
/-- Write the timing region. -/
def writeTiming (context : Context) (writer : Writer) : Except Fault Writer := do
  ((← (writer.comment "timing").switchFocus SourceRegion.timing.id)).writeArray context.timingWords

open Spec in
/-- Write what the send buffer holds at the start of the run. -/
def writeSendBuffer (source : Source) (context : Context) (writer : Writer) :
    Except Fault Writer := do
  match ← source.fillSendBuffer context with
  | none => return writer
  | some buffer =>
    let chunk := buffer.pack context.timing.first buffer.capacity.toNat
    let writer := writer.comment s!"send buffer: {chunk.tickCount} ticks"
    let writer ← writer.switchFocus SourceRegion.sendBuffer.id
    let words := Bytes.words chunk.bytes
    if words.isEmpty then return writer else writer.writeArray words

open Spec in
/-- Write the state in which recording begins. -/
def writeRecordingState (source : Source) (writer : Writer) : Except Fault Writer := do
  match source.recording with
  | none => return writer
  | some recording =>
    (← writer.switchFocus SourceRegion.recordingState.id).writeArray
      [recording.bufferSize, recording.sizeBeforeReceive]

open Spec in
/-- Write the configuration region. -/
def writeConfiguration (source : Source) (context : Context) (writer : Writer) :
    Except Fault Writer := do
  let writer ← (writer.comment "configuration").switchFocus SourceRegion.configuration.id
  writer.writeArray (← source.configurationWords context)

/-- The specification of the regions in a context. -/
def generate (source : Source) (context : Context) : Except Fault Spec.Program := do
  let writer ← source.regions.foldlM Spec.Writer.reserve .empty
  let writer ← writeTiming context writer
  let writer ← source.writeSendBuffer context writer
  let writer ← source.writeRecordingState writer
  let writer ← source.writeConfiguration context writer
  return writer.finish

/-- What is loaded for the source. -/
def generator (source : Source) : Site.Generator Context :=
  ⟨source.regions.map Site.Declaration.ofRegion, source.generate⟩

/-- True while some region is stale. -/
def needsReload (source : Source) : Bool := !source.dirty.isEmpty

/-- Some regions are written again and no longer stale. -/
def markReloaded (source : Source) (regions : List RegionId) : Source :=
  { source with dirty := source.dirty.eraseAll regions }

/-- Where the source keeps its counters. -/
def provider : Provenance.Provider := .plain SourceRegion.provenance.id

end Source

end MeshControl
