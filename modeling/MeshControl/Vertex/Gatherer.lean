import MeshControl.Provenance
import MeshControl.Region.Loader
import MeshControl.Scp.Message
import MeshControl.Vertex.Context

/-!
# Gatherers of live events

A gatherer takes events from the machine to a host, through a tag of a traffic class of its
own. Its regions are the timing (12 bytes), the configuration (48 bytes) and its counters,
of which two are its own.
-/

namespace MeshControl

/-- Formats in which a gatherer sends events. -/
inductive MessageFormat where
  | key16
  | keyPayload16
  | key32
  | keyPayload32
  deriving DecidableEq, Repr

/-- The number by which a configuration region names the format. -/
def MessageFormat.code : MessageFormat → UInt32
  | .key16 => 0
  | .keyPayload16 => 1
  | .key32 => 2
  | .keyPayload32 => 3

/-- A gatherer: the endpoint it sends to and the format of what it sends. -/
structure Gatherer where
  label : String
  host : IpAddress := .loopback
  port : UInt16 := 17895
  slot : TagSlot := 1
  board : Option IpAddress := none
  strip : Bool := true
  halfPrefix : Option Key.HalfPrefix := none
  format : MessageFormat := .key32
  keyShift : UInt32 := 0
  /-- Send the tick as payload. -/
  timestampPayload : Bool := true
  usePayloadPrefix : Bool := true
  payloadPrefix : UInt32 := 0
  payloadShift : UInt32 := 0
  /-- Most packets in one tick, 0 for no limit. -/
  packetLimit : UInt32 := 0
  deriving DecidableEq

namespace Gatherer

/-- The traffic class of the tags that gatherers send through. -/
def traffic : String := "LPG_EVENT_STREAM"

/-- The tag that the gatherer sends through. -/
def ipTag (gatherer : Gatherer) : IpTag :=
  { board := gatherer.board
    slot := gatherer.slot
    host := gatherer.host
    port := gatherer.port
    strip := gatherer.strip
    traffic }

/-- Number of the timing region. -/
def timingRegion : RegionId := 0

/-- Number of the configuration region. -/
def configurationRegion : RegionId := 1

/-- Number of the region with the counters. -/
def provenanceRegion : RegionId := 2

/-- Number of counters of its own. -/
def counterCount : Nat := 2

/-- The regions of a gatherer. -/
def regions : List Region :=
  [⟨timingRegion, 12, "SYSTEM", false⟩, ⟨configurationRegion, 48, "CONFIG", false⟩,
    ⟨provenanceRegion, UInt32.ofNat (Provenance.blockSize counterCount), "PROVENANCE", true⟩]

/-- The allocated tag of the gatherer's traffic class and port. -/
def findTag (gatherer : Gatherer) (context : Context) : Except Fault IpTag :=
  match context.ipTags.find? fun tag =>
    tag.traffic = traffic && tag.port = gatherer.port with
  | some tag => .ok tag
  | none => .error (.configuration (.missingNotificationTag gatherer.label))

/-- The words of the configuration region. -/
def configurationWords (gatherer : Gatherer) (context : Context) : Except Fault (List UInt32) := do
  let tag ← gatherer.findTag context
  let keyPrefix := match gatherer.halfPrefix with
    | some halfPrefix => [1, halfPrefix.positioned, halfPrefix.half.code]
    | none => [0, 0, 0]
  return keyPrefix ++ [gatherer.format.code, gatherer.keyShift,
    flagWord gatherer.timestampPayload, flagWord gatherer.usePayloadPrefix,
    gatherer.payloadPrefix, gatherer.payloadShift, tag.slot.toUInt32, Scp.hostPort.toUInt32,
    gatherer.packetLimit]

/-- The specification of the regions in a context. -/
def generate (gatherer : Gatherer) (context : Context) : Except Fault Spec.Program := do
  let writer ← regions.foldlM Spec.Writer.reserve .empty
  let writer ← writer.switchFocus timingRegion
  let writer ← writer.writeArray context.timingWords
  let writer ← writer.switchFocus configurationRegion
  let writer ← writer.writeArray (← gatherer.configurationWords context)
  return writer.finish

/-- What is loaded for the gatherer. -/
def generator (gatherer : Gatherer) : Site.Generator Context :=
  ⟨regions.map Site.Declaration.ofRegion, gatherer.generate⟩

/-- The words for lost packets of one kind. -/
def lossMessage (count : UInt32) (kind : String) : String :=
  s!"The live packet gatherer lost {count} packets {kind} payloads. " ++
    "Try increasing the machine time step or the time scale factor, " ++
    "or reduce the number of vertices feeding this gatherer."

/-- Items of the counters of a gatherer's own. -/
def items (names : List String) (values : List UInt32) : List Provenance.Item :=
  let without := values.getD 0 0
  let with_ := values.getD 1 0
  [.of names "lost_packets_without_payload" without (some (lossMessage without "without")),
    .of names "lost_packets_with_payload" with_ (some (lossMessage with_ "with"))]

/-- Where gatherers keep their counters. -/
def provider : Provenance.Provider := ⟨provenanceRegion, counterCount, items⟩

end Gatherer

end MeshControl
