import MeshControl.SendBuffer.Basic
import MeshControl.Stream.Flow

/-!
# Streaming a send buffer into a core

A `Streamer` walks a send buffer by a cursor, the first tick that is not yet sent. Each chunk
takes whole ticks that fit in the free space. A tick that is larger than the core's whole
buffer can never be sent: it is dropped and counted, so that the stream does not stall.
-/

namespace MeshControl.Stream

/-- A send buffer on its way into a core. -/
structure Streamer where
  buffer : SendBuffer
  flow : Flow
  /-- The first tick that is not yet sent, if any is left. -/
  next : Option Tick
  /-- Ticks skipped for being larger than the core's whole buffer. -/
  dropped : Nat

namespace Streamer

/-- A stream from the first tick of `buffer` on. -/
def start (buffer : SendBuffer) (flow : Flow) : Streamer := ⟨buffer, flow, buffer.firstTick?, 0⟩

/-- End the stream after the last tick of the buffer. -/
def finish (streamer : Streamer) : Streamer :=
  { streamer with flow := streamer.flow.finish streamer.buffer.lastTick? }

/-- Move the cursor; a stream without a next tick is at its end. -/
def moveTo (streamer : Streamer) (next : Option Tick) : Streamer :=
  let moved := { streamer with next }
  if next.isNone then moved.finish else moved

/-- The next chunk of the given ticks, in at most `space` bytes. Ticks too large for the whole
buffer are dropped on the way; a tick that only has to wait for more space stays next. -/
def takeTicks (space : Nat) (streamer : Streamer) :
    List (Tick × List Key) → Option Bytes × Streamer
  | [] => (none, streamer.moveTo none)
  | (tick, keys) :: rest =>
    if SendBuffer.tickSize keys.length ≤ space then
      let chunk := SendBuffer.packTicks space ((tick, keys) :: rest)
      (some chunk.bytes, streamer.moveTo chunk.next)
    else if streamer.flow.capacity.toNat < SendBuffer.tickSize keys.length then
      takeTicks space
        { streamer with next := rest.head?.map Prod.fst, dropped := streamer.dropped + 1 } rest
    else (none, streamer.moveTo (some tick))

/-- The next chunk in at most `space` bytes. -/
def take (streamer : Streamer) (space : Nat) : Option Bytes × Streamer :=
  match streamer.next with
  | none => (none, streamer.moveTo none)
  | some tick => streamer.takeTicks space (streamer.buffer.ticksFrom tick)

/-- The data that is written before the run starts, up to the whole buffer. -/
def initialFill (streamer : Streamer) : Except Fault Bytes × Streamer :=
  match streamer.flow.ensureLive with
  | .error fault => (.error fault, streamer)
  | .ok () =>
    let (bytes, streamer) := streamer.take streamer.flow.capacity.toNat
    (.ok (bytes.getD []), streamer)

/-- The answer to a report of `free` bytes: nothing while that is below the threshold or the
next tick does not fit yet. -/
def refill (streamer : Streamer) (free : UInt32) : Except Fault (Option Bytes) × Streamer :=
  match streamer.flow.record free with
  | .error fault => (.error fault, streamer)
  | .ok flow =>
    let streamer := { streamer with flow }
    if flow.wantsRefill free then
      let (bytes, streamer) := streamer.take flow.lastFree.toNat
      (.ok bytes, streamer)
    else (.ok none, streamer)

end Streamer

end MeshControl.Stream
