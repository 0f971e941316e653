import MeshControl.Fault
import MeshControl.Timing

/-!
# Flow control of a send buffer

While a run is in progress the core drains its send buffer and reports the free space back. A
`Flow` remembers the latest report, tells when enough space has opened up for a refill, and
ends for good once the data has run out.
-/

namespace MeshControl.Stream

/-- Whether a stream still goes on. -/
inductive Phase where
  | live
  /-- Nothing follows; `after` is the last tick that carried data, if any did. -/
  | ended (after : Option Tick)
  deriving DecidableEq, Repr

/-- State of the flow into one core's buffer. -/
structure Flow where
  /-- Bytes the core holds. -/
  capacity : UInt32
  /-- Free space that calls for a refill; never more than the capacity. -/
  threshold : UInt32
  /-- Free space of the latest report. -/
  lastFree : UInt32
  phase : Phase
  deriving DecidableEq, Repr

namespace Flow

/-- The flow into an empty buffer. A threshold beyond the capacity is lowered to it. -/
def start (capacity threshold : UInt32) : Flow :=
  ⟨capacity, min threshold capacity, capacity, .live⟩

/-- True if a report of `free` bytes on a live stream calls for a refill. -/
def wantsRefill (flow : Flow) (free : UInt32) : Bool :=
  flow.phase = .live && flow.threshold ≤ free

/-- Fail if the stream has ended. -/
def ensureLive (flow : Flow) : Except Fault Unit :=
  match flow.phase with
  | .live => .ok ()
  | .ended after => .error (.operation (.streamExhausted after))

/-- Remember a report of free space, which is never more than the capacity. -/
def record (flow : Flow) (free : UInt32) : Except Fault Flow := do
  flow.ensureLive
  return { flow with lastFree := min free flow.capacity }

/-- End the stream. A stream that has ended keeps its first end. -/
def finish (flow : Flow) (after : Option Tick) : Flow :=
  match flow.phase with
  | .live => { flow with phase := .ended after }
  | .ended _ => flow

/-- True once the stream has ended. -/
def isEnded (flow : Flow) : Bool :=
  match flow.phase with
  | .live => false
  | .ended _ => true

/-- The last tick with data, once the stream has ended with one. -/
def endedAfter (flow : Flow) : Option Tick :=
  match flow.phase with
  | .live => none
  | .ended after => after

end Flow

end MeshControl.Stream
