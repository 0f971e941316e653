import MeshControl.Bytes
import MeshControl.Fault
import MeshControl.Tag

/-!
# The way to the machine

The host reaches the machine through a `Transport`: it reads and writes the memory of chips,
exchanges one datagram with a core, and sets the tags of a board. A transport is given by a
type of states; each operation is an `Action` on such a state, which answers or fails and
leaves a new state in either case.
-/

namespace MeshControl

/-- A computation on states `σ` that answers or fails, and leaves a state either way. -/
abbrev Action (σ α : Type) := ExceptT Fault (StateM σ) α

namespace Action

/-- The answer of an action from a state, with the state it leaves. -/
def runOn {σ α : Type} (action : Action σ α) (state : σ) : Except Fault α × σ := action.run.run state

/-- An action that does as `result` says and leaves the state alone. -/
def ofExcept {σ α : Type} (result : Except Fault α) : Action σ α := fun state => (result, state)

/-- The same action, with another fault in place of its own. -/
def mapFault {σ α : Type} (change : Fault → Fault) (action : Action σ α) : Action σ α := fun state =>
  match action.runOn state with
  | (.ok answer, state) => (.ok answer, state)
  | (.error fault, state) => (.error (change fault), state)

end Action

/-- States of a way to the machine, with the operations on them. -/
class Transport (σ : Type) where
  /-- Write bytes to a chip's memory; the answer is how many of them the chip acknowledged. -/
  write : Chip → UInt32 → Bytes → Action σ Nat
  /-- Read a chip's memory. -/
  read : Chip → UInt32 → Nat → Action σ Bytes
  /-- Send a datagram to a core and wait for its reply; no answer means that none came. -/
  exchange : Core → Bytes → Action σ (Option Bytes)
  clearTag : TagSlot → Action σ Unit
  setIpTag : IpTag → Action σ Unit
  setReverseTag : ReverseTag → Action σ Unit

namespace Transport

variable {σ : Type} [Transport σ]

/-- A read that failed, with the reason. -/
def readFault (chip : Chip) (address : UInt32) (length : Nat) (reason : String) : Fault :=
  .operation (.readFailed chip address length reason)

/-- Read exactly `length` bytes. Fewer or more than that count as a failure. -/
def readExact (chip : Chip) (address : UInt32) (length : Nat) : Action σ Bytes := do
  let data ← Action.mapFault (fun fault => readFault chip address length fault.message)
    (read chip address length)
  if data.length = length then return data
  else throw (readFault chip address length s!"short read of {data.length} bytes")

/-- Read one word. -/
def readWord (chip : Chip) (address : UInt32) : Action σ UInt32 := do
  let data ← readExact chip address 4
  return (Bytes.words data).headD 0

end Transport

end MeshControl
