import MeshControl.Machine.Basic

/-!
# A bad way to the machine

A `Drill` is a machine behind a way that itself fails: some reads come back short and some
cores are answered for by others. Everything else goes through to the machine.
-/

namespace MeshControl

/-- What is answered in place of a core. -/
inductive StandIn where
  | reply (data : Bytes)
  | failure (reason : String)
  | nothing
  deriving DecidableEq, Repr

/-- A machine and the failures on the way to it. -/
structure Drill where
  machine : Machine
  /-- The most bytes that the next read from an address returns, once each. -/
  shortReads : OrderedMap (Chip × UInt32) Nat
  /-- Cores that are answered for. -/
  standIns : OrderedMap Core StandIn
  deriving DecidableEq

namespace Drill

/-- A way without failures to a machine that was just switched on. -/
def start : Drill := ⟨.start, .empty, .empty⟩

/-- An action on the machine itself. -/
def onMachine {α : Type} (action : Action Machine α) : Action Drill α := fun drill =>
  let (result, machine) := action.runOn drill.machine
  (result, { drill with machine })

/-- Read through the bad way. -/
def read (chip : Chip) (address : UInt32) (length : Nat) : Action Drill Bytes := do
  let data ← onMachine (Machine.read chip address length)
  let drill ← get
  match drill.shortReads.get? (chip, address) with
  | none => return data
  | some most =>
    set { drill with shortReads := drill.shortReads.erase (chip, address) }
    return data.take most

/-- Exchange a datagram through the bad way. -/
def exchange (core : Core) (datagram : Bytes) : Action Drill (Option Bytes) := do
  match (← get).standIns.get? core with
  | some (.reply data) => return some data
  | some (.failure reason) => throw (.transport reason)
  | some .nothing => return none
  | none => onMachine (Machine.exchange core datagram)

instance : Transport Drill where
  write chip address data := onMachine (Machine.write chip address data)
  read := read
  exchange := exchange
  clearTag slot := onMachine (Machine.clearTag slot)
  setIpTag tag := onMachine (Machine.setIpTag tag)
  setReverseTag tag := onMachine (Machine.setReverseTag tag)

/-- Let the next read from an address return at most `most` bytes. -/
def shortenRead (drill : Drill) (chip : Chip) (address : UInt32) (most : Nat) : Drill :=
  { drill with shortReads := drill.shortReads.insert (chip, address) most }

/-- Answer for a core from now on. -/
def standIn (drill : Drill) (core : Core) (answer : StandIn) : Drill :=
  { drill with standIns := drill.standIns.insert core answer }

end Drill

end MeshControl
