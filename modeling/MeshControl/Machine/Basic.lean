import MeshControl.Machine.Memory
import MeshControl.Ordered.Set
import MeshControl.Scp.Message
import MeshControl.Transport

/-!
# A machine in software

A `Machine` answers as the hardware does: it holds the memory of every chip, the routing
tables of every core and the tags of the board. It keeps a log of the operations it was asked
for, and it can be told to fail in given ways, so that what the host does about failures can
be observed.
-/

namespace MeshControl

namespace Machine

/-- First address of the memory shared by the cores of a chip. -/
def memoryBase : UInt32 := 0x60000000

/-- Bytes of that memory. -/
def memorySize : UInt32 := 0x08000000

/-- An operation the machine was asked for. -/
inductive Operation where
  | write (chip : Chip) (address : UInt32) (length : Nat)
  | read (chip : Chip) (address : UInt32) (length : Nat)
  /-- A command sent to a core. -/
  | command (core : Core) (opcode : Scp.Opcode)
  | clearTag (slot : TagSlot)
  | setIpTag (slot : TagSlot)
  | setReverseTag (slot : TagSlot)
  deriving DecidableEq, Repr

/-- The cores that hold each routing table. -/
structure Routes where
  /-- The system table is installed. -/
  system : OrderedSet Core
  /-- The application table is installed. -/
  application : OrderedSet Core
  /-- An application table was kept. -/
  saved : OrderedSet Core
  deriving DecidableEq

namespace Routes

/-- No table was ever loaded or kept. -/
def none : Routes := ⟨.empty, .empty, .empty⟩

/-- The tables after a core has obeyed a command. A table that is installed takes the place of the
other. -/
def apply (routes : Routes) (core : Core) : Scp.Command → Routes
  | .loadSystemRoutes =>
    { routes with
      system := routes.system.insert core
      application := routes.application.erase core }
  | .loadApplicationRoutes =>
    { routes with
      system := routes.system.erase core
      application := routes.application.insert core }
  | .saveApplicationRoutes => { routes with saved := routes.saved.insert core }

end Routes

/-- Ways in which the machine was told to fail. -/
structure Troubles where
  /-- Codes with which cores answer a command in place of obeying it. -/
  refusals : OrderedMap (Core × Scp.Opcode) Scp.ResultCode
  /-- Cores that never reply. -/
  silent : OrderedSet Core
  /-- Starts of writes of which only half will be stored, once each. -/
  shortWrites : OrderedSet (Chip × UInt32)
  /-- Slots that the board refuses to clear or set. -/
  refusedTags : OrderedSet TagSlot
  deriving DecidableEq

end Machine

open Machine in
/-- A machine in software. -/
structure Machine where
  memory : Memory
  /-- Operations the machine was asked for, the latest first. -/
  history : List Operation
  troubles : Troubles
  ipTags : OrderedMap TagSlot IpTag
  reverseTags : OrderedMap TagSlot ReverseTag
  routes : Routes
  deriving DecidableEq

namespace Machine

/-- A machine that was just switched on. -/
def start : Machine := ⟨.blank, [], ⟨.empty, .empty, .empty, .empty⟩, .empty, .empty, .none⟩

/-- The machine with one more operation in its log. -/
def logged (machine : Machine) (operation : Operation) : Machine :=
  { machine with history := operation :: machine.history }

/-- The operations the machine was asked for, in order. -/
def log (machine : Machine) : List Operation := machine.history.reverse

/-- How many operations of each kind are in the log: writes, reads, commands, slots cleared, tags
set and reverse tags set. -/
def tally (machine : Machine) : List Nat :=
  let count (kind : Operation → Bool) := machine.history.countP kind
  [count (· matches .write ..), count (· matches .read ..), count (· matches .command ..),
    count (· matches .clearTag _), count (· matches .setIpTag _),
    count (· matches .setReverseTag _)]

/-- True if `length` bytes from `address` on are memory that the cores share. -/
def inMemory (address : UInt32) (length : Nat) : Bool :=
  memoryBase ≤ address && address.toNat + length ≤ memoryBase.toNat + memorySize.toNat

/-- The fault of an access to something else. -/
def outsideFault (address : UInt32) (length : Nat) : Fault :=
  .transport s!"access of {length} bytes at 0x{Text.hex 8 address.toNat} is outside SDRAM"

/-- Store bytes. A write that was to be short stores its first half, once. -/
def write (chip : Chip) (address : UInt32) (data : Bytes) : Action Machine Nat := fun machine =>
  if inMemory address data.length then
    let machine := machine.logged (.write chip address data.length)
    let short := machine.troubles.shortWrites.contains (chip, address)
    let accepted := if short then data.length / 2 else data.length
    let shortWrites := machine.troubles.shortWrites.erase (chip, address)
    (.ok accepted,
      { machine with
        memory := machine.memory.write chip address.toNat (data.take accepted)
        troubles := { machine.troubles with shortWrites } })
  else (.error (outsideFault address data.length), machine)

/-- Read bytes. -/
def read (chip : Chip) (address : UInt32) (length : Nat) : Action Machine Bytes := fun machine =>
  if inMemory address length then
    (.ok (machine.memory.read chip address.toNat length),
      machine.logged (.read chip address length))
  else (.error (outsideFault address length), machine)

/-- Obey a request, unless its core is to refuse it. The answer is the code of the reply. -/
def obey (request : Scp.Request) (machine : Machine) : Scp.ResultCode × Machine :=
  match machine.troubles.refusals.get? (request.destination, request.opcode) with
  | some code => (code, machine)
  | none =>
    match Scp.Command.ofOpcode? request.opcode with
    | some command =>
      (Scp.ResultCode.ok,
        { machine with routes := machine.routes.apply request.destination command })
    | none => (Scp.ResultCode.badCommand, machine)

/-- Take a datagram for a core and give its reply, if the core is not silent. -/
def exchange (core : Core) (datagram : Bytes) : Action Machine (Option Bytes) := fun machine =>
  match Scp.Request.decode datagram with
  | .error fault => (.error fault, machine)
  | .ok (request, sequence) =>
    let machine := machine.logged (.command core request.opcode)
    if machine.troubles.silent.contains core then (.ok none, machine)
    else
      let (code, machine) := machine.obey request
      (.ok (some (Scp.Reply.encode core code sequence)), machine)

/-- True if the board refuses to clear or set a slot. -/
def refusesTag (machine : Machine) (slot : TagSlot) : Bool :=
  machine.troubles.refusedTags.contains slot

/-- Clear a slot. -/
def clearTag (slot : TagSlot) : Action Machine Unit := fun machine =>
  let machine := machine.logged (.clearTag slot)
  if !slot.isManaged || machine.refusesTag slot then
    (.error (.transport s!"board refused to clear tag {slot}"), machine)
  else
    (.ok (),
      { machine with
        ipTags := machine.ipTags.erase slot
        reverseTags := machine.reverseTags.erase slot })

/-- Put a tag into its slot. -/
def setIpTag (tag : IpTag) : Action Machine Unit := fun machine =>
  let machine := machine.logged (.setIpTag tag.slot)
  if machine.refusesTag tag.slot then
    (.error (.transport s!"board refused IP tag {tag.slot}"), machine)
  else
    (.ok (),
      { machine with
        ipTags := machine.ipTags.insert tag.slot tag
        reverseTags := machine.reverseTags.erase tag.slot })

/-- Put a reverse tag into its slot. -/
def setReverseTag (tag : ReverseTag) : Action Machine Unit := fun machine =>
  let machine := machine.logged (.setReverseTag tag.slot)
  if machine.refusesTag tag.slot then
    (.error (.transport s!"board refused reverse IP tag {tag.slot}"), machine)
  else
    (.ok (),
      { machine with
        ipTags := machine.ipTags.erase tag.slot
        reverseTags := machine.reverseTags.insert tag.slot tag })

instance : Transport Machine := ⟨write, read, exchange, clearTag, setIpTag, setReverseTag⟩

/-- Let a core answer a command with `code` from now on. -/
def refuse (machine : Machine) (core : Core) (opcode : Scp.Opcode) (code : Scp.ResultCode) :
    Machine :=
  { machine with
    troubles := { machine.troubles with
      refusals := machine.troubles.refusals.insert (core, opcode) code } }

/-- Let a core never reply again. -/
def silence (machine : Machine) (core : Core) : Machine :=
  { machine with
    troubles := { machine.troubles with silent := machine.troubles.silent.insert core } }

/-- Let only half of the next write from an address on be stored. -/
def shorten (machine : Machine) (chip : Chip) (address : UInt32) : Machine :=
  { machine with
    troubles := { machine.troubles with
      shortWrites := machine.troubles.shortWrites.insert (chip, address) } }

/-- Let the board refuse to clear or set a slot. -/
def refuseTag (machine : Machine) (slot : TagSlot) : Machine :=
  { machine with
    troubles := { machine.troubles with
      refusedTags := machine.troubles.refusedTags.insert slot } }

/-- A tag that an earlier run has left in its slot. -/
def preloadTag (machine : Machine) (tag : IpTag) : Machine :=
  { machine with ipTags := machine.ipTags.insert tag.slot tag }

/-- Forget the log. -/
def clearLog (machine : Machine) : Machine := { machine with history := [] }

end Machine

end MeshControl
