import MeshControl.Fault
import MeshControl.IpAddress

/-!
# Tags of an Ethernet chip

An Ethernet chip has a small table of tags. An `IpTag` forwards packets that leave the machine
to a host; a `ReverseTag` delivers what arrives at a board port to a core. The host manages
the first seven slots.
-/

namespace MeshControl

/-- The number of a slot in the tag table. -/
abbrev TagSlot := UInt8

/-- Number of slots that the host manages. -/
def TagSlot.managedCount : Nat := 7

/-- True if the host manages this slot. -/
def TagSlot.isManaged (slot : TagSlot) : Bool := slot.toNat < managedCount

/-- The managed slots, in order. -/
def TagSlot.managed : List TagSlot := (List.range managedCount).map UInt8.ofNat

/-- A host endpoint that packets leaving the machine are forwarded to. -/
structure IpTag where
  board : Option IpAddress
  slot : TagSlot
  host : IpAddress
  port : UInt16
  /-- Strip the packet header before forwarding. -/
  strip : Bool
  /-- Name of the traffic that shares the tag. -/
  traffic : String := "DEFAULT"
  deriving DecidableEq, Repr

/-- A board port whose packets are delivered to a core. -/
structure ReverseTag where
  board : Option IpAddress
  slot : TagSlot
  port : UInt16
  destination : Core
  /-- Port on the destination core. -/
  corePort : UInt8
  deriving DecidableEq, Repr

/-- Check that a tag names a managed slot and the board that holds it. -/
def TagSlot.validate (slot : TagSlot) (board : Option IpAddress) : Except Fault Unit :=
  if slot.isManaged then
    match board with
    | some _ => .ok ()
    | none => .error (.configuration (.tagAddressMissing slot))
  else .error (.configuration (.invalidTag slot))

end MeshControl
