import MeshControl.Fault

/-!
# Blocks of multicast keys

A channel of keys is given an aligned block whose size is a power of two. Its mask keeps the
high bits, which name the block, and leaves the low bits free for the channel number.
-/

namespace MeshControl

/-- A multicast key. -/
abbrev Key := UInt32

namespace Key

/-- The largest number of keys that one mask can leave free: the whole key space. -/
def spaceSize : Nat := 4294967296

/-- A block of keys: the mask that names it and the largest channel number it has room for. -/
structure Block where
  mask : UInt32
  capacity : UInt32
  deriving DecidableEq, Repr

/-- The smallest block with room for `count` keys. A single key needs no channel bits, and its
block still counts one. -/
def Block.ofCount (count : Nat) : Except Fault Block :=
  if count = 0 ∨ spaceSize < count then .error (.configuration (.invalidKeyCount count))
  else if count = 1 then .ok ⟨0xFFFFFFFF, 1⟩
  else
    let capacity := UInt32.ofNat ((1 <<< ((count - 1).log2 + 1)) - 1)
    .ok ⟨0xFFFFFFFF ^^^ capacity, capacity⟩

/-- A base key and the mask under which other keys are compared with it. -/
structure Pattern where
  key : Key
  mask : UInt32
  deriving DecidableEq, Repr

namespace Pattern

/-- Number of keys the mask leaves free. -/
def keyCount (pattern : Pattern) : Nat := (~~~pattern.mask).toNat + 1

/-- True if `key` agrees with the base key under the mask. -/
def covers (pattern : Pattern) (key : Key) : Bool :=
  key &&& pattern.mask == pattern.key &&& pattern.mask

end Pattern

end Key

end MeshControl
