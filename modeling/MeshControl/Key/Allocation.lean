import MeshControl.Key.Block

/-!
# Keys of an event source

A source may ask for a fixed base key, for a prefix that is put over the keys it receives, for
both or for neither. `Allocation.resolve` accepts the settings that agree; routing may later
assign a key to a source that has none (`Allocation.route`).
-/

namespace MeshControl.Key

/-- The half of a key that a prefix of sixteen bits occupies. -/
inductive Half where
  | lower
  | upper
  deriving DecidableEq, Repr

namespace Half

/-- The number by which a configuration region names the half. -/
def code : Half → UInt32
  | .lower => 0
  | .upper => 1

/-- The sixteen bits of `key` in this half. -/
def take (half : Half) (key : Key) : UInt16 :=
  match half with
  | .lower => (key &&& 0xFFFF).toUInt16
  | .upper => ((key >>> 16) &&& 0xFFFF).toUInt16

end Half

/-- Sixteen bits and the half of the key they belong to. -/
structure HalfPrefix where
  bits : UInt16
  half : Half
  deriving DecidableEq, Repr

namespace HalfPrefix

/-- The bits at their place within a key. -/
def positioned (halfPrefix : HalfPrefix) : UInt32 :=
  match halfPrefix.half with
  | .upper => halfPrefix.bits.toUInt32 <<< 16
  | .lower => halfPrefix.bits.toUInt32

end HalfPrefix

/-- Bits that are put over a key, and the half they count as. -/
structure Overlay where
  bits : UInt32
  half : Half
  deriving DecidableEq, Repr

/-- The overlay of a prefix. -/
def HalfPrefix.overlay (halfPrefix : HalfPrefix) : Overlay :=
  ⟨halfPrefix.positioned, halfPrefix.half⟩

/-- A base key and bits put over it form one key if, under the mask, they show the base key. -/
def validate (key mask overlay : UInt32) : Except Fault Unit :=
  if (key ||| overlay) &&& mask = key then .ok ()
  else .error (.configuration (.keyConflict key mask overlay))

/-- The keys of an event source. -/
structure Allocation where
  /-- Number of keys in the channel. -/
  count : Nat
  /-- The base key with its mask, once known. -/
  pattern : Option Pattern
  /-- The bits put over received keys. -/
  overlay : Option Overlay
  deriving DecidableEq, Repr

namespace Allocation

/-- Settle the keys of a source of `count` keys. A base key takes the mask of its block; without
a prefix the base key itself is put over received keys, counting as the upper half. -/
def resolve (count : Nat) (key : Option Key) (halfPrefix : Option HalfPrefix) :
    Except Fault Allocation := do
  let block ← Block.ofCount count
  match key, halfPrefix with
  | none, halfPrefix => return ⟨count, none, halfPrefix.map HalfPrefix.overlay⟩
  | some key, none => return ⟨count, some ⟨key, block.mask⟩, some ⟨key, .upper⟩⟩
  | some key, some halfPrefix =>
    validate key block.mask halfPrefix.positioned
    return ⟨count, some ⟨key, block.mask⟩, some halfPrefix.overlay⟩

/-- Adopt a key and mask that routing assigned, unless a key is known already. -/
def route (allocation : Allocation) (assigned : Pattern) : Allocation :=
  match allocation.pattern with
  | some _ => allocation
  | none =>
    { allocation with
      pattern := some assigned
      overlay := some (allocation.overlay.getD ⟨assigned.key, .upper⟩) }

/-- The constraint that a known key puts on routing. -/
def constraint (allocation : Allocation) : Option Pattern := allocation.pattern

end Allocation

end MeshControl.Key
