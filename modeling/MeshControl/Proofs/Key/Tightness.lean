import Mathlib.Order.Bounds.Defs
import MeshControl.Proofs.Key.Block

/-!
# The block of a channel is the tightest one

A channel of keys gets the smallest aligned block of a power of two that has room for it
(`Block.ofCount_tightest`). If the base key has no bits inside its block, it is the first key of it
(`Frees.aligned_iff`): the keys of the block are the numbers from there on
(`Pattern.covers_iff_between`), and adding a channel number is the same as setting its bits
(`Frees.add_eq_or`).
-/

namespace MeshControl.Key

/-! ## Blocks that start at the base key -/

section Aligned

variable {mask : UInt32} {width channel : Nat} {base : Key}

theorem Frees.aligned_iff (frees : Frees mask width) (base : Key) :
    base &&& ~~~mask = 0 ↔ base.toNat % 2 ^ width = 0 := by
  rw [← UInt32.toNat_inj, frees.toNat_and_not, UInt32.toNat_zero]

/-- The first key of a block, by the number of the block. -/
theorem Frees.toNat_eq_of_aligned (frees : Frees mask width) (aligned : base &&& ~~~mask = 0) :
    base.toNat = 2 ^ width * (base.toNat / 2 ^ width) := by
  rw [Nat.mul_div_cancel' (Nat.dvd_of_mod_eq_zero ((frees.aligned_iff base).1 aligned))]

/-- A block ends where the key space does or before. -/
theorem Frees.add_lt_of_aligned (frees : Frees mask width) (aligned : base &&& ~~~mask = 0)
    (room : channel < 2 ^ width) : base.toNat + channel < spaceSize := by
  have whole : spaceSize = 2 ^ width * 2 ^ (32 - width) := by
    rw [Nat.mul_comm, ← frees.space_eq]
    rfl
  have start := frees.toNat_eq_of_aligned aligned
  have inside : base.toNat / 2 ^ width < 2 ^ (32 - width) := by
    apply Nat.div_lt_of_lt_mul
    rw [← whole]
    exact base.toNat_lt
  have next : 2 ^ width * (base.toNat / 2 ^ width + 1) ≤ 2 ^ width * 2 ^ (32 - width) :=
    Nat.mul_le_mul_left _ inside
  rw [Nat.mul_add, ← start] at next
  omega

/-- The bits of a channel number have a place of their own below those of the base key. -/
theorem Frees.add_eq_or (frees : Frees mask width) (aligned : base &&& ~~~mask = 0)
    (room : channel < 2 ^ width) :
    base + UInt32.ofNat channel = base ||| UInt32.ofNat channel := by
  have below := frees.add_lt_of_aligned aligned room
  rw [spaceSize] at below
  have number : (UInt32.ofNat channel).toNat = channel :=
    UInt32.toNat_ofNat_of_lt' (by rw [UInt32.size]; omega)
  have parted := Nat.two_pow_add_eq_or_of_lt room (base.toNat / 2 ^ width)
  rw [← frees.toNat_eq_of_aligned aligned] at parted
  rw [← UInt32.toNat_inj, UInt32.toNat_add, UInt32.toNat_or, number, Nat.mod_eq_of_lt below, parted]

end Aligned

namespace Pattern

variable {pattern : Pattern} {width channel : Nat}

/-- **The keys of a block are consecutive**, from its base key on. -/
theorem covers_iff_between (frees : Frees pattern.mask width)
    (aligned : pattern.key &&& ~~~pattern.mask = 0) (key : Key) :
    pattern.covers key = true ↔
      pattern.key.toNat ≤ key.toNat ∧ key.toNat ≤ pattern.key.toNat + pattern.keyCount - 1 := by
  have start := frees.toNat_eq_of_aligned aligned
  rw [covers_iff frees, Nat.div_eq_iff (Nat.two_pow_pos width), keyCount_eq frees, Nat.mul_comm,
    ← start]

/-- All channels of a block are covered with their base key. -/
theorem covers_add_of_aligned (frees : Frees pattern.mask width)
    (aligned : pattern.key &&& ~~~pattern.mask = 0) (room : channel < 2 ^ width) :
    pattern.covers (pattern.key + UInt32.ofNat channel) = true := by
  rw [covers_add_iff frees room, aligned, UInt32.toNat_zero, Nat.zero_add, keyCount_eq frees]
  exact .inr room

end Pattern

/-! ## The block that is chosen -/

namespace Block

variable {count : Nat} {block : Block}

/-- For more than one key the capacity is what the mask drops. -/
theorem not_mask_eq_capacity (ok : ofCount count = .ok block) (several : 2 ≤ count) :
    ~~~block.mask = block.capacity := by
  unfold ofCount at ok
  rw [if_neg (show count ≠ 1 by omega)] at ok
  split at ok
  · cases ok
  · cases ok
    exact (congrArg (~~~ ·) UInt32.neg_one_xor).trans UInt32.not_not

/-- Of the powers of two with room for `count` keys, one that is less than twice as much is the
least. -/
theorem isLeast_two_pow {width : Nat} (room : count ≤ 2 ^ width) (tight : 2 ^ width < 2 * count) :
    IsLeast {size | (∃ k, size = 2 ^ k) ∧ count ≤ size} (2 ^ width) := by
  refine ⟨⟨⟨width, rfl⟩, room⟩, ?_⟩
  rintro size ⟨⟨k, rfl⟩, enough⟩
  have double : 2 ^ (k + 1) = 2 * 2 ^ k := by rw [Nat.pow_succ, Nat.mul_comm]
  have below : 2 ^ width < 2 ^ (k + 1) := by omega
  have atMost : width < k + 1 := (Nat.pow_lt_pow_iff_right (by omega)).1 below
  exact Nat.pow_le_pow_right (by omega) (by omega)

/-- The same for the greatest channel number of a block. -/
theorem isLeast_two_pow_sub_one {size : Nat}
    (least : IsLeast {size | (∃ k, size = 2 ^ k) ∧ count ≤ size} size) :
    IsLeast {top | (∃ k, top = 2 ^ k - 1) ∧ count - 1 ≤ top} (size - 1) := by
  obtain ⟨⟨⟨width, rfl⟩, room⟩, lower⟩ := least
  refine ⟨⟨⟨width, rfl⟩, by omega⟩, ?_⟩
  rintro top ⟨⟨k, rfl⟩, enough⟩
  have positive := Nat.two_pow_pos k
  have bound : 2 ^ width ≤ 2 ^ k := lower ⟨⟨k, rfl⟩, by omega⟩
  omega

/-- What a block gives to a channel of `count` keys. -/
structure Allots (block : Block) (count : Nat) : Prop where
  /-- The mask leaves as many keys free as the least power of two that is enough. -/
  size : IsLeast {size | (∃ k, size = 2 ^ k) ∧ count ≤ size} ((~~~block.mask).toNat + 1)
  /-- Mask and capacity share out the bits, but for a single key, which needs none of its own. -/
  complement : 2 ≤ count → ~~~block.mask = block.capacity
  /-- The capacity is the least number of ones that can count the channels from zero. -/
  capacity : 2 ≤ count →
    IsLeast {top | (∃ k, top = 2 ^ k - 1) ∧ count - 1 ≤ top} block.capacity.toNat
  /-- From a base key without bits inside the block, each channel has a key of the block. -/
  channels : ∀ base : Key, base &&& ~~~block.mask = 0 → ∀ channel < count,
    base.toNat + channel < spaceSize ∧
      base + UInt32.ofNat channel = base ||| UInt32.ofNat channel ∧
      Pattern.covers ⟨base, block.mask⟩ (base + UInt32.ofNat channel) = true
  /-- The keys of the block are consecutive. -/
  between : ∀ base : Key, base &&& ~~~block.mask = 0 → ∀ key : Key,
    Pattern.covers ⟨base, block.mask⟩ key = true ↔
      base.toNat ≤ key.toNat ∧ key.toNat ≤ base.toNat + ((~~~block.mask).toNat + 1) - 1

theorem allots_of_ofCount (ok : ofCount count = .ok block) : block.Allots count := by
  obtain ⟨width, frees, room, tight⟩ := ofCount_frees ok
  have positive := Nat.two_pow_pos width
  have free : (~~~block.mask).toNat + 1 = 2 ^ width := by
    rw [frees.toNat_not]
    omega
  have least := isLeast_two_pow room tight
  rw [← free] at least
  refine ⟨least, not_mask_eq_capacity ok, ?_, ?_, ?_⟩
  · intro several
    rw [← not_mask_eq_capacity ok several]
    exact isLeast_two_pow_sub_one least
  · intro base aligned channel low
    have inside : channel < 2 ^ width := by omega
    exact ⟨frees.add_lt_of_aligned aligned inside, frees.add_eq_or aligned inside,
      Pattern.covers_add_of_aligned frees aligned inside⟩
  · intro base aligned key
    exact Pattern.covers_iff_between frees aligned key

/-- **A channel gets the tightest aligned block**, if it has keys and no more than there are, and
otherwise the count is refused. -/
theorem ofCount_tightest (count : Nat) :
    if 1 ≤ count ∧ count ≤ spaceSize then
      ∃ block, ofCount count = .ok block ∧ block.Allots count
    else ofCount count = .error (.configuration (.invalidKeyCount count)) := by
  split
  · rename_i counts
    cases made : ofCount count with
    | ok block => exact ⟨block, rfl, allots_of_ofCount made⟩
    | error fault =>
      rw [ofCount, if_neg (by omega)] at made
      split at made
      · cases made
      · cases made
  · rw [ofCount, if_pos (by omega)]

end Block

end MeshControl.Key
