import Mathlib.Data.Nat.Bitwise
import MeshControl.Key.Allocation
import MeshControl.Proofs.Outcome

/-!
# Keys and the blocks they fall into

The mask of a block leaves a number of low bits free (`Frees`), so two keys agree under it when
they have the same quotient by the size of the block (`Pattern.covers_iff`). The key of a channel
is a sum, and a sum leaves its block exactly when the low bits overflow
(`Pattern.covers_add_iff`).
-/

namespace MeshControl.Key

/-- The mask compares all bits of a key but the low `width`. -/
structure Frees (mask : UInt32) (width : Nat) : Prop where
  width_le : width ≤ 32
  mask_eq : mask.toNat = 2 ^ 32 - 2 ^ width

section Frees

variable {mask : UInt32} {width : Nat}

/-- The key space is made of whole blocks. -/
theorem Frees.space_eq (frees : Frees mask width) : 2 ^ 32 = 2 ^ (32 - width) * 2 ^ width := by
  rw [← Nat.pow_add, Nat.sub_add_cancel frees.width_le]

/-- What the mask keeps of a key is the start of its block. -/
theorem Frees.toNat_and (frees : Frees mask width) (key : Key) :
    (key &&& mask).toNat = key.toNat / 2 ^ width * 2 ^ width := by
  have high : mask.toNat = (2 ^ (32 - width) - 1) <<< width := by
    rw [frees.mask_eq, Nat.shiftLeft_eq, Nat.sub_mul, Nat.one_mul, ← frees.space_eq]
  have quotient : key.toNat >>> width < 2 ^ (32 - width) := by
    rw [Nat.shiftRight_eq_div_pow]
    apply Nat.div_lt_of_lt_mul
    rw [Nat.mul_comm, ← frees.space_eq]
    exact key.toNat_lt
  have bits : key.toNat &&& (2 ^ (32 - width) - 1) <<< width =
      (key.toNat >>> width &&& (2 ^ (32 - width) - 1)) <<< width := by
    apply Nat.eq_of_testBit_eq
    intro i
    simp only [Nat.testBit_and, Nat.testBit_shiftLeft, Nat.testBit_shiftRight]
    by_cases low : width ≤ i
    · simp [low]
    · simp [low]
  rw [UInt32.toNat_and, high, bits, Nat.and_two_pow_sub_one_eq_mod, Nat.mod_eq_of_lt quotient,
    Nat.shiftLeft_eq, Nat.shiftRight_eq_div_pow]

theorem Frees.toNat_not (frees : Frees mask width) : (~~~mask).toNat = 2 ^ width - 1 := by
  have whole : 2 ^ width ≤ 2 ^ 32 := Nat.pow_le_pow_right (by omega) frees.width_le
  have positive := Nat.two_pow_pos width
  rw [UInt32.toNat_not, frees.mask_eq, show UInt32.size = 2 ^ 32 from rfl]
  omega

/-- What the mask drops of a key is its place within its block. -/
theorem Frees.toNat_and_not (frees : Frees mask width) (key : Key) :
    (key &&& ~~~mask).toNat = key.toNat % 2 ^ width := by
  rw [UInt32.toNat_and, frees.toNat_not, Nat.and_two_pow_sub_one_eq_mod]

theorem Frees.eq_zero_iff (frees : Frees mask width) : mask = 0 ↔ width = 32 := by
  rw [← UInt32.toNat_inj, frees.mask_eq, UInt32.toNat_zero]
  constructor
  · intro none
    have whole : 2 ^ 32 ≤ 2 ^ width := by omega
    have := (Nat.pow_le_pow_iff_right (by omega)).1 whole
    have := frees.width_le
    omega
  · rintro rfl
    rfl

end Frees

/-! ## Patterns -/

namespace Pattern

variable {pattern : Pattern} {width : Nat}

theorem keyCount_eq (frees : Frees pattern.mask width) : pattern.keyCount = 2 ^ width := by
  have positive := Nat.two_pow_pos width
  rw [keyCount, frees.toNat_not]
  omega

/-- Keys of one block are covered together. -/
theorem covers_iff (frees : Frees pattern.mask width) (key : Key) :
    pattern.covers key = true ↔ key.toNat / 2 ^ width = pattern.key.toNat / 2 ^ width := by
  rw [covers, beq_iff_eq, ← UInt32.toNat_inj, frees.toNat_and, frees.toNat_and]
  constructor
  · intro same
    exact Nat.eq_of_mul_eq_mul_right (Nat.two_pow_pos width) same
  · intro same
    rw [same]

/-- **When the key of a channel stays in the block of the base key.** Its number and the low bits
of the base key together must not exceed the free bits, unless there is one block only. -/
theorem covers_add_iff (frees : Frees pattern.mask width) {channel : Nat}
    (room : channel < 2 ^ width) :
    pattern.covers (pattern.key + UInt32.ofNat channel) = true ↔
      pattern.mask = 0 ∨ (pattern.key &&& ~~~pattern.mask).toNat + channel < pattern.keyCount := by
  have positive := Nat.two_pow_pos width
  have blocks : 2 ^ 32 = 2 ^ width * 2 ^ (32 - width) := by rw [frees.space_eq, Nat.mul_comm]
  have low := Nat.mod_lt pattern.key.toNat positive
  have inside : pattern.key.toNat / 2 ^ width < 2 ^ (32 - width) := by
    apply Nat.div_lt_of_lt_mul
    rw [← blocks]
    exact pattern.key.toNat_lt
  have single : 2 ^ (32 - width) = 1 ↔ width = 32 := by
    have := frees.width_le
    rw [Nat.pow_eq_one]
    omega
  have quotient : (pattern.key + UInt32.ofNat channel).toNat / 2 ^ width =
      (pattern.key.toNat / 2 ^ width + (pattern.key.toNat % 2 ^ width + channel) / 2 ^ width) %
        2 ^ (32 - width) := by
    rw [UInt32.toNat_add, UInt32.toNat_ofNat', Nat.add_mod_mod, blocks,
      Nat.mod_mul_right_div_self]
    congr 1
    conv_lhs => rw [← Nat.div_add_mod pattern.key.toNat (2 ^ width), Nat.add_assoc]
    exact Nat.mul_add_div positive ..
  rw [covers_iff frees, quotient, keyCount_eq frees, frees.toNat_and_not, frees.eq_zero_iff]
  by_cases fits : pattern.key.toNat % 2 ^ width + channel < 2 ^ width
  · rw [Nat.div_eq_of_lt fits, Nat.add_zero, Nat.mod_eq_of_lt inside]
    exact iff_of_true rfl (.inr fits)
  · -- the low bits carry into the number of the block, which comes back to itself only if there
    -- is no other block
    have carry : (pattern.key.toNat % 2 ^ width + channel) / 2 ^ width = 1 := by
      apply Nat.div_eq_of_lt_le <;> omega
    rw [carry, ← single]
    by_cases last : pattern.key.toNat / 2 ^ width + 1 < 2 ^ (32 - width)
    · rw [Nat.mod_eq_of_lt last]
      generalize pattern.key.toNat / 2 ^ width = number at last
      omega
    · have wraps : pattern.key.toNat / 2 ^ width + 1 = 2 ^ (32 - width) := by omega
      rw [wraps, Nat.mod_self, ← wraps]
      generalize pattern.key.toNat / 2 ^ width = number
      omega

end Pattern

/-! ## Blocks for a number of keys -/

/-- A block has room for a channel of `count` keys, and its mask frees no more bits than that
takes. -/
theorem Block.ofCount_frees {count : Nat} {block : Block} (ok : ofCount count = .ok block) :
    ∃ width, Frees block.mask width ∧ count ≤ 2 ^ width ∧ 2 ^ width < 2 * count := by
  unfold ofCount at ok
  split at ok
  · cases ok
  rename_i counts
  rw [not_or, Nat.not_lt] at counts
  have space : spaceSize = 2 ^ 32 := rfl
  by_cases single : count = 1
  · rw [if_pos single] at ok
    cases ok
    refine ⟨0, ⟨by omega, rfl⟩, ?_, ?_⟩
    · omega
    · omega
  · rw [if_neg single] at ok
    cases ok
    have some : count - 1 ≠ 0 := by omega
    have low := Nat.log2_self_le some
    have high := Nat.lt_log2_self (n := count - 1)
    have few : (count - 1).log2 + 1 ≤ 32 := by
      have := (Nat.log2_lt some).2 (show count - 1 < 2 ^ 32 by omega)
      omega
    have whole := Nat.pow_le_pow_right (n := 2) (by omega) few
    have double : 2 ^ ((count - 1).log2 + 1) = 2 * 2 ^ (count - 1).log2 := by
      rw [Nat.pow_succ, Nat.mul_comm]
    refine ⟨(count - 1).log2 + 1, ⟨few, ?_⟩, ?_, ?_⟩
    · have capacity : (UInt32.ofNat (1 <<< ((count - 1).log2 + 1) - 1)).toNat =
          2 ^ ((count - 1).log2 + 1) - 1 := by
        rw [Nat.one_shiftLeft]
        apply UInt32.toNat_ofNat_of_lt'
        rw [show UInt32.size = 2 ^ 32 from rfl]
        omega
      have complement : ∀ word : UInt32, 0xFFFFFFFF ^^^ word = ~~~word := by
        intro word
        exact UInt32.neg_one_xor
      rw [complement, UInt32.toNat_not, capacity, show UInt32.size = 2 ^ 32 from rfl]
      omega
    · omega
    · omega

/-! ## Keys that a source settles on -/

namespace Allocation

/-- What is behind an allocation with a base key: the key that was asked for and the mask of its
block. With a prefix the key has no bits inside the block. -/
theorem exists_block_of_resolve {count : Nat} {key : Option Key} {halfPrefix : Option HalfPrefix}
    {allocation : Allocation} (ok : resolve count key halfPrefix = .ok allocation) :
    allocation.count = count ∧ ∀ pattern, allocation.pattern = some pattern →
      key = some pattern.key ∧ ∃ block, Block.ofCount count = .ok block ∧
        pattern.mask = block.mask ∧
        (halfPrefix.isSome = true → pattern.key &&& ~~~pattern.mask = 0) := by
  obtain ⟨block, made, ok⟩ := exists_of_bind_eq_ok ok
  cases key with
  | none =>
    cases ok
    exact ⟨rfl, fun pattern found => nomatch found⟩
  | some key =>
    cases halfPrefix with
    | none =>
      cases ok
      refine ⟨rfl, ?_⟩
      rintro pattern ⟨⟩
      exact ⟨rfl, block, made, rfl, fun given => nomatch given⟩
    | some halfPrefix =>
      obtain ⟨_, agrees, ok⟩ := exists_of_bind_eq_ok ok
      cases ok
      refine ⟨rfl, ?_⟩
      rintro pattern ⟨⟩
      refine ⟨rfl, block, made, rfl, fun _ => ?_⟩
      unfold validate at agrees
      split at agrees
      · rename_i shown
        -- what is left of anything under the mask has no bits outside it
        dsimp only
        rw [← shown, UInt32.and_assoc, UInt32.and_not_self, UInt32.and_zero]
      · cases agrees

end Allocation

end MeshControl.Key
