import Mathlib.Data.Fintype.BigOperators
import Mathlib.Data.Fintype.Fin
import Mathlib.Data.Set.Card
import MeshControl.Proofs.Key.Block

/-!
# How many keys a pattern covers

A pattern covers two keys for each way to choose a bit that its mask leaves free
(`Pattern.ncard_covered`). The number that `Pattern.keyCount` gives is never less, and it is that
number exactly for the masks of blocks, whose free bits are the lowest
(`Pattern.keyCount_eq_ncard_iff`). A mask that routing assigned may leave others free.
-/

namespace MeshControl.Key

/-! ## Words as bits -/

/-- The bit of a word at each of its places. -/
def bits (word : UInt32) (place : Fin 32) : Bool := word.toNat.testBit place

theorem bits_injective : Function.Injective bits := by
  intro word other same
  rw [← UInt32.toNat_inj]
  apply Nat.eq_of_testBit_eq
  intro i
  by_cases inside : i < 32
  · exact congrFun same ⟨i, inside⟩
  · have above : 2 ^ 32 ≤ 2 ^ i := Nat.pow_le_pow_right (by omega) (by omega)
    rw [Nat.testBit_lt_two_pow (Nat.lt_of_lt_of_le word.toNat_lt above),
      Nat.testBit_lt_two_pow (Nat.lt_of_lt_of_le other.toNat_lt above)]

theorem bits_surjective : Function.Surjective bits := by
  intro chosen
  refine ⟨UInt32.ofNat (Nat.ofBits chosen), ?_⟩
  funext place
  rw [bits, UInt32.toNat_ofNat_of_lt' (Nat.ofBits_lt_two_pow chosen),
    Nat.testBit_ofBits_lt chosen place place.isLt]

theorem bits_and (word other : UInt32) (place : Fin 32) :
    bits (word &&& other) place = (bits word place && bits other place) := by
  rw [bits, UInt32.toNat_and, Nat.testBit_and, bits, bits]

theorem bits_not (word : UInt32) (place : Fin 32) : bits (~~~word) place = !bits word place := by
  have complement : (~~~word).toNat = 2 ^ 32 - (word.toNat + 1) := by
    rw [UInt32.toNat_not, UInt32.size]
    omega
  rw [bits, complement, Nat.testBit_two_pow_sub_succ word.toNat_lt, decide_eq_true place.isLt,
    Bool.true_and, bits]

/-- The places at which a mask leaves keys free. -/
def freePlaces (mask : UInt32) : Finset (Fin 32) :=
  Finset.univ.filter fun place => bits mask place = false

/-- The mask of a block leaves the lowest places free. -/
theorem Frees.bits_eq_false_iff {mask : UInt32} {width : Nat} (frees : Frees mask width)
    (place : Fin 32) : bits mask place = false ↔ place.val < width := by
  rw [← Bool.not_eq_true', ← bits_not, bits, frees.toNat_not, Nat.testBit_two_pow_sub_one,
    decide_eq_true_eq]

theorem Frees.card_freePlaces {mask : UInt32} {width : Nat} (frees : Frees mask width) :
    (freePlaces mask).card = width := by
  rw [freePlaces, Finset.filter_congr fun place _ => frees.bits_eq_false_iff place,
    Fin.card_filter_val_lt, Nat.min_eq_right frees.width_le]

/-! ## Covered keys -/

namespace Pattern

variable (pattern : Pattern)

/-- The keys that agree with the base key under the mask. -/
def covered : Set Key := {key | pattern.covers key = true}

/-- A covered key has the bits of the base key where the mask compares them. -/
theorem covers_iff_bits (key : Key) :
    pattern.covers key = true ↔
      ∀ place, bits pattern.mask place = true → bits key place = bits pattern.key place := by
  rw [covers, beq_iff_eq, ← bits_injective.eq_iff, funext_iff]
  apply forall_congr'
  intro place
  rw [bits_and, bits_and]
  cases bits pattern.mask place with
  | false => simp
  | true => simp

/-- The covered keys by their bits: where the mask compares, that of the base key, and both where it
leaves keys free. -/
theorem image_bits_covered :
    bits '' pattern.covered = Fintype.piFinset fun place =>
      if bits pattern.mask place = false then Finset.univ else {bits pattern.key place} := by
  ext chosen
  obtain ⟨key, rfl⟩ := bits_surjective chosen
  rw [bits_injective.mem_set_image, Finset.mem_coe, Fintype.mem_piFinset]
  change pattern.covers key = true ↔ _
  rw [covers_iff_bits]
  apply forall_congr'
  intro place
  cases bits pattern.mask place with
  | false => simp
  | true => simp

/-- **How many keys a pattern covers**: two for each free bit. -/
theorem ncard_covered : pattern.covered.ncard = 2 ^ (freePlaces pattern.mask).card := by
  rw [← Set.ncard_image_of_injective _ bits_injective, image_bits_covered, Set.ncard_coe_finset,
    Fintype.card_piFinset]
  have choices : ∀ place, (if bits pattern.mask place = false then Finset.univ
      else {bits pattern.key place} : Finset Bool).card =
        if bits pattern.mask place = false then 2 else 1 := by
    intro place
    split
    · rfl
    · rfl
  rw [Finset.prod_congr rfl fun place _ => choices place, Finset.prod_ite, Finset.prod_const,
    Finset.prod_const_one, Nat.mul_one, freePlaces]

/-- Covered keys differ in what the mask drops of them, and that is no more than all it drops. -/
theorem ncard_covered_le : pattern.covered.ncard ≤ pattern.keyCount := by
  rw [keyCount, ← Finset.card_range ((~~~pattern.mask).toNat + 1), ← Set.ncard_coe_finset]
  apply Set.ncard_le_ncard_of_injOn fun key => (key &&& ~~~pattern.mask).toNat
  · intro key _
    rw [Finset.mem_coe, Finset.mem_range, UInt32.toNat_and]
    exact Nat.lt_succ_of_le Nat.and_le_right
  · intro key first other second same
    have kept : key &&& pattern.mask = other &&& pattern.mask :=
      (beq_iff_eq.1 first).trans (beq_iff_eq.1 second).symm
    have dropped : key &&& ~~~pattern.mask = other &&& ~~~pattern.mask := UInt32.toNat_inj.1 same
    apply bits_injective
    funext place
    have keptBit := congrFun (congrArg bits kept) place
    have droppedBit := congrFun (congrArg bits dropped) place
    rw [bits_and, bits_and] at keptBit
    rw [bits_and, bits_and, bits_not] at droppedBit
    cases compares : bits pattern.mask place with
    | false => simpa [compares] using droppedBit
    | true => simpa [compares] using keptBit

/-- Only the mask of a block drops a power of two of keys. -/
theorem frees_of_keyCount_eq {width : Nat} (power : pattern.keyCount = 2 ^ width)
    (small : width ≤ 32) : Frees pattern.mask width := by
  have bounded := pattern.mask.toNat_lt
  rw [keyCount, UInt32.toNat_not, UInt32.size] at power
  exact ⟨small, by omega⟩

/-- **When the key count is the number of covered keys.** There are two of these for each free bit,
and the count is never less; it is as many exactly if the free bits of the mask are the lowest. -/
theorem keyCount_eq_ncard_iff :
    pattern.covered.ncard = 2 ^ (freePlaces pattern.mask).card ∧
      pattern.covered.ncard ≤ pattern.keyCount ∧
      (pattern.keyCount = pattern.covered.ncard ↔ ∃ width, Frees pattern.mask width) := by
  refine ⟨pattern.ncard_covered, pattern.ncard_covered_le, ?_⟩
  rw [ncard_covered]
  constructor
  · intro same
    have small : (freePlaces pattern.mask).card ≤ 32 := Finset.card_le_univ _
    exact ⟨_, pattern.frees_of_keyCount_eq same small⟩
  · rintro ⟨width, frees⟩
    rw [keyCount_eq frees, frees.card_freePlaces]

/-- Of a mask that frees the second bit alone, three keys are counted. -/
example : (⟨0, 0xFFFFFFFD⟩ : Pattern).keyCount = 3 ∧ freePlaces 0xFFFFFFFD = {1} := by decide

end Pattern

end MeshControl.Key
