import Mathlib.Data.Nat.Bitwise
import MeshControl.Region.Basic
import MeshControl.Spec.Word

/-!
# The fields of a command word

A command word is a sum of fields with a place value each (`toNat_commandWord`), so that a
field reads back by division. The fields of one kind of command do not overlap: what is packed
for a reservation, a change of focus or a write is what the readers of that command return.
-/

namespace MeshControl.Spec

theorem toNat_and_fields (word : UInt32) : (word &&& 0xFFFFF).toNat = word.toNat % 2 ^ 20 := by
  rw [UInt32.toNat_and]
  exact Nat.and_two_pow_sub_one_eq_mod word.toNat 20

/-- **The place values of a command word.** -/
theorem toNat_commandWord (opcode operands : UInt8) (fields : UInt32) :
    (commandWord opcode operands fields).toNat =
      operands.toNat % 2 ^ 4 * 2 ^ 28 + opcode.toNat * 2 ^ 20 + fields.toNat % 2 ^ 20 := by
  have lowFields : fields.toNat % 2 ^ 20 < 2 ^ 20 := Nat.mod_lt _ (by omega)
  have code := opcode.toNat_lt
  have count : operands.toNat % 2 ^ 4 < 2 ^ 4 := Nat.mod_lt _ (by omega)
  have high : ((operands.toUInt32 &&& 0xF) <<< 28 : UInt32).toNat =
      (operands.toNat % 2 ^ 4) <<< 28 := by
    rw [UInt32.toNat_shiftLeft, UInt32.toNat_and]
    have : operands.toUInt32.toNat &&& (0xF : UInt32).toNat = operands.toNat % 2 ^ 4 :=
      Nat.and_two_pow_sub_one_eq_mod operands.toNat 4
    rw [this]
    apply Nat.mod_eq_of_lt
    rw [show (28 : UInt32).toNat % 32 = 28 from rfl, Nat.shiftLeft_eq]
    omega
  have middle : (opcode.toUInt32 <<< 20 : UInt32).toNat = opcode.toNat <<< 20 := by
    rw [UInt32.toNat_shiftLeft]
    apply Nat.mod_eq_of_lt
    rw [show (20 : UInt32).toNat % 32 = 20 from rfl, Nat.shiftLeft_eq]
    rw [UInt8.toNat_toUInt32]
    omega
  rw [commandWord, UInt32.toNat_or, UInt32.toNat_or, high, middle, toNat_and_fields,
    Nat.or_assoc, ← Nat.shiftLeft_add_eq_or_of_lt lowFields,
    ← Nat.shiftLeft_add_eq_or_of_lt (by rw [Nat.shiftLeft_eq]; omega)]
  simp only [Nat.shiftLeft_eq]
  omega

theorem toNat_opcodeOf (word : UInt32) : (opcodeOf word).toNat = word.toNat / 2 ^ 20 % 2 ^ 8 := by
  rw [opcodeOf, UInt32.toNat_toUInt8, UInt32.toNat_and, UInt32.toNat_shiftRight]
  have : word.toNat >>> ((20 : UInt32).toNat % 32) &&& (0xFF : UInt32).toNat =
      word.toNat >>> 20 % 2 ^ 8 := Nat.and_two_pow_sub_one_eq_mod _ 8
  rw [this, Nat.shiftRight_eq_div_pow]
  omega

theorem toNat_operandsOf (word : UInt32) : (operandsOf word).toNat = word.toNat / 2 ^ 28 := by
  have bound := word.toNat_lt
  rw [operandsOf, UInt32.toNat_toUInt8, UInt32.toNat_and, UInt32.toNat_shiftRight]
  have : word.toNat >>> ((28 : UInt32).toNat % 32) &&& (0xF : UInt32).toNat =
      word.toNat >>> 28 % 2 ^ 4 := Nat.and_two_pow_sub_one_eq_mod _ 4
  rw [this, Nat.shiftRight_eq_div_pow]
  omega

theorem toNat_reservedRegionOf (word : UInt32) :
    (reservedRegionOf word).toNat = word.toNat % 2 ^ 5 := by
  rw [reservedRegionOf, UInt32.toNat_toUInt8, UInt32.toNat_and]
  have : word.toNat &&& (0x1F : UInt32).toNat = word.toNat % 2 ^ 5 :=
    Nat.and_two_pow_sub_one_eq_mod _ 5
  omega

theorem toNat_focusOf (word : UInt32) : (focusOf word).toNat = word.toNat / 2 ^ 8 % 2 ^ 4 := by
  rw [focusOf, UInt32.toNat_toUInt8, UInt32.toNat_and, UInt32.toNat_shiftRight]
  have : word.toNat >>> ((8 : UInt32).toNat % 32) &&& (0xF : UInt32).toNat =
      word.toNat >>> 8 % 2 ^ 4 := Nat.and_two_pow_sub_one_eq_mod _ 4
  rw [this, Nat.shiftRight_eq_div_pow]
  omega

theorem toNat_widthCodeOf (word : UInt32) :
    (widthCodeOf word).toNat = word.toNat / 2 ^ 12 % 2 ^ 2 := by
  rw [widthCodeOf, UInt32.toNat_and, UInt32.toNat_shiftRight]
  have : word.toNat >>> ((12 : UInt32).toNat % 32) &&& (0x3 : UInt32).toNat =
      word.toNat >>> 12 % 2 ^ 2 := Nat.and_two_pow_sub_one_eq_mod _ 2
  rw [this, Nat.shiftRight_eq_div_pow]

theorem toNat_repeatsOf (word : UInt32) : (repeatsOf word).toNat = word.toNat % 2 ^ 8 := by
  rw [repeatsOf, UInt32.toNat_toUInt8, UInt32.toNat_and]
  have : word.toNat &&& (0xFF : UInt32).toNat = word.toNat % 2 ^ 8 :=
    Nat.and_two_pow_sub_one_eq_mod _ 8
  omega

theorem unfilledOf_eq (word : UInt32) :
    unfilledOf word = decide (word.toNat / 2 ^ 7 % 2 = 1) := by
  have flag : (word &&& unfilledFlag).toNat = (word.toNat.testBit 7).toNat * 2 ^ 7 := by
    rw [UInt32.toNat_and, ← Nat.and_two_pow word.toNat 7]
    rfl
  rw [unfilledOf, ← Nat.testBit_eq_decide_div_mod_eq]
  cases bit : word.toNat.testBit 7 with
  | false =>
    rw [bit] at flag
    have clear : word &&& unfilledFlag = 0 := UInt32.toNat_inj.1 flag
    rw [clear]
    rfl
  | true =>
    rw [bit] at flag
    have set : word &&& unfilledFlag = 128 := UInt32.toNat_inj.1 flag
    rw [set]
    rfl

/-! ## Fields that read back -/

@[simp] theorem opcodeOf_commandWord (opcode operands : UInt8) (fields : UInt32) :
    opcodeOf (commandWord opcode operands fields) = opcode := by
  apply UInt8.toNat_inj.1
  have code := opcode.toNat_lt
  rw [toNat_opcodeOf, toNat_commandWord]
  omega

theorem operandsOf_commandWord (opcode : UInt8) {operands : UInt8} (fields : UInt32)
    (few : operands.toNat < 2 ^ 4) :
    operandsOf (commandWord opcode operands fields) = operands := by
  apply UInt8.toNat_inj.1
  have code := opcode.toNat_lt
  rw [toNat_operandsOf, toNat_commandWord]
  omega

theorem toNat_reservation {region : RegionId} (unfilled : Bool) (declarable : region.toNat < 16) :
    ((if unfilled then unfilledFlag else 0) ||| region.toUInt32).toNat =
      unfilled.toNat * 2 ^ 7 + region.toNat := by
  have flag : (if unfilled then unfilledFlag else 0 : UInt32).toNat = unfilled.toNat <<< 7 := by
    cases unfilled <;> rfl
  rw [UInt32.toNat_or, flag, UInt8.toNat_toUInt32,
    ← Nat.shiftLeft_add_eq_or_of_lt (by omega), Nat.shiftLeft_eq]

theorem toNat_writing (width : Width) (repeats : UInt8) :
    ((width.code <<< 12) ||| repeats.toUInt32).toNat =
      width.code.toNat * 2 ^ 12 + repeats.toNat := by
  have count := repeats.toNat_lt
  have code : (width.code <<< 12).toNat = width.code.toNat <<< 12 := by
    cases width <;> rfl
  rw [UInt32.toNat_or, code, UInt8.toNat_toUInt32,
    ← Nat.shiftLeft_add_eq_or_of_lt (by omega), Nat.shiftLeft_eq]

/-- The word of a reservation names its region. -/
theorem reservedRegionOf_reserve (opcode operands : UInt8) {region : RegionId} (unfilled : Bool)
    (declarable : region.toNat < 16) :
    reservedRegionOf (commandWord opcode operands
      ((if unfilled then unfilledFlag else 0) ||| region.toUInt32)) = region := by
  apply UInt8.toNat_inj.1
  have flag := unfilled.toNat_le
  rw [toNat_reservedRegionOf, toNat_commandWord, toNat_reservation unfilled declarable]
  omega

/-- The word of a reservation keeps its flag. -/
theorem unfilledOf_reserve (opcode operands : UInt8) {region : RegionId} (unfilled : Bool)
    (declarable : region.toNat < 16) :
    unfilledOf (commandWord opcode operands
      ((if unfilled then unfilledFlag else 0) ||| region.toUInt32)) = unfilled := by
  rw [unfilledOf_eq, toNat_commandWord, toNat_reservation unfilled declarable]
  cases unfilled with
  | false => exact decide_eq_false (by rw [Bool.toNat_false]; omega)
  | true => exact decide_eq_true (by rw [Bool.toNat_true]; omega)

/-- The word of a change of focus names its region. -/
theorem focusOf_focus (opcode operands : UInt8) {region : RegionId}
    (declarable : region.toNat < 16) :
    focusOf (commandWord opcode operands (region.toUInt32 <<< 8)) = region := by
  apply UInt8.toNat_inj.1
  have place : (region.toUInt32 <<< 8).toNat = region.toNat * 2 ^ 8 := by
    rw [UInt32.toNat_shiftLeft, UInt8.toNat_toUInt32, Nat.shiftLeft_eq]
    exact Nat.mod_eq_of_lt (by rw [show (8 : UInt32).toNat % 32 = 8 from rfl]; omega)
  rw [toNat_focusOf, toNat_commandWord, place]
  omega

/-- The word of a write keeps its width. -/
theorem widthCodeOf_write (opcode operands : UInt8) (width : Width) (repeats : UInt8) :
    widthCodeOf (commandWord opcode operands ((width.code <<< 12) ||| repeats.toUInt32)) =
      width.code := by
  apply UInt32.toNat_inj.1
  have count := repeats.toNat_lt
  have code : width.code.toNat < 3 := by cases width <;> decide
  rw [toNat_widthCodeOf, toNat_commandWord, toNat_writing]
  omega

/-- The word of a write keeps its repeat count. -/
theorem repeatsOf_write (opcode operands : UInt8) (width : Width) (repeats : UInt8) :
    repeatsOf (commandWord opcode operands ((width.code <<< 12) ||| repeats.toUInt32)) =
      repeats := by
  apply UInt8.toNat_inj.1
  have count := repeats.toNat_lt
  have code : width.code.toNat < 3 := by cases width <;> decide
  rw [toNat_repeatsOf, toNat_commandWord, toNat_writing]
  omega

@[simp] theorem Opcode.ofCode?_code (opcode : Opcode) : ofCode? opcode.code = some opcode := by
  cases opcode <;> rfl

@[simp] theorem Width.ofCode?_code (width : Width) : ofCode? width.code = some width := by
  cases width <;> rfl

end MeshControl.Spec
