/-!
# The fewest decimal digits that read back

A floating-point number stands for all reals that round to it. Its shortest decimal is the one
of fewest digits among those reals, and of several the nearest. `shortest?` looks for it on one
decimal grid after the other, in exact arithmetic on natural numbers.
-/

namespace MeshControl.Decimal

/-- A positive number `mantissa * 2 ^ exponent`. -/
structure Binary where
  mantissa : Nat
  exponent : Int
  /-- The gap to the next smaller number is half the gap to the next larger one. -/
  narrowBelow : Bool
  deriving DecidableEq, Repr

/-- The number that the bits of a finite value stand for, without its sign. -/
def Binary.ofBits (bits : UInt64) : Binary :=
  let biased := ((bits >>> 52) &&& 0x7FF).toNat
  let fraction := (bits &&& 0xFFFFFFFFFFFFF).toNat
  if biased = 0 then ⟨fraction, -1074, false⟩
  else ⟨(1 <<< 52) + fraction, (biased : Int) - 1075, fraction = 0 && 1 < biased⟩

/-- A decimal `digits * 10 ^ exponent`. -/
structure Digits where
  digits : Nat
  exponent : Int
  deriving DecidableEq, Repr

/-- Ten to the power of an exponent, and one if the exponent is negative. -/
def tenTo (exponent : Int) : Nat := Nat.pow 10 exponent.toNat

/-- Compare `digits * 10 ^ exponent` with `quarters * 2 ^ (power - 2)`. -/
def Digits.compareQuarters (decimal : Digits) (quarters : Nat) (power : Int) : Ordering :=
  compare ((decimal.digits * tenTo decimal.exponent) <<< (2 - power).toNat)
    ((quarters * tenTo (-decimal.exponent)) <<< (power - 2).toNat)

/-- True if a decimal rounds to a number: it lies at most halfway to the neighbours of the
number, and at halfway only if the mantissa is even. -/
def Binary.readsBack (number : Binary) (decimal : Digits) : Bool :=
  let below := 4 * number.mantissa - if number.narrowBelow then 1 else 2
  let even := number.mantissa % 2 = 0
  let low := decimal.compareQuarters below number.exponent
  let high := decimal.compareQuarters (4 * number.mantissa + 2) number.exponent
  (low = .gt || (even && low = .eq)) && (high = .lt || (even && high = .eq))

/-- The largest decimal of an exponent that is not above a number. -/
def Binary.floorAt (number : Binary) (exponent : Int) : Nat :=
  ((number.mantissa * tenTo (-exponent)) <<< number.exponent.toNat) /
    (tenTo exponent <<< (-number.exponent).toNat)

/-- True if a number is nearer to the given multiple of `10 ^ exponent` than to the next one. -/
def Binary.nearerBelow (number : Binary) (floor : Nat) (exponent : Int) : Bool :=
  Digits.compareQuarters ⟨2 * floor + 1, exponent⟩ (8 * number.mantissa) number.exponent = .gt

/-- The decimal of an exponent that rounds to a number. Of two the nearer is taken, and the
larger if both are as near. -/
def Binary.decimalAt? (number : Binary) (exponent : Int) : Option Digits :=
  let floor := number.floorAt exponent
  let below : Digits := ⟨floor, exponent⟩
  let above : Digits := ⟨floor + 1, exponent⟩
  match number.readsBack below, number.readsBack above with
  | true, true => some (if number.nearerBelow floor exponent then below else above)
  | true, false => some below
  | false, true => some above
  | false, false => none

/-- The least `k` for which a number is below `10 ^ k`. -/
def Binary.scale (number : Binary) : Int :=
  let estimate := ((number.mantissa.log2 : Int) + number.exponent) * 30103 / 100000
  let isBelow (k : Int) := Digits.compareQuarters ⟨1, k⟩ (4 * number.mantissa) number.exponent = .gt
  ([estimate - 1, estimate, estimate + 1].find? isBelow).getD (estimate + 2)

/-- The shortest decimal of a number, if one of at most seventeen digits reads back. -/
def Binary.shortest? (number : Binary) : Option Digits :=
  let scale := number.scale
  (List.range 17).findSome? fun (count : Nat) => number.decimalAt? (scale - 1 - (count : Int))

end MeshControl.Decimal
