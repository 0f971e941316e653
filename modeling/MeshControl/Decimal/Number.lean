import MeshControl.Decimal.Shortest

/-!
# Writing and reading numbers in decimal

Numbers are written with the fewest digits that read back, never with an exponent, and whole
numbers without a point. They are read from the usual notations, with or without a point or an
exponent, and rounded to the nearest number that can be held; a tie goes to the even one.
-/

namespace MeshControl.Decimal

/-- The digits of a decimal, laid out around the point. -/
def Digits.text (decimal : Digits) : String :=
  let digits := toString decimal.digits
  if 0 ≤ decimal.exponent then digits ++ "".pushn '0' decimal.exponent.toNat
  else
    let places := (-decimal.exponent).toNat
    let padded := "".pushn '0' (places + 1 - digits.length) ++ digits
    let whole := padded.length - places
    let fraction := ((padded.toList.drop whole).reverse.dropWhile (· = '0')).reverse
    let point := if fraction.isEmpty then "" else "."
    String.ofList (padded.toList.take whole) ++ point ++ String.ofList fraction

/-- A number in decimal. -/
def text (number : Float) : String :=
  let bits := number.toBits
  let sign := if bits >>> 63 = 0 then "" else "-"
  if number.isNaN then "NaN"
  else if number.isInf then sign ++ "inf"
  else
    let binary := Binary.ofBits bits
    if binary.mantissa = 0 then sign ++ "0"
    else sign ++ (binary.shortest?.getD ⟨binary.mantissa, 0⟩).text

/-- The bits of positive infinity. -/
def infinityBits : Nat := 0x7FF0000000000000

/-- The bits of the number nearest to a positive fraction. -/
def nearestBits (numerator denominator : Nat) : Nat :=
  if numerator = 0 then 0
  else
    let estimate := max ((numerator.log2 : Int) - denominator.log2 - 53) (-1074)
    let scaled (power : Int) :=
      (numerator <<< (-power).toNat, denominator <<< power.toNat)
    let power :=
      if 1 <<< 53 ≤ (scaled estimate).1 / (scaled estimate).2 then estimate + 1 else estimate
    let (n, d) := scaled power
    let quotient := n / d
    let twice := 2 * (n % d)
    let rounded := if d < twice ∨ (twice = d ∧ quotient % 2 = 1) then quotient + 1 else quotient
    min (rounded + ((power + 1074).toNat <<< 52)) infinityBits

/-- The number nearest to `digits * 10 ^ exponent`. -/
def nearest (digits : Nat) (exponent : Int) : Float :=
  let size := (toString digits).length + exponent
  let bits :=
    if digits = 0 ∨ size < -400 then 0
    else if 400 < size then infinityBits
    else nearestBits (digits * tenTo exponent) (tenTo (-exponent))
  Float.ofBits (UInt64.ofNat bits)

/-- The value of some decimal digits. -/
def digitsValue (digits : List Char) : Nat :=
  digits.foldl (fun value c => 10 * value + (c.toNat - '0'.toNat)) 0

/-- The exponent written after the digits of a number, if what is written there is one. -/
def readExponent : List Char → Option Int
  | [] => some 0
  | mark :: rest =>
    let unsigned (digits : List Char) : Option Nat :=
      if digits ≠ [] ∧ digits.all Char.isDigit then some (digitsValue digits) else none
    if mark ≠ 'e' ∧ mark ≠ 'E' then none
    else
      match rest with
      | '-' :: digits => (unsigned digits).map fun n => -(n : Int)
      | '+' :: digits => (unsigned digits).map fun n => (n : Int)
      | digits => (unsigned digits).map fun n => (n : Int)

/-- A number without sign, written in digits. -/
def readDigits (chars : List Char) : Option Float :=
  let whole := chars.takeWhile Char.isDigit
  let rest := chars.dropWhile Char.isDigit
  let (fraction, rest) := match rest with
    | '.' :: rest => (rest.takeWhile Char.isDigit, rest.dropWhile Char.isDigit)
    | rest => ([], rest)
  if whole.isEmpty ∧ fraction.isEmpty then none
  else (readExponent rest).map fun exponent =>
    nearest (digitsValue (whole ++ fraction)) (exponent - fraction.length)

/-- A number without sign, in digits or by name. -/
def readUnsigned (chars : List Char) : Option Float :=
  let name := String.ofList (chars.map Char.toLower)
  if name = "inf" ∨ name = "infinity" then some (1.0 / 0.0)
  else if name = "nan" then some (0.0 / 0.0)
  else readDigits chars

/-- The number that a text writes. -/
def read? (text : String) : Option Float :=
  match text.toList with
  | '-' :: rest => (readUnsigned rest).map fun number => -number
  | '+' :: rest => readUnsigned rest
  | chars => readUnsigned chars

end MeshControl.Decimal
