/-!
# Numerals in fixed columns

Reports show numbers in hexadecimal with leading zeros and in columns of a fixed width. A
text that is wider than its column is never cut.
-/

namespace MeshControl.Text

/-- Fill `text` up to `width` characters from the left. -/
def padLeft (fill : Char) (width : Nat) (text : String) : String :=
  "".pushn fill (width - text.length) ++ text

/-- Lower-case hexadecimal digits, at least `width` of them. -/
def hex (width n : Nat) : String := padLeft '0' width (String.ofList (Nat.toDigits 16 n))

/-- Upper-case hexadecimal digits, at least `width` of them. -/
def hexUpper (width n : Nat) : String := (hex width n).toUpper

/-- A number in a column of `width` characters. -/
def column (width n : Nat) : String := padLeft ' ' width (toString n)

end MeshControl.Text
