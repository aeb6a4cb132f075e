-- SUMMARY: Reading 32-bit numerals.
/-!
# Numerals

A numeral is a non-empty row of ASCII digits, leading zeros included, with at most one `+` before
it. Ids and widths are numerals below `2 ^ 32`.
-/

namespace WitnessLift.Text

/-- The number that a row of digits denotes. -/
def digits? (s : List Char) : Option Nat :=
  if s ≠ [] ∧ s.all Char.isDigit then some (Nat.ofDigitChars 10 s 0) else none

/-- A numeral without its sign. -/
def unsigned : List Char → List Char
  | '+' :: s => s
  | s => s

/-- The 32-bit number that a numeral denotes. -/
def word? (s : List Char) : Option UInt32 :=
  (digits? (unsigned s)).bind fun n =>
    if n < UInt32.size then some (UInt32.ofNat n) else none

end WitnessLift.Text
