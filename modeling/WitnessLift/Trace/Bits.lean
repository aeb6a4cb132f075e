-- SUMMARY: Reading and rendering lines of bits.
/-!
# Lines of bits

A trace spells a bit `0` or `1`, and `x` where either value will do. The value `0` is taken then.
-/

namespace WitnessLift

/-- The values on a line, in the order of their positions. -/
abbrev Bits := Array Bool

namespace Bits

/-- Whether a character spells a bit. -/
def isBit (c : Char) : Bool := c == '0' || c == '1' || c == 'x'

/-- The first character that spells no bit, with its column. -/
def invalid? (column : Nat) : List Char → Option (Nat × Char)
  | [] => none
  | c :: rest => if isBit c then invalid? (column + 1) rest else some (column, c)

/-- The bits of a line, or the first character that is none. Columns count from 1. -/
def ofLine (line : List Char) : Except (Nat × Char) Bits :=
  match invalid? 1 line with
  | some found => .error found
  | none => .ok (line.map (· == '1')).toArray

/-- The text of a value. -/
def render (bits : Bits) : String :=
  String.ofList (bits.toList.map fun bit => if bit then '1' else '0')

end Bits

end WitnessLift
