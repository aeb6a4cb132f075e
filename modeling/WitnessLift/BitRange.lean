-- SUMMARY: Ranges of positions in a line of bits, their widths, and cutting them out.
import WitnessLift.Text.Utf8

/-!
# Bit ranges

A range of positions within one line of bits, its end excluded.
-/

namespace WitnessLift

/-- The positions from `start` up to, but not including, `stop`. -/
structure BitRange where
  start : Nat
  stop : Nat
  deriving DecidableEq, Repr

namespace BitRange

/-- The number of positions in a range. -/
def width (r : BitRange) : Nat := r.stop - r.start

/-- Whether two ranges share a position, provided that neither is empty. -/
def overlaps (r s : BitRange) : Bool :=
  r.start < s.stop && s.start < r.stop

/-- The range of `width` positions from `start` on. -/
def ofWidth (start width : Nat) : BitRange := ⟨start, start + width⟩

/-- The elements of a line at the positions of a range, if the line holds all of them. -/
def cut? (r : BitRange) (line : Array α) : Option (Array α) :=
  if r.start ≤ r.stop ∧ r.stop ≤ line.size then some (line.extract r.start r.stop) else none

/-- The part of a text between two byte offsets, if both stand between characters of it. -/
def text? (r : BitRange) (line : List Char) : Option (List Char) :=
  if r.start ≤ r.stop then
    (Text.dropBytes? r.start line).bind (Text.takeBytes? (r.stop - r.start))
  else none

@[simp] theorem width_ofWidth (start width : Nat) : (ofWidth start width).width = width := by
  simp [ofWidth, BitRange.width]

theorem cut?_eq_some_iff {r : BitRange} {line part : Array α} :
    r.cut? line = some part ↔
      r.start ≤ r.stop ∧ r.stop ≤ line.size ∧ line.extract r.start r.stop = part := by
  unfold cut?
  split
  · next h => simp [h]
  · next h =>
    simp only [reduceCtorEq, false_iff]
    exact fun h' => h ⟨h'.1, h'.2.1⟩

end BitRange

end WitnessLift
