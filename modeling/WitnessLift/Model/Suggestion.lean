-- SUMMARY: Alignment scores and the operations suggested for an unknown one.
import WitnessLift.Model.Operation

/-!
# Suggestions for an unknown operation

A name is suggested for a misspelt one if it contains the misspelt one's characters in order. The
names are ranked by the score of their best alignment: each matched character counts, a match at
the start of the name or next to the previous match counts more, and a gap counts against.
-/

namespace WitnessLift.Suggestion

/-- Where the characters of `word` occur in `name`, each as far left as the one before it allows;
`none` if they do not occur in this order. Positions count from `pos`. -/
def leftmost? (pos : Nat) : (word name : List Char) → Option (List Nat)
  | [], _ => some []
  | _ :: _, [] => none
  | c :: word, d :: name =>
    if c = d then (leftmost? (pos + 1) word name).map (pos :: ·)
    else leftmost? (pos + 1) (c :: word) name

/-! ## Alignment scores -/

/-- One row of the alignment table, a column for each position behind a character of the name:
the best score that ends in a match, the best score that ends in a gap, and the bonus that a match
in the next column inherits. -/
structure Row where
  hit : List Int
  gap : List Int
  bonus : List Int

/-- A score below every alignment. -/
def unreachable : Int := -32768

/-- The bonus of a match with the first character of the name. -/
def startBonus (column : Nat) : Int := if column = 1 then 16 else 0

/-- A row of `size` columns before anything is aligned. -/
def Row.blank (size : Nat) (gap : Int) : Row where
  hit := List.replicate size unreachable
  gap := List.replicate size gap
  bonus := List.replicate size 0

/-- Fills one column of `row` for the character `c`, given the row of the character before it. -/
def Row.fill (name : List Char) (c : Char) (before : Row) (row : Row) (column : Nat) : Row :=
  let left := column - 1
  let start := startBonus column
  let aligned :=
    if name[left]? = some c then
      let inherited := max (max (row.bonus.getD left 0) start) 4
      let extended := before.hit.getD left 0 + inherited
      let resumed := before.gap.getD left 0 + start
      { row with
        bonus := row.bonus.set left inherited
        hit := row.hit.set column (16 + max extended resumed) }
    else
      { row with hit := row.hit.set column unreachable, bonus := row.bonus.set column 0 }
  let opened := aligned.hit.getD left 0 - 4
  let widened := aligned.gap.getD left 0 - 1
  { aligned with gap := aligned.gap.set column (max opened widened) }

/-- The columns behind position `pos` of the name. -/
def columnsFrom (name : List Char) (pos : Nat) : List Nat :=
  List.range' (pos + 1) (name.length - pos)

/-- Aligns the characters of a word one by one. Two rows serve in turn, and what a row holds to the
left of its first filled column is left over from two characters ago. -/
def align (name : List Char) : List (Char × Nat) → Row → Row → Row
  | [], before, _ => before
  | (c, pos) :: rest, before, row =>
    align name rest ((columnsFrom name pos).foldl (Row.fill name c before) row) before

/-- The score of `word` against `name`; `none` if `name` does not contain its characters in this
order. -/
def score? (name word : List Char) : Option Int :=
  (leftmost? 0 word name).map fun positions =>
    let size := name.length + 1
    let last := align name (word.zip positions) (Row.blank size (-1)) (Row.blank size unreachable)
    let first := positions.getLastD 0
    ((last.hit.drop first).take (size - first)).foldl max unreachable

/-! ## Ranking -/

/-- A way to match words with names: the score of `word` against `name`, or none if they do not
match. -/
abbrev Matcher := (name word : List Char) → Option Int

/-- Every operation that matches `word`, with its score. -/
def candidates (score : Matcher) (word : List Char) : List (String × Int) :=
  Operation.all.filterMap fun name => (score name.toList word).map (name, ·)

/-- At most five operations that match a word: highest scores first, equal scores in the order of
the operations. -/
def suggestBy (score : Matcher) (word : List Char) : List String :=
  (((candidates score word).mergeSort fun a b => b.2 ≤ a.2).take 5).map (·.1)

/-- What is suggested for a misspelt operation. -/
def suggest (word : List Char) : List String := suggestBy score? word

end WitnessLift.Suggestion
