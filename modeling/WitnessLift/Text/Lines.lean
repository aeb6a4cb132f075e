-- SUMMARY: Splitting bytes and texts into lines.
import WitnessLift.Text.Utf8

/-!
# Lines

A line ends behind each line feed, and a carriage return directly before the line feed belongs to
the end of the line. Nothing follows a final line feed, and a last line without one keeps its
carriage return.
-/

namespace WitnessLift.Text

/-- The pieces of a sequence, cut behind every occurrence of `stop`. Joined they give it back. -/
def pieces [BEq α] (stop : α) (s : List α) : List (List α) :=
  s.splitBy fun a _ => a != stop

/-- A line without its end. -/
def chomp (line : List Char) : List Char :=
  if line.getLast? = some '\n' then
    let body := line.dropLast
    if body.getLast? = some '\r' then body.dropLast else body
  else line

/-- The lines of a text, without their ends. -/
def lines (s : List Char) : List (List Char) :=
  (pieces '\n' s).map chomp

/-- The lines of a file; `none` stands for a line that is not UTF-8. -/
def lines? (bytes : Bytes) : List (Option (List Char)) :=
  (pieces '\n'.toUInt8 bytes).map fun line => (decode line).map chomp

end WitnessLift.Text
