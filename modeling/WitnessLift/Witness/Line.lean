-- SUMMARY: The lines of a witness and their text.
import WitnessLift.Layout.Basic
import WitnessLift.Text.Utf8
import WitnessLift.Trace.Bits

/-!
# Lines of a witness

A witness begins with a status and a property. Each frame has a section for the states and one for
the inputs, and each section assigns values to variables by their index. A full stop ends it.
-/

namespace WitnessLift

/-- One line of a witness. An assignment knows the section that it stands in and the name of its
variable. -/
inductive WitnessLine where
  | status
  | property
  | heading (space : BitSpace) (frame : Nat)
  | assignment (space : BitSpace) (frame index : Nat) (value : Bits) (name : Option String)
  | stop
  deriving DecidableEq, Repr

namespace WitnessLine

/-- The mark of a section: `#` for states and `@` for inputs, and the number of the frame. -/
def mark : BitSpace → Nat → String
  | .state, frame => s!"#{frame}"
  | .input, frame => s!"@{frame}"

/-- The name of a variable with the mark of its section, as it stands behind a value. -/
def label (names : Bool) (space : BitSpace) (frame : Nat) : Option String → String
  | some name => if names then " " ++ name ++ mark space frame else ""
  | none => ""

/-- The text of a line. Names are given only on request. -/
def render (names : Bool) : WitnessLine → String
  | .status => "sat"
  | .property => "b0"
  | .heading space frame => mark space frame
  | .assignment space frame index value name =>
    s!"{index} {value.render}" ++ label names space frame name
  | .stop => "."

/-- The text of a witness: each line with a line feed behind it. -/
def text (names : Bool) (lines : List WitnessLine) : String :=
  String.join (lines.map fun line => line.render names ++ "\n")

/-- The bytes of a line and its line feed. -/
def bytes (names : Bool) (line : WitnessLine) : Text.Bytes :=
  Text.encode (line.render names ++ "\n").toList

end WitnessLine

end WitnessLift
