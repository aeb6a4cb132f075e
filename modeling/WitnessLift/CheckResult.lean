-- SUMMARY: The results of a model checker, as read from its output and from the header of a trace.
import WitnessLift.Text.Blank
import WitnessLift.Text.Lines

/-!
# Results of a model checker

A checker proves that no bad state can be reached, finds a way to one, or gives up. It says so in
the last line of its output and in the first line of the witness that it writes.
-/

namespace WitnessLift

/-- The outcome of a checker run. -/
inductive CheckResult where
  | safe
  | violated
  | unknown
  deriving DecidableEq, Repr

namespace CheckResult

/-- The word for a result. -/
def name : CheckResult → String
  | .safe => "Safe"
  | .violated => "Unsafe"
  | .unknown => "Unknown"

/-- Whether a result comes with a counterexample. -/
def isCounterexample (r : CheckResult) : Bool := r == .violated

/-- The last line of a text that is not blank, freed of the blanks around it. -/
def lastLine? (text : List Char) : Option (List Char) :=
  ((Text.lines text).map Text.trim).findRev? fun line => !line.isEmpty

/-- The result that a checker's output reports in its last line that is not blank. -/
def ofOutput (text : List Char) : CheckResult :=
  match lastLine? text with
  | none => .unknown
  | some line =>
    let word := String.ofList line
    if word = "Unsafe" then .violated
    else if word = "Safe" then .safe
    else .unknown

/-- The result that the first line of a witness reports, if it is a known one. -/
def ofHeader? (line : List Char) : Option CheckResult :=
  let word := String.ofList (Text.trim line)
  if word = "0" ∨ word = "unsat" then some .safe
  else if word = "2" ∨ word = "unknown" then some .unknown
  else if word = "1" ∨ word = "sat" then some .violated
  else none

end CheckResult

end WitnessLift
