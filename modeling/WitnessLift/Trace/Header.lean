-- SUMMARY: The result that the header of a trace reports.
import WitnessLift.Log

/-!
# Header of a trace

The first line of a trace reports the result of the checker. A line that is none of the known ones
reports nothing definite, and is worth a warning.
-/

namespace WitnessLift

/-- The result that the first line of a trace reports. -/
def CheckResult.ofHeader (line : List Char) : Logged CheckResult :=
  match ofHeader? line with
  | some result => ⟨result, []⟩
  | none => ⟨.unknown, [.unknownHeader (String.ofList (Text.trim line))]⟩

end WitnessLift
