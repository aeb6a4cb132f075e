-- SUMMARY: The errors of a trace, with their lines and messages.
import WitnessLift.BitRange
import WitnessLift.Model.Declaration
import WitnessLift.Storage.Error

/-!
# Trace errors

Why a trace does not fit the layout of a model. Lines count from 1.
-/

namespace WitnessLift

/-- The lines of a trace by their place: a header, a property, the initial values that the model
leaves open, and for each frame a line of latches and a line of inputs. -/
inductive LineKind where
  | header
  | property
  | init
  | latches
  | inputs
  deriving DecidableEq, Repr

/-- The words for what is awaited. -/
def LineKind.words : LineKind → String
  | .header => "the witness header"
  | .property => "the property line"
  | .init => "the initialization line"
  | .latches => "a latch line or `.`"
  | .inputs => "an input line"

/-- What is wrong with a trace. A line of `actual` bits is too short for the bits of variable `id`;
the trace ends after `line` lines; a frame has latches and no inputs; a character is no bit; the
trace cannot be read or the witness not be written; or a value reaches beyond a line that was
found to be long enough, which no run brings about. -/
inductive TraceError where
  | lineTooShort (line : Nat) (id : Id) (range : BitRange) (actual : Nat)
  | unexpectedEnd (line : Nat) (expected : LineKind)
  | incompleteFrame (line frame : Nat)
  | invalidBit (line column : Nat) (found : Char)
  | storage (cause : StorageError)
  | outOfRange (range : BitRange)
  deriving DecidableEq, Repr

/-- The words for a trace error. -/
def TraceError.message : TraceError → String
  | .lineTooShort line id range actual =>
    s!"line {line}: `{id}` needs bits [{range.start}, {range.stop}), "
      ++ s!"but the line only has {actual} bits"
  | .unexpectedEnd line expected =>
    s!"line {line}: trace ended while waiting for {expected.words}"
  | .incompleteFrame line frame => s!"line {line}: frame {frame} is missing its input line"
  | .invalidBit line column found =>
    s!"line {line}, column {column}: `{found}` is not a valid bit (expected 0, 1 or x)"
  | .storage cause => cause.message
  | .outOfRange range => s!"bits [{range.start}, {range.stop}) are missing"

end WitnessLift
