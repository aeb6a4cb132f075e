-- SUMMARY: The errors of a model, with their places and messages.
import WitnessLift.Model.Declaration
import WitnessLift.Storage.Error

/-!
# Model errors

Why a model has no bit layout: a line that is not well formed, a reference that leads nowhere, or a
file that cannot be read.
-/

namespace WitnessLift

/-! ## Syntax -/

/-- What is wrong with a line. -/
inductive SyntaxFault where
  | idExpected
  | operationExpected
  | tooFewTokens (operation : String) (needed given : Nat)
  | sortKindExpected (found : String)
  | widthExpected
  | unknownOperation (found : String) (suggestions : List String)
  deriving DecidableEq, Repr

/-- The words for a fault. -/
def SyntaxFault.message : SyntaxFault → String
  | .idExpected => "Expected valid non-negative integer ID."
  | .operationExpected => "No operation after ID."
  | .tooFewTokens operation needed given =>
    s!"{operation} requires at least {needed} tokens, only {given} provided"
  | .sortKindExpected found => "Expected `bitvec` or `array`. Not `" ++ found ++ "`."
  | .widthExpected =>
    "Not a valid bit-vector width. An integer between 1 and 4294967295 is required!"
  | .unknownOperation found [] => "Invalid op " ++ found ++ "."
  | .unknownOperation found suggestions =>
    "Invalid op " ++ found ++ ". Did you mean: " ++ ", ".intercalate suggestions ++ "?"

/-- A fault and the bytes of its line that it is about. -/
structure LineFault where
  fault : SyntaxFault
  start : Nat
  stop : Nat
  deriving DecidableEq, Repr

/-- A fault with its place in the text: the number of its line, from 1, and its bytes. -/
structure SyntaxError where
  fault : SyntaxFault
  line : Nat
  start : Nat
  stop : Nat
  deriving DecidableEq, Repr

/-! ## Models -/

/-- Why a model has no layout. `id` is the declaration at fault. -/
inductive ModelError where
  | malformed (errors : List SyntaxError)
  | undeclaredSort (id sort : Id)
  | unknownState (id target : Id)
  | arraySort (id sort : Id)
  | duplicateId (id : Id)
  | unreadable (cause : StorageError)
  deriving DecidableEq, Repr

/-- The first syntax error, and how many follow it. -/
def SyntaxError.summary : List SyntaxError → String
  | [] => "unknown error"
  | [e] => s!"line {e.line}: {e.fault.message}"
  | e :: more => s!"line {e.line}: {e.fault.message} (and {more.length} more)"

/-- The words for a model error. -/
def ModelError.message : ModelError → String
  | .malformed errors => "failed to parse btor2 model: " ++ SyntaxError.summary errors
  | .undeclaredSort id sort => s!"[{id}] sort `{sort}` was not declared before its use"
  | .unknownState id target => s!"[{id}] `{target}` does not point to a valid state"
  | .arraySort id sort =>
    s!"[{id}] sort `{sort}` is an array, only array-free models can be flattened"
  | .duplicateId id => s!"[{id}] declared more than once"
  | .unreadable cause => cause.message

end WitnessLift
