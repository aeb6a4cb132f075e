-- SUMMARY: The events that lifting tells, with their levels and words.
import WitnessLift.CheckResult
import WitnessLift.Storage.Error

/-!
# Log

What is worth telling while a witness is lifted, and how important it is.
-/

namespace WitnessLift

/-- How important an event is. -/
inductive Level where
  | debug
  | info
  | warn
  deriving DecidableEq, Repr

/-- Something that happened. -/
inductive Event where
  /-- A layout was built, with this many variables, bits and states without an initial value. -/
  | layoutBuilt (inputs states inputWidth stateWidth uninitialized : Nat)
  /-- The first line of a witness is none of the known ones. -/
  | unknownHeader (word : String)
  /-- A witness reports something other than a counterexample. -/
  | noCounterexample (result : CheckResult)
  /-- A witness was read to its end. -/
  | framesLifted (frames : Nat)
  /-- The checker reported something other than a counterexample. -/
  | nothingToLift (result : CheckResult)
  /-- One file is about to be made from another. -/
  | lifting (source target : String)
  /-- A lifted witness is in place. -/
  | written (frames : Nat) (target : String)
  /-- A file that should not stay could not be removed. -/
  | removeFailed (path : String) (cause : StorageError)
  deriving DecidableEq, Repr

/-- The importance of an event. -/
def Event.level : Event → Level
  | .layoutBuilt .. => .debug
  | .unknownHeader _ => .warn
  | .noCounterexample _ => .info
  | .framesLifted _ => .debug
  | .nothingToLift _ => .info
  | .lifting .. => .info
  | .written .. => .info
  | .removeFailed .. => .warn

/-- The words for an event. -/
def Event.message : Event → String
  | .layoutBuilt inputs states inputWidth stateWidth uninitialized =>
    s!"bit layout: {inputs} inputs and {states} states, {inputWidth} input bits, "
      ++ s!"{stateWidth} state bits, {uninitialized} uninitialized"
  | .unknownHeader word => "unrecognized witness header `" ++ word ++ "`"
  | .noCounterexample result => s!"witness reports {result.name}, nothing to translate"
  | .framesLifted frames => s!"translated {frames} frame(s)"
  | .nothingToLift result => s!"checker reported {result.name}, no witness to lift"
  | .lifting source target => "lifting " ++ source ++ " to " ++ target
  | .written frames target => s!"wrote {frames} frame(s) to " ++ target
  | .removeFailed path cause => "failed to remove " ++ path ++ ": " ++ cause.message

/-- A value and the events on the way to it, in order. -/
structure Logged (α : Type) where
  value : α
  log : List Event

end WitnessLift
