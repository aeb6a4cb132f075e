-- SUMMARY: Lifting the trace in a file to a witness in a file, by way of a scratch file.
import WitnessLift.Layout.Build
import WitnessLift.Lift.Run
import WitnessLift.Storage.FileStore

/-!
# Lifting files

A witness is written beside its place and moved there when it is complete, so that an unfinished
one never stands in its place. Where a trace yields no witness, one from an earlier run is removed.
-/

namespace WitnessLift

/-- Why no witness was made, and which file is at fault. -/
inductive LiftError where
  | model (path : Path) (cause : ModelError)
  | trace (path : Path) (cause : TraceError)
  | storage (path : Path) (cause : StorageError)
  deriving DecidableEq, Repr

/-- The words for an error. -/
def LiftError.message : LiftError → String
  | .model path cause => path.text ++ ": " ++ cause.message
  | .trace path cause => path.text ++ ": " ++ cause.message
  | .storage path cause => path.text ++ ": " ++ cause.message

open FileStore

variable [Monad m] [FileStore m Source Target]

/-- Blames a path for a failed file operation. -/
def blame (path : Path) (action : m (Except StorageError α)) : ExceptT LiftError m α :=
  ExceptT.mk do
    match ← action with
    | .ok a => return .ok a
    | .error cause => return .error (.storage path cause)

/-- The layout of the model in a file. -/
def loadLayout (model : Path) : ExceptT LiftError m Layout :=
  ExceptT.mk do
    match ← readText model with
    | .error cause => return .error (.model model (.unreadable cause))
    | .ok text =>
      let built := Layout.ofText text
      tellAll built.log
      match built.value with
      | .ok layout => return .ok layout
      | .error cause => return .error (.model model cause)

/-- Lifts an open trace into an open file. The witness is held back until the trace is read, so that
a fault of the trace comes before one of the file. A writer with a bounded buffer has the same order
for every witness that fits into the buffer; of a longer one it may meet the fault of the file
first. -/
def transfer (layout : Layout) (names : Bool) (source : Source) (target : Target) :
    m (Except TraceError (Option Nat)) := do
  match ← read source with
  | .error cause => return .error (.storage cause)
  | .ok bytes =>
    let r := layout.lift bytes
    tellAll r.log
    let written ← write target (Text.encode (WitnessLine.text names r.sink.toList).toList)
    return r.result <* written.mapError .storage

/-- Removes a file that should not stay. If that fails, it is only told. -/
def sweep (path : Path) : m Unit := do
  match ← removeStale path with
  | .ok () => return ()
  | .error cause => tell (.removeFailed path.text cause)

/-- What is done with the scratch file, given what the trace came to: a whole witness is moved into
place, and else nothing is left. -/
def settle (trace target : Path) :
    Except TraceError (Option Nat) → ExceptT LiftError m (Option Nat)
  | .ok (some frames) => do
    blame target (rename target.scratch target)
    tell (m := m) (.written frames target.text)
    return some frames
  | .ok none => do
    blame target.scratch (remove target.scratch)
    blame target (removeStale target)
    return none
  | .error cause => do
    sweep (m := m) target.scratch
    sweep (m := m) target
    throw (.trace trace cause)

/-- Lifts the trace in one file to a witness in another: the number of its frames, or none if the
trace reports no counterexample. -/
def liftFile (layout : Layout) (names : Bool) (trace target : Path) :
    ExceptT LiftError m (Option Nat) := do
  let source ← blame trace (openFile trace)
  let scratch ← blame target.scratch (create target.scratch)
  settle trace target (← transfer (m := m) layout names source scratch)

/-- Lifts the trace of a model in a directory, given what the checker reported: the path of the
witness, or none if there is no counterexample. -/
def liftWitness (names : Bool) (result : CheckResult) (model directory : Path) :
    ExceptT LiftError m (Option Path) := do
  if result.isCounterexample then
    let layout ← loadLayout model
    let trace := model.trace directory
    let target := model.witness directory
    tell (m := m) (.lifting trace.text target.text)
    let frames ← liftFile layout names trace target
    return frames.map fun _ => target
  else
    tell (m := m) (.nothingToLift result)
    return none

end WitnessLift
