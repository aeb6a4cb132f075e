-- SUMMARY: The stages of a trace, the move of each line, and the run over all lines.
import WitnessLift.Lift.Lifter
import WitnessLift.Lift.Sink
import WitnessLift.Text.Lines
import WitnessLift.Trace.Header

/-!
# Lifting a trace

A trace is the AIGER witness of a flattened model: a header, a property, a line of initial values,
for each frame a line of latches and a line of inputs, and a full stop. It is read line by line, and
what follows the full stop is not read. Blanks around a line do not matter.

The lifter knows which line comes next. Each line either leads on, with some lines of the witness to
write, or ends the run. A trace that reports no counterexample yields no witness at all.
-/

namespace WitnessLift

/-! ## One line -/

/-- The line that comes next, and what is remembered for it: the initial values that the trace
supplies, and the latches of the frame whose inputs are due. -/
inductive Stage where
  | header
  | property
  | init
  | latches (frame : Nat) (initial : List (Id × Bits))
  | inputs (frame : Nat) (initial : List (Id × Bits)) (latches : Bits)
  deriving DecidableEq, Repr

/-- The kind of the line that comes next. -/
def Stage.kind : Stage → LineKind
  | .header => .header
  | .property => .property
  | .init => .init
  | .latches .. => .latches
  | .inputs .. => .inputs

/-- What a line leads to: the next stage after writing some lines, the end of the witness after as
many frames, or the news that there is no counterexample. -/
inductive Move where
  | next (lines : List WitnessLine) (stage : Stage)
  | finish (frames : Nat)
  | dismiss (result : CheckResult)
  deriving DecidableEq, Repr

namespace Lifter

/-- The bits of line number `number`. -/
def bitsOf (number : Nat) (line : List Char) : Except TraceError Bits :=
  match Bits.ofLine line with
  | .ok bits => .ok bits
  | .error (column, found) => .error (.invalidBit number column found)

/-- What a line, freed of the blanks around it, leads to. -/
def step (l : Lifter) (number : Nat) (line : List Char) : Stage → Except TraceError Move
  | .header =>
    let result := (CheckResult.ofHeader line).value
    if result.isCounterexample then .ok (.next [.status] .property) else .ok (.dismiss result)
  | .property => .ok (.next [.property] .init)
  | .init => do
    let bits ← bitsOf number line
    let initial ← l.cacheInit bits number
    return .next [] (.latches 0 initial)
  | .latches k initial =>
    if line = ['.'] then .ok (.finish k)
    else do
      let latches ← bitsOf number line
      l.checkWidth latches .state number
      return .next [] (.inputs k initial latches)
  | .inputs k initial latches =>
    if line = ['.'] then .error (.incompleteFrame number k)
    else do
      let inputs ← bitsOf number line
      l.checkWidth inputs .input number
      let lines ← l.frame initial k latches inputs
      return .next lines (.latches (k + 1) initial)

/-- What is told about a line before anything comes of it. -/
def remarks (line : List Char) : Stage → List Event
  | .header => (CheckResult.ofHeader line).log
  | _ => []

end Lifter

/-! ## All lines -/

/-- The end of a run: the number of frames, none if there is no counterexample, or an error; what
became of the sink; and the log. -/
structure Run (σ : Type) where
  result : Except TraceError (Option Nat)
  sink : σ
  log : List Event

namespace Lifter

/-- Reads the lines of a trace, `none` being one that is not text, after `number` lines. -/
def run (l : Lifter) (sink : Sink σ) (stage : Stage) (number : Nat) (s : σ) (log : List Event) :
    List (Option (List Char)) → Run σ
  | [] => ⟨.error (.unexpectedEnd number stage.kind), s, log⟩
  | none :: _ => ⟨.error (.storage .notText), s, log⟩
  | some full :: rest =>
    let line := Text.trim full
    let log := log ++ remarks line stage
    match l.step (number + 1) line stage with
    | .error e => ⟨.error e, s, log⟩
    | .ok (.dismiss result) => ⟨.ok none, s, log ++ [.noCounterexample result]⟩
    | .ok (.finish frames) =>
      match sink.put s .stop with
      | (s, some cause) => ⟨.error (.storage cause), s, log⟩
      | (s, none) => ⟨.ok (some frames), s, log ++ [.framesLifted frames]⟩
    | .ok (.next lines stage) =>
      match sink.putAll s lines with
      | (s, some cause) => ⟨.error (.storage cause), s, log⟩
      | (s, none) => run l sink stage (number + 1) s log rest

end Lifter

/-! ## Whole traces -/

namespace Layout

/-- Lifts a trace into a sink. -/
def liftInto (layout : Layout) (sink : Sink σ) (s : σ) (trace : Text.Bytes) : Run σ :=
  layout.lifter.run sink .header 0 s [] (Text.lines? trace)

/-- Lifts a trace and keeps all lines of the witness. -/
def lift (layout : Layout) (trace : Text.Bytes) : Run (Array WitnessLine) :=
  layout.liftInto Sink.collect #[] trace

/-- Lifts a trace into a sink that takes `limit` bytes. -/
def liftWithin (layout : Layout) (names : Bool) (limit : Nat) (trace : Text.Bytes) :
    Run Sink.Quota :=
  layout.liftInto (Sink.limited names) { room := limit } trace

/-- The text of the witness that a trace becomes; none if it reports no counterexample. -/
def witness (layout : Layout) (names : Bool) (trace : Text.Bytes) :
    Logged (Except TraceError (Option String)) :=
  let r := layout.lift trace
  let text := WitnessLine.text names r.sink.toList
  ⟨r.result.map fun frames => frames.map fun _ => text, r.log⟩

end Layout

end WitnessLift
