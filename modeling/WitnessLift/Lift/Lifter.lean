-- SUMMARY: The variables of a frame, the checks on its lines, and the values cut out of them.
import WitnessLift.Layout.Basic
import WitnessLift.Trace.Error
import WitnessLift.Witness.Line

/-!
# Values of a frame

The variables of a layout in the order in which a witness lists them, and how their values are
taken out of the lines of a trace. Every line is checked for all of its variables before a value of
its frame is written.
-/

namespace WitnessLift

/-- The variables of a layout: latches by ascending id, then the inputs, then the states whose bits
stand among the inputs, both in the order of their declarations. -/
structure Lifter where
  latches : List StateVar
  inputs : List InputVar
  pseudoInputs : List StateVar

/-- The lifter for a layout. -/
def Layout.lifter (layout : Layout) : Lifter where
  latches := layout.latches
  inputs := layout.inputs
  pseudoInputs := layout.pseudoInputs

namespace Lifter

/-- The value of a variable on line number `line`. -/
def valueOf (id : Id) (range : BitRange) (bits : Bits) (line : Nat) : Except TraceError Bits :=
  match range.cut? bits with
  | some value => .ok value
  | none => .error (.lineTooShort line id range bits.size)

/-- The variables of a space and their ranges, in the order in which they are checked. -/
def ranges (l : Lifter) : BitSpace → List (Id × BitRange)
  | .state => l.latches.map fun s => (s.id, s.range)
  | .input => (l.inputs.map fun v => (v.id, v.range)) ++ l.pseudoInputs.map fun s => (s.id, s.range)

/-- Checks that a line holds every variable of its space. -/
def checkWidth (l : Lifter) (bits : Bits) (space : BitSpace) (line : Nat) :
    Except TraceError Unit :=
  (l.ranges space).forM fun v => (valueOf v.1 v.2 bits line).map fun _ => ()

/-- The latches that the model gives no initial value. -/
def uninitialized (l : Lifter) : List StateVar :=
  l.latches.filter fun s => !s.hasInit

/-- The initial values of the latches that the model gives none. -/
def cacheInit (l : Lifter) (bits : Bits) (line : Nat) : Except TraceError (List (Id × Bits)) :=
  l.uninitialized.mapM fun s => (s.id, ·) <$> valueOf s.id s.range bits line

/-- The assignment of the value at a range of a line. -/
def assign (space : BitSpace) (frame index : Nat) (name : Option String) (range : BitRange)
    (bits : Bits) : Except TraceError WitnessLine :=
  match range.cut? bits with
  | some value => .ok (.assignment space frame index value name)
  | none => .error (.outOfRange range)

/-- The assignment of a latch. In the first frame an initial value from the trace wins over the
value on the line of latches. -/
def assignLatch (initial : List (Id × Bits)) (frame : Nat) (bits : Bits) (s : StateVar) :
    Except TraceError WitnessLine :=
  match if frame = 0 then initial.lookup s.id else none with
  | some value => .ok (.assignment .state frame s.index value s.name)
  | none => assign .state frame s.index s.name s.range bits

/-- The lines of a witness for one frame. -/
def frame (l : Lifter) (initial : List (Id × Bits)) (k : Nat) (latches inputs : Bits) :
    Except TraceError (List WitnessLine) := do
  let states ← l.latches.mapM (assignLatch initial k latches)
  let genuine ← l.inputs.mapM fun v => assign .input k v.index v.name v.range inputs
  let pseudo ← l.pseudoInputs.mapM fun s => assign .input k s.index s.name s.range inputs
  return .heading .state k :: states ++ .heading .input k :: genuine ++ pseudo

end Lifter

end WitnessLift
