-- SUMMARY: Bit layouts: the ranges of inputs and states in the two kinds of lines of a trace.
import WitnessLift.BitRange
import WitnessLift.Model.Declaration

/-!
# Bit layouts

In the witness of a flattened model a line holds either the bits of all latches or the bits of all
inputs. A layout says which range of which line a variable of the model became. A state without an
update is supplied anew in every frame, so its bits stand among the inputs.
-/

namespace WitnessLift

/-- The two kinds of lines that hold bits. -/
inductive BitSpace where
  | state
  | input
  deriving DecidableEq, Repr

/-- An input of the model. `index` counts inputs only. -/
structure InputVar where
  id : Id
  index : Nat
  range : BitRange
  name : Option String
  deriving DecidableEq, Repr

/-- A state of the model. `index` counts states only. -/
structure StateVar where
  id : Id
  index : Nat
  space : BitSpace
  range : BitRange
  hasInit : Bool
  hasNext : Bool
  name : Option String
  deriving DecidableEq, Repr

/-- Whether the bits of a state stand among the inputs. -/
def StateVar.isPseudoInput (s : StateVar) : Bool := s.space == .input

/-- Where the variables of a model are. Inputs, states and the states whose initial value the
witness supplies on a line of its own are listed in the order of their declarations. -/
structure Layout where
  inputs : List InputVar := []
  states : List StateVar := []
  dedicated : List Id := []
  inputWidth : Nat := 0
  stateWidth : Nat := 0
  deriving DecidableEq, Repr

namespace Layout

/-- The input with this id. -/
def input? (layout : Layout) (id : Id) : Option InputVar :=
  layout.inputs.find? (·.id == id)

/-- The state with this id. -/
def state? (layout : Layout) (id : Id) : Option StateVar :=
  layout.states.find? (·.id == id)

/-- The states that are latches, in ascending order of their ids. -/
def latches (layout : Layout) : List StateVar :=
  (layout.states.filter fun s => !s.isPseudoInput).mergeSort fun s t => s.id ≤ t.id

/-- The states whose bits stand among the inputs, in the order of their declarations. -/
def pseudoInputs (layout : Layout) : List StateVar :=
  layout.states.filter StateVar.isPseudoInput

/-- Whether the witness supplies the initial value of this state on a line of its own. -/
def needsDedicatedInit (layout : Layout) (id : Id) : Bool :=
  layout.dedicated.contains id

/-- The number of bits in a line of a space. -/
def width (layout : Layout) : BitSpace → Nat
  | .state => layout.stateWidth
  | .input => layout.inputWidth

/-- The ranges in a space, in the order in which they were assigned. -/
def ranges (layout : Layout) (space : BitSpace) : List BitRange :=
  let inputs := if space = .input then layout.inputs.map (·.range) else []
  inputs ++ (layout.states.filter (·.space == space)).map (·.range)

end Layout

end WitnessLift
