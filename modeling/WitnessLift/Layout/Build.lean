-- SUMMARY: Building the layout of a model in two passes over its declarations.
import Std.Data.TreeMap
import Std.Data.TreeSet
import WitnessLift.Layout.Basic
import WitnessLift.Log
import WitnessLift.Model.Parser

/-!
# Laying out a model

A first pass over the declarations checks them, places the inputs and collects the states. A state
is a latch only if some line updates it, which can come at any time after the state, so states are
placed in a second pass: latches one behind the other in their own line, the others behind all
inputs.
-/

namespace WitnessLift

/-! ## First pass -/

/-- A variable that is not placed yet. -/
structure DeclaredVar where
  id : Id
  width : UInt32
  name : Option String
  deriving DecidableEq, Repr

/-- A line that says something about a state. -/
structure Reference where
  id : Id
  state : Id
  deriving DecidableEq, Repr

/-- What the declarations so far amount to. `references` holds the `init` and `next` lines in their
order, and `initialized` and `updated` the ids that they name. -/
structure Survey where
  declared : Std.TreeSet Id := ∅
  sorts : Std.TreeMap Id SortKind := ∅
  inputs : Array InputVar := #[]
  inputWidth : Nat := 0
  states : Array DeclaredVar := #[]
  stateIds : Std.TreeSet Id := ∅
  references : Array Reference := #[]
  initialized : Std.TreeSet Id := ∅
  updated : Std.TreeSet Id := ∅

namespace Survey

/-- The width of a sort, for the variable `id`. -/
def widthOf (s : Survey) (id sort : Id) : Except ModelError UInt32 :=
  match s.sorts[sort]? with
  | none => .error (.undeclaredSort id sort)
  | some .array => .error (.arraySort id sort)
  | some (.bitVec width) => .ok width

/-- Places an input behind the inputs so far. -/
def addInput (s : Survey) (id : Id) (width : UInt32) (name : Option String) : Survey :=
  { s with
    inputs := s.inputs.push ⟨id, s.inputs.size, .ofWidth s.inputWidth width.toNat, name⟩
    inputWidth := s.inputWidth + width.toNat }

/-- Adds a declaration whose id is new. -/
def add (s : Survey) : Declaration → Except ModelError Survey
  | .sort id kind => .ok { s with sorts := s.sorts.insert id kind }
  | .input id sort name => (s.addInput id · name) <$> s.widthOf id sort
  | .state id sort name => do
    let width ← s.widthOf id sort
    return { s with states := s.states.push ⟨id, width, name⟩, stateIds := s.stateIds.insert id }
  | .init id state =>
    .ok { s with
      references := s.references.push ⟨id, state⟩, initialized := s.initialized.insert state }
  | .next id state =>
    .ok { s with references := s.references.push ⟨id, state⟩, updated := s.updated.insert state }
  | .other _ => .ok s

/-- Adds a declaration. -/
def step (s : Survey) (d : Declaration) : Except ModelError Survey :=
  if d.id ∈ s.declared then .error (.duplicateId d.id)
  else { s with declared := s.declared.insert d.id }.add d

/-- Checks that a line speaks of a state. -/
def checkReference (s : Survey) (r : Reference) : Except ModelError Unit :=
  if r.state ∈ s.stateIds then .ok () else .error (.unknownState r.id r.state)

/-- Surveys all declarations. References are checked last, when all states are known. -/
def ofDeclarations (declarations : List Declaration) : Except ModelError Survey := do
  let s ← declarations.foldlM step {}
  s.references.toList.forM s.checkReference
  return s

end Survey

/-! ## Second pass -/

/-- The states placed so far, and the bits taken in either space. -/
structure Placement where
  states : Array StateVar := #[]
  dedicated : Array Id := #[]
  inputWidth : Nat
  stateWidth : Nat := 0

/-- Places a state behind what its space holds so far. The witness has to supply the initial value
of a latch that the model gives none. -/
def Placement.step (s : Survey) (p : Placement) (v : DeclaredVar) : Placement :=
  let width := v.width.toNat
  let hasInit : Bool := v.id ∈ s.initialized
  if v.id ∈ s.updated then
    { p with
      states := p.states.push
        ⟨v.id, p.states.size, .state, .ofWidth p.stateWidth width, hasInit, true, v.name⟩
      dedicated := if hasInit then p.dedicated else p.dedicated.push v.id
      stateWidth := p.stateWidth + width }
  else
    { p with
      states := p.states.push
        ⟨v.id, p.states.size, .input, .ofWidth p.inputWidth width, hasInit, false, v.name⟩
      inputWidth := p.inputWidth + width }

/-- Places all states of a survey. -/
def Placement.ofSurvey (s : Survey) : Placement :=
  s.states.toList.foldl (step s) { inputWidth := s.inputWidth }

/-! ## Layout -/

namespace Layout

/-- The layout of surveyed declarations. -/
def ofSurvey (s : Survey) : Layout :=
  let p := Placement.ofSurvey s
  { inputs := s.inputs.toList
    states := p.states.toList
    dedicated := p.dedicated.toList
    inputWidth := p.inputWidth
    stateWidth := p.stateWidth }

/-- The layout of a model, or the first fault that keeps it from having one. -/
def build (declarations : List Declaration) : Except ModelError Layout :=
  ofSurvey <$> Survey.ofDeclarations declarations

/-- The event of having built a layout. -/
def event (layout : Layout) : Event :=
  .layoutBuilt layout.inputs.length layout.states.length layout.inputWidth layout.stateWidth
    layout.dedicated.length

/-- The layout of a model, and what is told about it. -/
def ofDeclarations (declarations : List Declaration) : Logged (Except ModelError Layout) :=
  match build declarations with
  | .ok layout => ⟨.ok layout, [layout.event]⟩
  | .error e => ⟨.error e, []⟩

/-- The layout of the model that a text spells. -/
def ofText (text : List Char) : Logged (Except ModelError Layout) :=
  match parseModel text with
  | .ok declarations => ofDeclarations declarations
  | .error e => ⟨.error e, []⟩

end Layout

end WitnessLift
