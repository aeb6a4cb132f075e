-- SUMMARY: Inputs, states, flags and spaces of a built layout, read off its declarations.
import WitnessLift.Proofs.Layout.Views

/-!
# Classes of variables

A layout lists the inputs and the states of a model as they are declared. Which class a state
belongs to is decided by the lines that speak of it, wherever they stand: an update makes it a
latch, and a latch without an initial value takes one from the witness.
-/

namespace WitnessLift

namespace Declaration

variable {d : Declaration} {target : Id}

theorem initTarget?_eq_some_iff : d.initTarget? = some target ↔ ∃ line, d = .init line target := by
  cases d <;> simp [initTarget?]

theorem nextTarget?_eq_some_iff : d.nextTarget? = some target ↔ ∃ line, d = .next line target := by
  cases d <;> simp [nextTarget?]

end Declaration

namespace Model

variable {ds : List Declaration}

theorem mem_initTargets {id : Id} : id ∈ initTargets ds ↔ ∃ line, Declaration.init line id ∈ ds := by
  simp [initTargets, Declaration.initTarget?_eq_some_iff, and_comm]

theorem mem_nextTargets {id : Id} : id ∈ nextTargets ds ↔ ∃ line, Declaration.next line id ∈ ds := by
  simp [nextTargets, Declaration.nextTarget?_eq_some_iff, and_comm]

/-- A declaration introduces a variable with the id and the name of this entry. -/
def Declares (introduce : Id → Id → Option String → Declaration) (d : Declaration)
    (entry : Id × Nat × Option String) : Prop :=
  ∃ sort, d = introduce entry.1 sort entry.2.2

theorem declares_inputs (ds : List Declaration) :
    List.Forall₂ (fun d v => Declares .input d (DeclaredVar.entry v))
      (ds.filter Declaration.isInput) (inputs ds) := by
  apply forall₂_filter_filterMap
  intro d _
  cases d with
  | input id sort name => exact .inl ⟨rfl, _, rfl, sort, rfl⟩
  | _ => exact .inr ⟨rfl, rfl⟩

theorem declares_states (ds : List Declaration) :
    List.Forall₂ (fun d v => Declares .state d (DeclaredVar.entry v))
      (ds.filter Declaration.isState) (states ds) := by
  apply forall₂_filter_filterMap
  intro d _
  cases d with
  | state id sort name => exact .inl ⟨rfl, _, rfl, sort, rfl⟩
  | _ => exact .inr ⟨rfl, rfl⟩

end Model

namespace Layout

/-- The variables of a model as a layout has them. Inputs and states are those that are declared,
in this order and numbered apart, and each is found by its id. A state is a latch exactly if some
line updates it, and its initial value is left to the witness exactly if it is a latch and no line
gives it one. -/
structure Classified (ds : List Declaration) (layout : Layout) : Prop where
  inputs : List.Forall₂ (fun d v => ∃ sort, d = Declaration.input v.id sort v.name)
    (ds.filter Declaration.isInput) layout.inputs
  states : List.Forall₂ (fun d v => ∃ sort, d = Declaration.state v.id sort v.name)
    (ds.filter Declaration.isState) layout.states
  inputIndices : layout.inputs.map (·.index) = List.range layout.inputs.length
  stateIndices : layout.states.map (·.index) = List.range layout.states.length
  input? : ∀ v ∈ layout.inputs, layout.input? v.id = some v
  state? : ∀ v ∈ layout.states, layout.state? v.id = some v
  hasInit : ∀ v ∈ layout.states, v.hasInit = true ↔ ∃ line, Declaration.init line v.id ∈ ds
  hasNext : ∀ v ∈ layout.states, v.hasNext = true ↔ ∃ line, Declaration.next line v.id ∈ ds
  space : ∀ v ∈ layout.states, v.space = .state ↔ v.hasNext = true
  dedicated : layout.dedicated =
    (layout.states.filter fun v => v.hasNext && !v.hasInit).map (·.id)
  needsDedicatedInit : ∀ v ∈ layout.states,
    layout.needsDedicatedInit v.id = true ↔ v.hasNext = true ∧ v.hasInit = false
  neither : ∀ v ∈ layout.states, v.hasInit = false → v.hasNext = false →
    v ∈ layout.pseudoInputs ∧ layout.needsDedicatedInit v.id = false

variable {ds : List Declaration} {layout : Layout}

/-- Where no two elements share an id, each is found by its own. -/
theorem find?_id {α : Type} {id : α → Id} {vs : List α} (h : (vs.map id).Nodup) {v : α}
    (hv : v ∈ vs) : vs.find? (fun w => id w == id v) = some v := by
  cases hfound : vs.find? (fun w => id w == id v) with
  | none => exact absurd (List.find?_eq_none.mp hfound v hv) (by simp)
  | some w =>
    have hid : id w = id v := by simpa using List.find?_some hfound
    rw [List.inj_on_of_nodup_map h (List.mem_of_find?_eq_some hfound) hv hid]

theorem Of.nodup_inputs (h : Of ds layout) : (layout.inputs.map (·.id)).Nodup := by
  rw [h.ids_inputs]
  exact h.nodup.sublist (List.filter_sublist.map _)

theorem Of.declares_inputs (h : Of ds layout) :
    List.Forall₂ (fun d v => Model.Declares .input d (InputVar.entry v))
      (ds.filter Declaration.isInput) layout.inputs := by
  have hdeclares := Model.declares_inputs ds
  rwa [← List.forall₂_map_right_iff, ← h.inputs, List.forall₂_map_right_iff] at hdeclares

theorem Of.declares_states (h : Of ds layout) :
    List.Forall₂ (fun d v => Model.Declares .state d (StateVar.entry v))
      (ds.filter Declaration.isState) layout.states := by
  have hdeclares := Model.declares_states ds
  rwa [← List.forall₂_map_right_iff, ← h.states, List.forall₂_map_right_iff] at hdeclares

theorem Of.needsDedicatedInit_iff_flags (h : Of ds layout) {v : StateVar} (hv : v ∈ layout.states) :
    layout.needsDedicatedInit v.id = true ↔ v.hasNext = true ∧ v.hasInit = false := by
  rw [h.needsDedicatedInit_iff hv, h.mem_latches_iff]
  simp [hv]

/-- A built layout classifies the variables of its model. -/
theorem classified_of_build (h : build ds = .ok layout) : Classified ds layout := by
  have hof := Of.of_build h
  exact {
    inputs := hof.declares_inputs
    states := hof.declares_states
    inputIndices := hof.inputIndices
    stateIndices := hof.stateIndices
    input? := fun v hv => find?_id hof.nodup_inputs hv
    state? := fun v hv => find?_id hof.nodup_states hv
    hasInit := fun v hv => by
      rw [hof.hasInit v hv, decide_eq_true_iff, Model.mem_initTargets]
    hasNext := fun v hv => by
      rw [hof.hasNext v hv, decide_eq_true_iff, Model.mem_nextTargets]
    space := fun v hv => by
      rw [hof.space v hv]
      cases v.hasNext <;> simp
    dedicated := hof.dedicated
    needsDedicatedInit := fun v hv => hof.needsDedicatedInit_iff_flags hv
    neither := fun v hv _ hnext => by
      refine ⟨List.mem_filter.mpr ⟨hv, ?_⟩, ?_⟩
      · rw [StateVar.isPseudoInput, hof.space v hv, hnext]
        rfl
      · rw [← Bool.not_eq_true, hof.needsDedicatedInit_iff_flags hv, hnext]
        simp }

theorem classified_of_build_mixed : build Model.mixed = .ok mixed ∧ Classified Model.mixed mixed :=
  ⟨build_mixed, classified_of_build build_mixed⟩

end Layout

end WitnessLift
