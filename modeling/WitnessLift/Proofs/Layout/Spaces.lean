-- SUMMARY: The ranges of a built layout partition both spaces, in the declared order and widths.
import Mathlib.Data.List.Forall2
import WitnessLift.Proofs.Layout.Placement

/-!
# The spaces of a layout

The ranges of a built layout cut the lines of either space up, and they stand in the order of the
declarations: the inputs and behind them the states that no line updates, or the states that some
line updates. Each has the width of the sort that its declaration names.
-/

namespace WitnessLift

/-! ## What a model puts into a space -/

/-- Whether a declaration introduces an input. -/
def Declaration.isInput : Declaration → Bool
  | .input .. => true
  | _ => false

/-- Whether a declaration introduces a state. -/
def Declaration.isState : Declaration → Bool
  | .state .. => true
  | _ => false

namespace Model

/-- Whether some line updates the state of this id. -/
def updates (ds : List Declaration) (id : Id) : Bool := id ∈ nextTargets ds

/-- The declarations of the variables in a space, in the order of their bits. -/
def placed (ds : List Declaration) : BitSpace → List Declaration
  | .state => (ds.filter Declaration.isState).filter fun d => updates ds d.id
  | .input =>
    ds.filter Declaration.isInput ++
      (ds.filter Declaration.isState).filter fun d => !updates ds d.id

/-- The sort of a variable is a bit-vector sort of this width, and declared as nothing else. -/
def HasWidth (ds : List Declaration) (d : Declaration) (n : Nat) : Prop :=
  ∃ sort width, d.sort? = some sort ∧
    (∀ kind, Declaration.sort sort kind ∈ ds ↔ kind = .bitVec width) ∧ width.toNat = n

variable {ds : List Declaration}

/-- Where ids are distinct, a sort has the kind that it is declared with. -/
theorem kindOf?_eq_some_iff (h : (ds.map Declaration.id).Nodup) {sort : Id} {kind : SortKind} :
    kindOf? ds sort = some kind ↔ Declaration.sort sort kind ∈ ds := by
  induction ds with
  | nil => simp [kindOf?]
  | cons d ds ih =>
    obtain ⟨hd, hds⟩ := List.nodup_cons.mp h
    rw [kindOf?, List.findSome?_cons, List.mem_cons]
    -- If the first declaration gives the sort a kind, no later one has its id.
    cases hfor : d.kindFor? sort with
    | none =>
      have hne : Declaration.sort sort kind ≠ d := fun heq => by
        rw [Declaration.kindFor?_eq_some_iff.mpr heq.symm] at hfor
        cases hfor
      exact (ih hds).trans (or_iff_right hne).symm
    | some k =>
      rw [Declaration.kindFor?_eq_some_iff] at hfor
      subst hfor
      have hnot : Declaration.sort sort kind ∉ ds := fun hmem =>
        hd (List.mem_map.mpr ⟨_, hmem, rfl⟩)
      simp [hnot, eq_comm]

/-- In a model whose variables are sorted, the width that is read is the declared one. -/
theorem Sorted.hasWidth (h : Sorted ds) (hnodup : (ds.map Declaration.id).Nodup) {d : Declaration}
    (hd : d ∈ ds) {sort : Id} (hsort : d.sort? = some sort) :
    HasWidth ds d (widthOf ds sort).toNat := by
  obtain ⟨width, hkind⟩ := h d hd sort hsort
  refine ⟨sort, width, hsort, fun kind => ?_, by rw [widthOf_eq hkind]⟩
  rw [← kindOf?_eq_some_iff hnodup, hkind, Option.some.injEq, eq_comm]

/-- A variable that is read from a declaration carries its id and its width. -/
def Reads (ds : List Declaration) (d : Declaration) (entry : Id × Nat × Option String) : Prop :=
  d.id = entry.1 ∧ HasWidth ds d entry.2.1

theorem forall₂_filter_filterMap {p : Declaration → Bool} {f : Declaration → Option DeclaredVar}
    {R : Declaration → DeclaredVar → Prop} {ds : List Declaration}
    (h : ∀ d ∈ ds, (p d = true ∧ ∃ v, f d = some v ∧ R d v) ∨ (p d = false ∧ f d = none)) :
    List.Forall₂ R (ds.filter p) (ds.filterMap f) := by
  induction ds with
  | nil => exact .nil
  | cons d ds ih =>
    obtain ⟨hd, hds⟩ := List.forall_mem_cons.mp h
    rcases hd with ⟨hp, v, hf, hr⟩ | ⟨hp, hf⟩
    · rw [List.filter_cons_of_pos hp, List.filterMap_cons_some hf]
      exact .cons hr (ih hds)
    · rw [List.filter_cons_of_neg (by simp [hp]), List.filterMap_cons_none hf]
      exact ih hds

theorem Sorted.reads_inputs (h : Sorted ds) (hnodup : (ds.map Declaration.id).Nodup) :
    List.Forall₂ (fun d v => Reads ds d (DeclaredVar.entry v)) (ds.filter Declaration.isInput)
      (inputs ds) := by
  apply forall₂_filter_filterMap
  intro d hd
  cases d with
  | input id sort name => exact .inl ⟨rfl, _, rfl, rfl, h.hasWidth hnodup hd rfl⟩
  | _ => exact .inr ⟨rfl, rfl⟩

theorem Sorted.reads_states (h : Sorted ds) (hnodup : (ds.map Declaration.id).Nodup) :
    List.Forall₂ (fun d v => Reads ds d (DeclaredVar.entry v)) (ds.filter Declaration.isState)
      (states ds) := by
  apply forall₂_filter_filterMap
  intro d hd
  cases d with
  | state id sort name => exact .inl ⟨rfl, _, rfl, rfl, h.hasWidth hnodup hd rfl⟩
  | _ => exact .inr ⟨rfl, rfl⟩

end Model

/-! ## What a layout puts into a space -/

namespace Layout

/-- The variables of a space with their ranges, in the order of their bits. -/
def placed (layout : Layout) : BitSpace → List (Id × BitRange)
  | .state => (layout.states.filter fun v => !v.isPseudoInput).map fun v => (v.id, v.range)
  | .input =>
    layout.inputs.map (fun v => (v.id, v.range)) ++
      layout.pseudoInputs.map fun v => (v.id, v.range)

variable {ds : List Declaration} {layout : Layout}

theorem not_isPseudoInput (v : StateVar) : (!v.isPseudoInput) = (v.space == .state) := by
  unfold StateVar.isPseudoInput
  cases v.space <;> rfl

theorem ranges_eq_map_placed (layout : Layout) (space : BitSpace) :
    layout.ranges space = (layout.placed space).map (·.2) := by
  cases space with
  | input =>
    rw [placed, List.map_append, List.map_map, List.map_map]
    rfl
  | state =>
    simp only [placed, not_isPseudoInput, List.map_map]
    rfl

theorem Of.reads_inputs (h : Of ds layout) :
    List.Forall₂ (fun d v => Model.Reads ds d (InputVar.entry v))
      (ds.filter Declaration.isInput) layout.inputs := by
  have hreads := h.sorted.reads_inputs h.nodup
  rwa [← List.forall₂_map_right_iff, ← h.inputs, List.forall₂_map_right_iff] at hreads

theorem Of.reads_states (h : Of ds layout) :
    List.Forall₂ (fun d v => Model.Reads ds d (StateVar.entry v))
      (ds.filter Declaration.isState) layout.states := by
  have hreads := h.sorted.reads_states h.nodup
  rwa [← List.forall₂_map_right_iff, ← h.states, List.forall₂_map_right_iff] at hreads

/-- The bits of a state stand among the inputs exactly if no line updates it. -/
theorem Of.isPseudoInput_eq (h : Of ds layout) {v : StateVar} (hv : v ∈ layout.states) :
    v.isPseudoInput = !Model.updates ds v.id := by
  unfold StateVar.isPseudoInput Model.updates
  rw [h.space v hv, ← h.hasNext v hv]
  cases v.hasNext <;> rfl

theorem Of.reads_placed (h : Of ds layout) (space : BitSpace) :
    List.Forall₂ (fun d v => d.id = v.1 ∧ Model.HasWidth ds d v.2.width) (Model.placed ds space)
      (layout.placed space) := by
  cases space with
  | state =>
    have hfilter : layout.states.filter (fun v => !v.isPseudoInput) =
        layout.states.filter fun v => Model.updates ds v.id :=
      List.filter_congr fun v hv => by rw [h.isPseudoInput_eq hv, Bool.not_not]
    rw [Model.placed, placed, hfilter, List.forall₂_map_right_iff]
    refine List.rel_filter (fun d v hreads => ?_) h.reads_states
    exact iff_of_eq (congrArg (Model.updates ds · = true) hreads.1)
  | input =>
    have hfilter : layout.pseudoInputs = layout.states.filter fun v => !Model.updates ds v.id :=
      List.filter_congr fun v hv => h.isPseudoInput_eq hv
    rw [Model.placed, placed, hfilter]
    apply List.rel_append
    · rw [List.forall₂_map_right_iff]
      exact h.reads_inputs
    · rw [List.forall₂_map_right_iff]
      refine List.rel_filter (fun d v hreads => ?_) h.reads_states
      exact iff_of_eq (congrArg (fun id => (!Model.updates ds id) = true) hreads.1)

/-- In a built layout the ranges of either space follow the order of the declarations, have the
widths of their sorts, and cut the lines of the space up. -/
theorem build_partition (h : build ds = .ok layout) (space : BitSpace) :
    layout.ranges space = (layout.placed space).map (·.2) ∧
      List.Forall₂ (fun d v => d.id = v.1 ∧ Model.HasWidth ds d v.2.width) (Model.placed ds space)
        (layout.placed space) ∧
      BitRange.Partition (layout.ranges space) (layout.width space) := by
  have hof := Of.of_build h
  exact ⟨layout.ranges_eq_map_placed space, hof.reads_placed space, (hof.tiles space).partition⟩

end Layout

/-! ## A model in no particular order -/

/-- Two inputs, two latches of which the later one has the smaller id, and between them a state that
no line updates. -/
def Model.mixed : List Declaration :=
  [.sort 1 (.bitVec 2), .sort 2 (.bitVec 3), .state 9 1 (some "c"), .input 4 1 (some "a"),
    .next 6 5, .state 3 2 (some "free"), .state 5 2 none, .input 7 2 none, .init 8 9, .next 10 9]

namespace Layout

/-- The layout of the mixed model. -/
def mixed : Layout where
  inputs := [⟨4, 0, ⟨0, 2⟩, some "a"⟩, ⟨7, 1, ⟨2, 5⟩, none⟩]
  states := [⟨9, 0, .state, ⟨0, 2⟩, true, true, some "c"⟩,
    ⟨3, 1, .input, ⟨5, 8⟩, false, false, some "free"⟩,
    ⟨5, 2, .state, ⟨2, 5⟩, false, true, none⟩]
  dedicated := [5]
  inputWidth := 8
  stateWidth := 5

theorem build_mixed : build Model.mixed = .ok mixed := by cbv

theorem build_partition_mixed :
    build Model.mixed = .ok mixed ∧
      mixed.ranges .input = (mixed.placed .input).map (·.2) ∧
      List.Forall₂ (fun d v => d.id = v.1 ∧ Model.HasWidth Model.mixed d v.2.width)
        (Model.placed Model.mixed .input) (mixed.placed .input) ∧
      BitRange.Partition (mixed.ranges .input) (mixed.width .input) :=
  ⟨build_mixed, build_partition build_mixed .input⟩

end Layout

end WitnessLift
