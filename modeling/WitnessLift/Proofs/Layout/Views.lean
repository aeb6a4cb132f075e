-- SUMMARY: Latches by id and ranges by space as rearrangements of the lists of a layout.
import Mathlib.Data.List.Nodup
import WitnessLift.Lift.Lifter
import WitnessLift.Proofs.Layout.Spaces

/-!
# Views of a layout

Latches in ascending order of their ids, and the ranges of a space in the order in which a lifter
checks them. Both rearrange what the layout lists, so a line holds all ranges of a space exactly if
it is as long as the space is wide.
-/

namespace WitnessLift.Layout

variable {ds : List Declaration} {layout : Layout}

/-! ## Latches -/

theorem latches_perm (layout : Layout) :
    layout.latches.Perm (layout.states.filter fun v => !v.isPseudoInput) :=
  List.mergeSort_perm _ _

theorem mem_latches {v : StateVar} :
    v ∈ layout.latches ↔ v ∈ layout.states ∧ v.isPseudoInput = false := by
  rw [layout.latches_perm.mem_iff, List.mem_filter, Bool.not_eq_true']

theorem space_of_mem_latches {v : StateVar} (h : v ∈ layout.latches) : v.space = .state := by
  have hstate := (mem_latches.mp h).2
  unfold StateVar.isPseudoInput at hstate
  cases hspace : v.space with
  | state => rfl
  | input => simp [hspace] at hstate

theorem space_of_mem_pseudoInputs {v : StateVar} (h : v ∈ layout.pseudoInputs) :
    v.space = .input :=
  beq_iff_eq.mp (List.mem_filter.mp h).2

/-- A state is a latch exactly if it has an update. -/
theorem Of.mem_latches_iff (h : Of ds layout) {v : StateVar} :
    v ∈ layout.latches ↔ v ∈ layout.states ∧ v.hasNext = true := by
  rw [mem_latches, and_congr_right_iff]
  intro hv
  unfold StateVar.isPseudoInput
  rw [h.space v hv]
  cases v.hasNext <;> simp

theorem Of.ids_inputs (h : Of ds layout) :
    layout.inputs.map (·.id) = (ds.filter Declaration.isInput).map Declaration.id := by
  rw [← List.forall₂_eq_eq_eq, List.forall₂_map_left_iff, List.forall₂_map_right_iff]
  exact h.reads_inputs.flip.imp fun _ _ hreads => hreads.1.symm

theorem Of.ids_states (h : Of ds layout) :
    layout.states.map (·.id) = (ds.filter Declaration.isState).map Declaration.id := by
  rw [← List.forall₂_eq_eq_eq, List.forall₂_map_left_iff, List.forall₂_map_right_iff]
  exact h.reads_states.flip.imp fun _ _ hreads => hreads.1.symm

/-- No two states share an id. -/
theorem Of.nodup_states (h : Of ds layout) : (layout.states.map (·.id)).Nodup := by
  rw [h.ids_states]
  exact h.nodup.sublist (List.filter_sublist.map _)

theorem Of.nodup_latches (h : Of ds layout) : (layout.latches.map (·.id)).Nodup :=
  ((layout.latches_perm.map _).nodup_iff).mpr (h.nodup_states.sublist (List.filter_sublist.map _))

/-- Latches are listed by strictly ascending id. -/
theorem Of.latches_sorted (h : Of ds layout) : layout.latches.Pairwise fun v w => v.id < w.id := by
  -- Sorting yields an order that is not strict, and ids are distinct.
  have hle : layout.latches.Pairwise fun v w => decide (v.id ≤ w.id) = true :=
    List.pairwise_mergeSort (fun _ _ _ h₁ h₂ => by simp_all; exact UInt32.le_trans h₁ h₂)
      (fun v w => by simpa using UInt32.le_total v.id w.id) _
  have hne : layout.latches.Pairwise fun v w => v.id ≠ w.id := List.pairwise_map.mp h.nodup_latches
  exact (hle.and hne).imp fun ⟨hvw, hne⟩ => UInt32.lt_of_le_of_ne (of_decide_eq_true hvw) hne

/-- A state of a layout is determined by its id. -/
theorem Of.state_ext (h : Of ds layout) {v w : StateVar} (hv : v ∈ layout.states)
    (hw : w ∈ layout.states) (hid : v.id = w.id) : v = w :=
  List.inj_on_of_nodup_map h.nodup_states hv hw hid

/-- A line of its own supplies the initial values of the latches that have none. -/
theorem Of.needsDedicatedInit_iff (h : Of ds layout) {v : StateVar} (hv : v ∈ layout.states) :
    layout.needsDedicatedInit v.id = true ↔ v ∈ layout.latches ∧ v.hasInit = false := by
  rw [needsDedicatedInit, List.contains_iff_mem, h.dedicated, List.mem_map, h.mem_latches_iff]
  simp only [List.mem_filter, Bool.and_eq_true, Bool.not_eq_true']
  constructor
  · rintro ⟨w, ⟨hw, hnext, hinit⟩, hid⟩
    obtain rfl := h.state_ext hw hv hid
    exact ⟨⟨hw, hnext⟩, hinit⟩
  · rintro ⟨⟨_, hnext⟩, hinit⟩
    exact ⟨v, ⟨hv, hnext, hinit⟩, rfl⟩

/-- The order in which the variables of a model are listed: latches by ascending id, and the
others as they are declared. -/
structure Listed (ds : List Declaration) (layout : Layout) : Prop where
  latches : ∀ v, v ∈ layout.latches ↔ v ∈ layout.states ∧ Model.updates ds v.id = true
  ascending : layout.latches.Pairwise fun v w => v.id < w.id
  states : layout.states.map (·.id) = (ds.filter Declaration.isState).map Declaration.id
  inputs : layout.inputs.map (·.id) = (ds.filter Declaration.isInput).map Declaration.id
  pseudoInputs : layout.pseudoInputs.map (·.id) =
    ((ds.filter Declaration.isState).map Declaration.id).filter fun id => !Model.updates ds id

theorem Of.listed (h : Of ds layout) : Listed ds layout where
  latches v := by
    rw [mem_latches, and_congr_right_iff]
    intro hv
    rw [h.isPseudoInput_eq hv, Bool.not_eq_false']
  ascending := h.latches_sorted
  states := h.ids_states
  inputs := h.ids_inputs
  pseudoInputs := by
    rw [← h.ids_states, List.filter_map]
    exact congrArg (List.map _) (List.filter_congr fun v hv => h.isPseudoInput_eq hv)

/-! ## Ranges in the order of the checks -/

/-- A lifter checks the variables of a space, in an order of its own. -/
theorem lifter_ranges_perm (layout : Layout) (space : BitSpace) :
    (layout.lifter.ranges space).Perm (layout.placed space) := by
  cases space with
  | state => exact layout.latches_perm.map _
  | input => exact .refl _

theorem latches_ranges_perm (layout : Layout) :
    (layout.latches.map (·.range)).Perm (layout.ranges .state) := by
  rw [ranges_eq_map_placed]
  have hperm := (layout.lifter_ranges_perm .state).map (·.2)
  rwa [Lifter.ranges, List.map_map] at hperm

theorem Of.range_bounds (h : Of ds layout) {space : BitSpace} {v : Id × BitRange}
    (hv : v ∈ layout.lifter.ranges space) :
    v.2.start ≤ v.2.stop ∧ v.2.stop ≤ layout.width space := by
  have hmem : v.2 ∈ layout.ranges space := by
    rw [ranges_eq_map_placed]
    exact List.mem_map_of_mem ((layout.lifter_ranges_perm space).mem_iff.mp hv)
  exact ((h.tiles space).mem_bounds hmem).2

/-- The bits of a latch lie on the line of latches. -/
theorem Of.latch_bounds (h : Of ds layout) {s : StateVar} (hs : s ∈ layout.latches) :
    s.range.start ≤ s.range.stop ∧ s.range.stop ≤ layout.width .state := by
  have hmem : (s.id, s.range) ∈ layout.lifter.ranges .state := List.mem_map.mpr ⟨s, hs, rfl⟩
  exact h.range_bounds hmem

/-- A line holds every variable of a space exactly if it is as long as the space is wide. -/
theorem Of.forall_stop_le_iff (h : Of ds layout) {space : BitSpace} {n : Nat} :
    (∀ v ∈ layout.lifter.ranges space, v.2.stop ≤ n) ↔ layout.width space ≤ n := by
  rw [← (h.tiles space).forall_stop_le_iff (Nat.zero_le n), ranges_eq_map_placed,
    List.forall_mem_map]
  simp only [(layout.lifter_ranges_perm space).mem_iff]

end WitnessLift.Layout
