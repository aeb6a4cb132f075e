-- SUMMARY: The redundant views that a built layout keeps of its states agree.
import WitnessLift.Proofs.Layout.Classes
import WitnessLift.Proofs.Witness.Report

/-!
# Agreement of the views

A layout keeps some facts more than once: it lists the states whose initial value the witness has to
supply, although their flags say so as well, and inputs and states share one space of ids. In a
built layout the views agree, and a lifter, which goes by the flags, takes the initial values of
exactly the listed states from the trace.
-/

namespace WitnessLift.Layout

/-- The views of a layout agree with each other and with what a lifter makes of them. An id finds at
most one variable, and the one that is listed under it. Latches by ascending id and the other states
as they are declared are all states, and the ranges of the latches are those of their space. The
list of dedicated states names the latches without an initial value, which a lifter finds again by
their flags, and in the first frame these and no others take their value from the line of initial
values. -/
structure Coherent (ds : List Declaration) (layout : Layout) : Prop where
  input? : ∀ id v, layout.input? id = some v ↔ v ∈ layout.inputs ∧ v.id = id
  state? : ∀ id v, layout.state? id = some v ↔ v ∈ layout.states ∧ v.id = id
  apart : ∀ id, layout.input? id = none ∨ layout.state? id = none
  distinct : (layout.states.map (·.id)).Nodup
  ascending : layout.latches.Pairwise fun v w => v.id < w.id
  pseudoInputs : (layout.pseudoInputs.map (·.id)).Sublist
    ((ds.filter Declaration.isState).map Declaration.id)
  states : (layout.latches ++ layout.pseudoInputs).Perm layout.states
  ranges : (layout.ranges .state).Perm (layout.latches.map (·.range))
  listed : ∀ id, layout.needsDedicatedInit id = true ↔ id ∈ layout.dedicated
  dedicated : ∀ id, id ∈ layout.dedicated ↔
    ∃ v ∈ layout.latches, v.id = id ∧ v.hasInit = false
  recomputed : (layout.lifter.uninitialized.map (·.id)).Perm layout.dedicated
  cached : ∀ bits number initial, layout.lifter.cacheInit bits number = .ok initial →
    (initial.map (·.1)).Perm layout.dedicated
  initial : ∀ bits number initial latches, layout.lifter.cacheInit bits number = .ok initial →
    ∀ v ∈ layout.latches,
      Lifter.assignLatch initial 0 latches v =
        Lifter.assign .state 0 v.index v.name v.range
          (if layout.needsDedicatedInit v.id then bits else latches)

variable {ds : List Declaration} {layout : Layout}

/-! ## Variables by their ids -/

/-- Where no two elements share an id, an id finds the element that has it. -/
theorem find?_id_eq_some_iff {α : Type} {id : α → Id} {vs : List α} (h : (vs.map id).Nodup)
    {i : Id} {v : α} : vs.find? (fun w => id w == i) = some v ↔ v ∈ vs ∧ id v = i := by
  constructor
  · intro hfound
    exact ⟨List.mem_of_find?_eq_some hfound, by simpa using List.find?_some hfound⟩
  · rintro ⟨hv, rfl⟩
    exact find?_id h hv

/-- No input has the id of a state. -/
theorem Of.id_ne (h : Of ds layout) {v : InputVar} {w : StateVar} (hv : v ∈ layout.inputs)
    (hw : w ∈ layout.states) : v.id ≠ w.id := by
  intro heq
  have hinput : v.id ∈ (ds.filter Declaration.isInput).map Declaration.id := by
    rw [← h.ids_inputs]
    exact List.mem_map_of_mem hv
  have hstate : w.id ∈ (ds.filter Declaration.isState).map Declaration.id := by
    rw [← h.ids_states]
    exact List.mem_map_of_mem hw
  obtain ⟨d, hd, hdv⟩ := List.mem_map.mp hinput
  obtain ⟨e, he, hew⟩ := List.mem_map.mp hstate
  rw [List.mem_filter] at hd he
  -- Both ids are declared once, so the declaration would be an input and a state.
  obtain rfl : d = e :=
    List.inj_on_of_nodup_map h.nodup hd.1 he.1 (by rw [hdv, hew, heq])
  cases d with
  | input => cases he.2
  | _ => cases hd.2

theorem Of.input?_or_state? (h : Of ds layout) (id : Id) :
    layout.input? id = none ∨ layout.state? id = none := by
  cases hv : layout.input? id with
  | none => exact .inl rfl
  | some v =>
    cases hw : layout.state? id with
    | none => exact .inr rfl
    | some w =>
      obtain ⟨hmem, hid⟩ := (find?_id_eq_some_iff h.nodup_inputs).mp hv
      obtain ⟨hmem', hid'⟩ := (find?_id_eq_some_iff h.nodup_states).mp hw
      exact absurd (hid.trans hid'.symm) (h.id_ne hmem hmem')

/-! ## Latches and other states -/

/-- Every state is a latch or stands among the inputs. -/
theorem latches_append_pseudoInputs_perm (layout : Layout) :
    (layout.latches ++ layout.pseudoInputs).Perm layout.states := by
  have hsplit := List.filter_append_perm (fun v : StateVar => !v.isPseudoInput) layout.states
  simp only [Bool.not_not] at hsplit
  exact (layout.latches_perm.append_right _).trans hsplit

theorem Of.pseudoInputs_sublist (h : Of ds layout) :
    (layout.pseudoInputs.map (·.id)).Sublist
      ((ds.filter Declaration.isState).map Declaration.id) := by
  rw [← h.ids_states]
  exact List.filter_sublist.map _

/-! ## Initial values -/

/-- The list of dedicated states names the latches without an initial value. -/
theorem Of.mem_dedicated_iff (h : Of ds layout) {id : Id} :
    id ∈ layout.dedicated ↔ ∃ v ∈ layout.latches, v.id = id ∧ v.hasInit = false := by
  simp only [h.dedicated, List.mem_map, List.mem_filter, Bool.and_eq_true, Bool.not_eq_true',
    h.mem_latches_iff]
  constructor
  · rintro ⟨v, ⟨hv, hnext, hinit⟩, hid⟩
    exact ⟨v, ⟨hv, hnext⟩, hid, hinit⟩
  · rintro ⟨v, ⟨hv, hnext⟩, hid, hinit⟩
    exact ⟨v, ⟨hv, hnext, hinit⟩, hid⟩

/-- The lifter picks the same states by their flags as the layout lists. -/
theorem Of.uninitialized_perm (h : Of ds layout) :
    (layout.lifter.uninitialized.map (·.id)).Perm layout.dedicated := by
  have hflags : (layout.states.filter fun v => !v.isPseudoInput).filter (fun v => !v.hasInit) =
      layout.states.filter fun v => v.hasNext && !v.hasInit := by
    rw [List.filter_filter]
    refine List.filter_congr fun v hv => ?_
    rw [StateVar.isPseudoInput, h.space v hv]
    cases v.hasNext <;> simp
  rw [h.dedicated, ← hflags]
  exact (layout.latches_perm.filter _).map _

theorem Of.cached_perm (h : Of ds layout) {bits : Bits} {number : Nat}
    {initial : List (Id × Bits)} (hcache : layout.lifter.cacheInit bits number = .ok initial) :
    (initial.map (·.1)).Perm layout.dedicated := by
  obtain ⟨-, rfl⟩ := h.cacheInit_eq_ok_iff.mp hcache
  rw [Lifter.initials, List.map_map]
  exact h.uninitialized_perm

/-- In the first frame a latch takes its value from the line of initial values exactly if it is
listed as dedicated. -/
theorem Of.assignLatch_first (h : Of ds layout) {bits latches : Bits} {number : Nat}
    {initial : List (Id × Bits)} (hcache : layout.lifter.cacheInit bits number = .ok initial)
    {v : StateVar} (hv : v ∈ layout.latches) :
    Lifter.assignLatch initial 0 latches v =
      Lifter.assign .state 0 v.index v.name v.range
        (if layout.needsDedicatedInit v.id then bits else latches) := by
  obtain ⟨hfit, rfl⟩ := h.cacheInit_eq_ok_iff.mp hcache
  have hneeds := h.needsDedicatedInit_iff (mem_latches.mp hv).1
  rw [Lifter.assignLatch, if_pos rfl, h.lookup_initials bits hv]
  cases hinit : v.hasInit with
  | true =>
    rw [hinit] at hneeds
    rw [if_neg (by simp), if_neg (by simp [hneeds])]
  | false =>
    have hlisted := hneeds.mpr ⟨hv, hinit⟩
    have hstop := hfit v (List.mem_filter.mpr ⟨hv, by simp [hinit]⟩)
    rw [if_pos rfl, if_pos hlisted, Lifter.assign_eq_ok (h.latch_bounds hv).1 hstop]

/-- The views of a built layout agree. -/
theorem coherent_of_build (h : build ds = .ok layout) : Coherent ds layout := by
  have hof := Of.of_build h
  exact {
    input? := fun id v => find?_id_eq_some_iff hof.nodup_inputs
    state? := fun id v => find?_id_eq_some_iff hof.nodup_states
    apart := hof.input?_or_state?
    distinct := hof.nodup_states
    ascending := hof.latches_sorted
    pseudoInputs := hof.pseudoInputs_sublist
    states := layout.latches_append_pseudoInputs_perm
    ranges := layout.latches_ranges_perm.symm
    listed := fun id => by rw [needsDedicatedInit, List.contains_iff_mem]
    dedicated := fun id => hof.mem_dedicated_iff
    recomputed := hof.uninitialized_perm
    cached := fun bits number initial hcache => hof.cached_perm hcache
    initial := fun bits number initial latches hcache v hv => hof.assignLatch_first hcache hv }

theorem coherent_of_build_mixed : build Model.mixed = .ok mixed ∧ Coherent Model.mixed mixed :=
  ⟨build_mixed, coherent_of_build build_mixed⟩

end WitnessLift.Layout
