-- SUMMARY: Which changes to the order of declarations leave the layout of a model alone.
import WitnessLift.Proofs.Layout.Agreement
import WitnessLift.Proofs.Layout.WellFormed

/-!
# The order of declarations

A layout does not tell where the lines stand that speak of states, nor their ids, nor how many there
are of a kind, nor how inputs and states alternate. Moving lines about changes nothing, as long as
sorts, inputs and states keep their order among each other.
-/

namespace WitnessLift

/-! ## Agreement without renaming -/

/-- A layout whose ids are exchanged for themselves. -/
theorem Layout.rename_self (layout : Layout) : layout.rename (fun id => id) = layout := by
  have hinputs : InputVar.rename (fun id => id) = fun v => v := rfl
  have hstates : StateVar.rename (fun id => id) = fun v => v := rfl
  simp [rename, hinputs, hstates]

namespace Model

variable {ds ds' : List Declaration}

theorem AgreeUpTo.of_eq (hinputs : Model.inputs ds = Model.inputs ds')
    (hstates : Model.states ds = Model.states ds')
    (hinit : ∀ id, id ∈ initTargets ds ↔ id ∈ initTargets ds')
    (hnext : ∀ id, id ∈ nextTargets ds ↔ id ∈ nextTargets ds') :
    AgreeUpTo (fun id => id) ds ds' where
  inputs := hinputs ▸ (List.map_id _).symm
  states := hstates ▸ (List.map_id _).symm
  initialized := fun v _ => (hinit v.id).symm
  updated := fun v _ => (hnext v.id).symm

/-! ## Moved lines -/

/-- Where ids are distinct, the kind of a sort does not depend on the order. -/
theorem kindOf?_perm (h : (ds.map Declaration.id).Nodup) (hperm : ds.Perm ds') (sort : Id) :
    kindOf? ds sort = kindOf? ds' sort := by
  have h' : (ds'.map Declaration.id).Nodup := (hperm.map _).nodup_iff.mp h
  ext kind
  rw [kindOf?_eq_some_iff h, kindOf?_eq_some_iff h', hperm.mem_iff]

/-- Variables are read off the declarations whose place matters. -/
theorem inputs_eq_filter (ds : List Declaration) :
    inputs ds = (ds.filter Declaration.isPositional).filterMap (·.input? (widthOf ds)) := by
  rw [List.filterMap_filter]
  refine List.filterMap_congr fun d _ => ?_
  cases d <;> rfl

theorem states_eq_filter (ds : List Declaration) :
    states ds = (ds.filter Declaration.isPositional).filterMap (·.state? (widthOf ds)) := by
  rw [List.filterMap_filter]
  refine List.filterMap_congr fun d _ => ?_
  cases d <;> rfl

theorem AgreeUpTo.of_perm (h : (ds.map Declaration.id).Nodup) (hperm : ds.Perm ds')
    (hfilter : ds.filter Declaration.isPositional = ds'.filter Declaration.isPositional) :
    AgreeUpTo (fun id => id) ds ds' := by
  have hwidth : widthOf ds = widthOf ds' := by
    funext sort
    rw [widthOf, widthOf, kindOf?_perm h hperm]
  refine .of_eq ?_ ?_ (fun id => (hperm.filterMap _).mem_iff) (fun id => (hperm.filterMap _).mem_iff)
  · rw [inputs_eq_filter, inputs_eq_filter, hfilter, hwidth]
  · rw [states_eq_filter, states_eq_filter, hfilter, hwidth]

end Model

/-! ## Building -/

namespace Layout

variable {ds ds' : List Declaration}

theorem build_of_perm (hperm : ds.Perm ds')
    (hfilter : ds.filter Declaration.isPositional = ds'.filter Declaration.isPositional)
    {layout : Layout} (h : build ds = .ok layout) : build ds' = .ok layout := by
  have hwell : Model.WellFormed ds := exists_build_eq_ok_iff.mp ⟨layout, h⟩
  obtain ⟨layout', h'⟩ := exists_build_eq_ok_iff.mpr (hwell.perm hperm hfilter)
  have hsame := build_agree h h' (.of_perm hwell.distinct hperm hfilter)
  rw [h', hsame, rename_self]

/-- Models with the same inputs, the same states, and the same states given an initial value and an
update have the same layout. If a model is another one with its lines moved, and sorts, inputs and
states keep their order, then either both have a layout, the same one, or none of them. -/
theorem build_independent (ds ds' : List Declaration) :
    (∀ layout layout', build ds = .ok layout → build ds' = .ok layout' →
        Model.inputs ds = Model.inputs ds' → Model.states ds = Model.states ds' →
        (∀ id, id ∈ Model.initTargets ds ↔ id ∈ Model.initTargets ds') →
        (∀ id, id ∈ Model.nextTargets ds ↔ id ∈ Model.nextTargets ds') → layout = layout') ∧
      (ds.Perm ds' → ds.filter Declaration.isPositional = ds'.filter Declaration.isPositional →
        ∀ layout, build ds = .ok layout ↔ build ds' = .ok layout) := by
  constructor
  · intro layout layout' h h' hinputs hstates hinit hnext
    rw [build_agree h h' (.of_eq hinputs hstates hinit hnext), rename_self]
  · intro hperm hfilter layout
    exact ⟨build_of_perm hperm hfilter, build_of_perm hperm.symm hfilter.symm⟩

end Layout

/-- The mixed model with other sorts, its inputs before its states, and its references in front, one
of them twice. -/
def Model.mixedScattered : List Declaration :=
  [.next 21 9, .init 22 9, .next 23 9, .other 24, .next 25 5, .sort 31 (.bitVec 3),
    .sort 32 (.bitVec 2), .sort 33 (.bitVec 2), .input 4 33 (some "a"), .input 7 31 none,
    .state 9 32 (some "c"), .state 3 31 (some "free"), .state 5 31 none]

/-- The mixed model with its references at the end. -/
def Model.mixedMoved : List Declaration :=
  [.sort 1 (.bitVec 2), .sort 2 (.bitVec 3), .state 9 1 (some "c"), .input 4 1 (some "a"),
    .state 3 2 (some "free"), .state 5 2 none, .input 7 2 none, .next 10 9, .init 8 9, .next 6 5]

namespace Layout

theorem build_independent_mixed :
    (∃ layout, build Model.mixedScattered = .ok layout ∧ mixed = layout) ∧
      build Model.mixedMoved = .ok mixed := by
  constructor
  · have hinit : Model.initTargets Model.mixed ⊆ Model.initTargets Model.mixedScattered ∧
        Model.initTargets Model.mixedScattered ⊆ Model.initTargets Model.mixed := by decide
    have hnext : Model.nextTargets Model.mixed ⊆ Model.nextTargets Model.mixedScattered ∧
        Model.nextTargets Model.mixedScattered ⊆ Model.nextTargets Model.mixed := by decide
    have hscattered : build Model.mixedScattered = .ok mixed := by cbv
    refine ⟨mixed, hscattered, ?_⟩
    exact (build_independent Model.mixed Model.mixedScattered).1 mixed mixed build_mixed hscattered
      (by decide) (by decide) (fun id => ⟨@hinit.1 id, @hinit.2 id⟩)
      (fun id => ⟨@hnext.1 id, @hnext.2 id⟩)
  · exact ((build_independent Model.mixed Model.mixedMoved).2 (by decide) (by decide) mixed).mp
      build_mixed

end Layout

end WitnessLift
