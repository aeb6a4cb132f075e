-- SUMMARY: Models that agree up to ids have layouts that are equal up to ids.
import WitnessLift.Proofs.Layout.Spaces

/-!
# What a layout depends on

The variables of a model with their widths and names, and which states are given an initial value or
an update: models that agree on these up to the ids of the variables have the same layout up to ids.
-/

namespace WitnessLift

/-! ## Exchanged ids -/

/-- A variable with its id exchanged. -/
def DeclaredVar.rename (f : Id → Id) (v : DeclaredVar) : DeclaredVar := { v with id := f v.id }

/-- An input with its id exchanged. -/
def InputVar.rename (f : Id → Id) (v : InputVar) : InputVar := { v with id := f v.id }

/-- A state with its id exchanged. -/
def StateVar.rename (f : Id → Id) (v : StateVar) : StateVar := { v with id := f v.id }

/-- A placement with its ids exchanged. -/
def Placement.rename (f : Id → Id) (p : Placement) : Placement :=
  { p with states := p.states.map (StateVar.rename f), dedicated := p.dedicated.map f }

/-- A layout with its ids exchanged. -/
def Layout.rename (f : Id → Id) (layout : Layout) : Layout :=
  { layout with
    inputs := layout.inputs.map (InputVar.rename f)
    states := layout.states.map (StateVar.rename f)
    dedicated := layout.dedicated.map f }

variable {f : Id → Id}

/-! ## What a layout depends on -/

/-- Two models have the same variables up to their ids, and speak of the same ones. -/
structure Model.AgreeUpTo (f : Id → Id) (ds ds' : List Declaration) : Prop where
  inputs : Model.inputs ds' = (Model.inputs ds).map (DeclaredVar.rename f)
  states : Model.states ds' = (Model.states ds).map (DeclaredVar.rename f)
  initialized : ∀ v ∈ Model.states ds, f v.id ∈ initTargets ds' ↔ v.id ∈ initTargets ds
  updated : ∀ v ∈ Model.states ds, f v.id ∈ nextTargets ds' ↔ v.id ∈ nextTargets ds

/-- Inputs are known by what they are without their place, and by their place. -/
theorem InputVar.eq_of_map_eq {vs ws : List InputVar} (hentry : vs.map entry = ws.map entry)
    (hindex : vs.map (·.index) = ws.map (·.index)) (hrange : vs.map (·.range) = ws.map (·.range)) :
    vs = ws := by
  have hparts : ∀ us : List InputVar, us.map (fun v => (v.entry, v.index, v.range)) =
      (us.map entry).zip ((us.map (·.index)).zip (us.map (·.range))) := fun us => by
    rw [List.zip_map', List.zip_map']
  have hinjective : Function.Injective fun v : InputVar => (v.entry, v.index, v.range) := by
    rintro ⟨⟩ ⟨⟩ h
    simp_all [entry]
  apply List.map_injective_iff.mpr hinjective
  rw [hparts, hparts, hentry, hindex, hrange]

theorem BitRange.Tiles.eq_of_widths {start stop stop' : Nat} {rs rs' : List BitRange}
    (h : Tiles start rs stop) (h' : Tiles start rs' stop')
    (hwidth : rs.map (·.width) = rs'.map (·.width)) : rs = rs' ∧ stop = stop' := by
  induction rs generalizing start rs' with
  | nil =>
    obtain rfl := List.map_eq_nil_iff.mp hwidth.symm
    exact ⟨rfl, h.symm.trans h'⟩
  | cons r rs ih =>
    obtain ⟨r', rs', rfl, hr, hrs⟩ := List.map_eq_cons_iff.mp hwidth.symm
    obtain ⟨hstart, hle, hrest⟩ := h
    obtain ⟨hstart', hle', hrest'⟩ := h'
    have hsame : r = r' := by
      cases r
      cases r'
      simp only [width] at hr hstart hstart' hle hle'
      simp only [mk.injEq]
      omega
    subst hsame
    obtain ⟨rfl, rfl⟩ := ih hrest hrest' hrs.symm
    exact ⟨rfl, rfl⟩

namespace Survey

variable {ds ds' : List Declaration} {s s' : Survey}

/-- Inputs that agree are placed alike. -/
theorem Of.inputs_rename (h : Of ds s) (h' : Of ds' s') (hagree : Model.AgreeUpTo f ds ds') :
    s'.inputs.toList = s.inputs.toList.map (InputVar.rename f) ∧ s'.inputWidth = s.inputWidth := by
  have hentry : s'.inputs.toList.map InputVar.entry =
      (s.inputs.toList.map InputVar.entry).map fun e => (f e.1, e.2) := by
    rw [h.inputs, h'.inputs, hagree.inputs, List.map_map, List.map_map]
    rfl
  have hsize : s'.inputs.size = s.inputs.size := by simpa using congrArg List.length hentry
  have hwidth : (s'.inputs.toList.map (·.range)).map (·.width) =
      (s.inputs.toList.map (·.range)).map (·.width) := by
    simpa [List.map_map, Function.comp_def, InputVar.entry] using
      congrArg (List.map fun e => e.2.1) hentry
  obtain ⟨hrange, hstop⟩ := h'.tiles.eq_of_widths h.tiles hwidth
  refine ⟨InputVar.eq_of_map_eq ?_ ?_ ?_, hstop⟩
  · rw [hentry, List.map_map, List.map_map]
    rfl
  · rw [h'.indices, hsize, ← h.indices, List.map_map]
    rfl
  · rw [hrange, List.map_map]
    rfl

end Survey

namespace Placement

variable {s s' : Survey}

theorem rename_empty (width : Nat) :
    Placement.rename f { inputWidth := width } = { inputWidth := width } := by
  simp [rename]

theorem step_rename {v : DeclaredVar} (hinit : f v.id ∈ s'.initialized ↔ v.id ∈ s.initialized)
    (hnext : f v.id ∈ s'.updated ↔ v.id ∈ s.updated) (p : Placement) :
    (p.rename f).step s' (v.rename f) = (p.step s v).rename f := by
  unfold step
  simp only [DeclaredVar.rename, hinit, hnext]
  split
  · simp only [rename, Array.map_push, Array.size_map, StateVar.rename]
    split <;> simp
  · simp [rename, StateVar.rename]

theorem foldl_rename {vs : List DeclaredVar}
    (hinit : ∀ v ∈ vs, f v.id ∈ s'.initialized ↔ v.id ∈ s.initialized)
    (hnext : ∀ v ∈ vs, f v.id ∈ s'.updated ↔ v.id ∈ s.updated) (p : Placement) :
    (vs.map (DeclaredVar.rename f)).foldl (step s') (p.rename f) =
      (vs.foldl (step s) p).rename f := by
  induction vs generalizing p with
  | nil => rfl
  | cons v vs ih =>
    obtain ⟨hv, hvs⟩ := List.forall_mem_cons.mp hinit
    obtain ⟨hv', hvs'⟩ := List.forall_mem_cons.mp hnext
    rw [List.map_cons, List.foldl_cons, step_rename hv hv', ih hvs hvs', List.foldl_cons]

end Placement

namespace Layout

variable {ds ds' : List Declaration} {layout layout' : Layout}

theorem ofSurvey_rename {s s' : Survey} (h : Survey.Of ds s) (h' : Survey.Of ds' s')
    (hagree : Model.AgreeUpTo f ds ds') : ofSurvey s' = (ofSurvey s).rename f := by
  obtain ⟨hinputs, hwidth⟩ := h.inputs_rename h' hagree
  have hplaced : Placement.ofSurvey s' = (Placement.ofSurvey s).rename f := by
    have hinit : ∀ v ∈ Model.states ds, f v.id ∈ s'.initialized ↔ v.id ∈ s.initialized := by
      intro v hv
      rw [h.initialized, h'.initialized, hagree.initialized v hv]
    have hnext : ∀ v ∈ Model.states ds, f v.id ∈ s'.updated ↔ v.id ∈ s.updated := by
      intro v hv
      rw [h.updated, h'.updated, hagree.updated v hv]
    have hfold := Placement.foldl_rename hinit hnext { inputWidth := s.inputWidth }
    rw [Placement.rename_empty] at hfold
    rw [Placement.ofSurvey, Placement.ofSurvey, h'.states, hagree.states, h.states, hwidth, hfold]
  simp [ofSurvey, hinputs, hplaced, rename, Placement.rename]

/-- Models that agree have the same layout up to ids. -/
theorem build_agree (h : build ds = .ok layout) (h' : build ds' = .ok layout')
    (hagree : Model.AgreeUpTo f ds ds') : layout' = layout.rename f := by
  obtain ⟨s, hs, rfl⟩ := exists_survey_of_build h
  obtain ⟨s', hs', rfl⟩ := exists_survey_of_build h'
  exact ofSurvey_rename hs hs' hagree

end Layout

end WitnessLift
