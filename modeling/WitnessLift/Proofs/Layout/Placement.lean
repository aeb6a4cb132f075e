-- SUMMARY: Invariant of the second layout pass: what is placed tiles both spaces.
import WitnessLift.Proofs.Layout.Survey

/-!
# The second pass

States are placed one behind the other, each in the space that it belongs to. What is placed so far
tiles both spaces, and a state more keeps it so.
-/

namespace WitnessLift

/-- A state without its place. -/
def StateVar.entry (v : StateVar) : Id × Nat × Option String := (v.id, v.range.width, v.name)

/-- The states of a space, in the order of their declarations. -/
def StateVar.within (space : BitSpace) (vs : List StateVar) : List StateVar :=
  vs.filter (·.space == space)

namespace Placement

open BitRange

/-- A state is a latch exactly if some line updates it, and its flags say which lines name it. -/
structure Flagged (s : Survey) (v : StateVar) : Prop where
  hasInit : v.hasInit = decide (v.id ∈ s.initialized)
  hasNext : v.hasNext = decide (v.id ∈ s.updated)
  space : v.space = if v.hasNext then .state else .input

/-- The placement holds these states, in order, and tiles both spaces with them. -/
structure Of (s : Survey) (vs : List DeclaredVar) (p : Placement) : Prop where
  entries : p.states.toList.map StateVar.entry = vs.map DeclaredVar.entry
  indices : p.states.toList.map (·.index) = List.range p.states.size
  flagged : ∀ v ∈ p.states.toList, Flagged s v
  dedicated :
    p.dedicated.toList = (p.states.toList.filter fun v => v.hasNext && !v.hasInit).map (·.id)
  inputTiles : Tiles s.inputWidth ((StateVar.within .input p.states.toList).map (·.range)) p.inputWidth
  stateTiles : Tiles 0 ((StateVar.within .state p.states.toList).map (·.range)) p.stateWidth

variable {s : Survey} {vs : List DeclaredVar} {p : Placement}

theorem Of.empty : Of s [] { inputWidth := s.inputWidth } where
  entries := rfl
  indices := rfl
  flagged := by simp
  dedicated := rfl
  inputTiles := rfl
  stateTiles := rfl

theorem Of.step (h : Of s vs p) (v : DeclaredVar) : Of s (vs ++ [v]) (p.step s v) := by
  unfold Placement.step
  dsimp only
  split
  -- A latch goes behind the latches, and leaves the line of inputs as it is.
  · next hupdated => exact {
      entries := by simp [h.entries, StateVar.entry, DeclaredVar.entry]
      indices := by simp [h.indices, List.range_succ]
      flagged := by
        simp only [Array.toList_push, List.mem_append, List.mem_singleton]
        rintro w (hw | rfl)
        · exact h.flagged w hw
        · exact ⟨rfl, (decide_eq_true hupdated).symm, rfl⟩
      dedicated := by
        cases hinit : decide (v.id ∈ s.initialized) <;> simp [h.dedicated]
      inputTiles := by
        simpa [StateVar.within] using h.inputTiles
      stateTiles := by
        simpa [StateVar.within] using h.stateTiles.concat v.width.toNat }
  -- Any other state goes behind all inputs so far, genuine or not.
  · next hupdated => exact {
      entries := by simp [h.entries, StateVar.entry, DeclaredVar.entry]
      indices := by simp [h.indices, List.range_succ]
      flagged := by
        simp only [Array.toList_push, List.mem_append, List.mem_singleton]
        rintro w (hw | rfl)
        · exact h.flagged w hw
        · exact ⟨rfl, (decide_eq_false hupdated).symm, rfl⟩
      dedicated := by simp [h.dedicated]
      inputTiles := by
        simpa [StateVar.within] using h.inputTiles.concat v.width.toNat
      stateTiles := by
        simpa [StateVar.within] using h.stateTiles }

theorem Of.foldl (h : Of s vs p) (rest : List DeclaredVar) :
    Of s (vs ++ rest) (rest.foldl (Placement.step s) p) := by
  induction rest generalizing vs p with
  | nil => rwa [List.append_nil]
  | cons v rest ih => simpa using ih (h.step v)

/-- All states of a survey are placed. -/
theorem of_ofSurvey (s : Survey) : Of s s.states.toList (ofSurvey s) :=
  Of.empty.foldl s.states.toList

end Placement

/-! ## Layouts -/

namespace Layout

open BitRange

/-- The layout holds the variables of a model with its flags, and they tile both spaces. -/
structure Of (ds : List Declaration) (layout : Layout) : Prop where
  nodup : (ds.map Declaration.id).Nodup
  sorted : Model.Sorted ds
  inputs : layout.inputs.map InputVar.entry = (Model.inputs ds).map DeclaredVar.entry
  inputIndices : layout.inputs.map (·.index) = List.range layout.inputs.length
  states : layout.states.map StateVar.entry = (Model.states ds).map DeclaredVar.entry
  stateIndices : layout.states.map (·.index) = List.range layout.states.length
  hasInit : ∀ v ∈ layout.states, v.hasInit = decide (v.id ∈ Model.initTargets ds)
  hasNext : ∀ v ∈ layout.states, v.hasNext = decide (v.id ∈ Model.nextTargets ds)
  space : ∀ v ∈ layout.states, v.space = if v.hasNext then .state else .input
  dedicated :
    layout.dedicated = (layout.states.filter fun v => v.hasNext && !v.hasInit).map (·.id)
  tiles : ∀ space, Tiles 0 (layout.ranges space) (layout.width space)

variable {ds : List Declaration} {layout : Layout}

theorem Of.ofSurvey {s : Survey} (h : Survey.Of ds s) : Of ds (ofSurvey s) := by
  have hp := Placement.of_ofSurvey s
  exact {
    nodup := h.nodup
    sorted := h.sorted
    inputs := h.inputs
    inputIndices := by simpa [Layout.ofSurvey] using h.indices
    states := by
      rw [← h.states]
      exact hp.entries
    stateIndices := by simpa [Layout.ofSurvey] using hp.indices
    hasInit := fun v hv => by
      rw [(hp.flagged v hv).hasInit]
      exact decide_eq_decide.mpr (h.initialized v.id)
    hasNext := fun v hv => by
      rw [(hp.flagged v hv).hasNext]
      exact decide_eq_decide.mpr (h.updated v.id)
    space := fun v hv => (hp.flagged v hv).space
    dedicated := hp.dedicated
    tiles := fun space => by
      cases space with
      | state => exact hp.stateTiles
      | input => exact tiles_append.mpr ⟨_, h.tiles, hp.inputTiles⟩ }

/-- Building fails with the fault of the model, or yields its layout. -/
theorem build_spec (ds : List Declaration) :
    match Model.buildFault? ds with
    | some e => build ds = .error e
    | none => ∃ layout, build ds = .ok layout ∧ Of ds layout := by
  have hsurvey := Survey.ofDeclarations_spec ds
  unfold build
  cases hfault : Model.buildFault? ds with
  | some e =>
    rw [hfault] at hsurvey
    exact congrArg (ofSurvey <$> ·) hsurvey
  | none =>
    rw [hfault] at hsurvey
    obtain ⟨s, hs, hof⟩ := hsurvey
    exact ⟨ofSurvey s, congrArg (Layout.ofSurvey <$> ·) hs, .ofSurvey hof⟩

/-- A built layout comes from a survey of the model. -/
theorem exists_survey_of_build (h : build ds = .ok layout) :
    ∃ s, Survey.Of ds s ∧ Layout.ofSurvey s = layout := by
  have hspec := Survey.ofDeclarations_spec ds
  unfold build at h
  cases hfault : Model.buildFault? ds with
  | some e =>
    rw [hfault] at hspec
    rw [hspec] at h
    cases h
  | none =>
    rw [hfault] at hspec
    obtain ⟨s, hs, hof⟩ := hspec
    rw [hs] at h
    cases h
    exact ⟨s, hof, rfl⟩

theorem Of.of_build (h : build ds = .ok layout) : Of ds layout := by
  obtain ⟨s, hs, rfl⟩ := exists_survey_of_build h
  exact .ofSurvey hs

end Layout

end WitnessLift
