-- SUMMARY: Invariant of the first layout pass: it agrees with what the declarations say.
import WitnessLift.Proofs.Fault
import WitnessLift.Proofs.Layout.Reading
import WitnessLift.Proofs.Layout.Tiling

/-!
# The first pass

A survey of some declarations agrees with what they say as a whole. The empty survey does, a
declaration without a fault keeps it so, and a declaration with a fault ends the pass.
-/

namespace WitnessLift

/-- A variable without its place: its id, its width and its name. -/
def DeclaredVar.entry (v : DeclaredVar) : Id × Nat × Option String := (v.id, v.width.toNat, v.name)

/-- An input without its place. -/
def InputVar.entry (v : InputVar) : Id × Nat × Option String := (v.id, v.range.width, v.name)

namespace Survey

open Model hiding inputs states references widthOf

/-- The survey holds what the declarations, each with an id of its own, say. -/
structure Of (ds : List Declaration) (s : Survey) : Prop where
  nodup : (ds.map Declaration.id).Nodup
  sorted : Sorted ds
  declared : ∀ id, id ∈ s.declared ↔ id ∈ ds.map Declaration.id
  sorts : ∀ id, s.sorts[id]? = kindOf? ds id
  inputs : s.inputs.toList.map InputVar.entry = (Model.inputs ds).map DeclaredVar.entry
  indices : s.inputs.toList.map (·.index) = List.range s.inputs.size
  tiles : BitRange.Tiles 0 (s.inputs.toList.map (·.range)) s.inputWidth
  states : s.states.toList = Model.states ds
  stateIds : ∀ id, id ∈ s.stateIds ↔ id ∈ (Model.states ds).map (·.id)
  references : s.references.toList = Model.references ds
  initialized : ∀ id, id ∈ s.initialized ↔ id ∈ initTargets ds
  updated : ∀ id, id ∈ s.updated ↔ id ∈ nextTargets ds

variable {ds : List Declaration} {s : Survey} {d : Declaration}

theorem Of.empty : Of [] {} where
  nodup := List.nodup_nil
  sorted := by simp [Sorted]
  declared := by simp
  sorts := by simp [kindOf?]
  inputs := rfl
  indices := rfl
  tiles := rfl
  states := rfl
  stateIds := by simp [Model.states]
  references := rfl
  initialized := by simp [initTargets]
  updated := by simp [nextTargets]

/-! ## One declaration -/

/-- What a declaration without a fault makes of a survey, given the widths of the sorts. -/
def absorb (s : Survey) (width : Id → UInt32) : Declaration → Survey
  | .sort id kind => { s with sorts := s.sorts.insert id kind }
  | .input id sort name => s.addInput id (width sort) name
  | .state id sort name =>
    { s with states := s.states.push ⟨id, width sort, name⟩, stateIds := s.stateIds.insert id }
  | .init id target =>
    { s with
      references := s.references.push ⟨id, target⟩, initialized := s.initialized.insert target }
  | .next id target =>
    { s with references := s.references.push ⟨id, target⟩, updated := s.updated.insert target }
  | .other _ => s

section absorb

variable (s : Survey) (width : Id → UInt32) (d : Declaration)

theorem add_eq_absorb (h : ∀ sort, d.sort? = some sort → s.widthOf d.id sort = .ok (width sort)) :
    s.add d = .ok (s.absorb width d) := by
  cases d with
  | input id sort name =>
    have hwidth : s.widthOf id sort = .ok (width sort) := h sort rfl
    rw [add, hwidth]
    rfl
  | state id sort name =>
    have hwidth : s.widthOf id sort = .ok (width sort) := h sort rfl
    rw [add, hwidth]
    rfl
  | _ => rfl

theorem add_eq_error {sort : Id} {e : ModelError} (hsort : d.sort? = some sort)
    (h : s.widthOf d.id sort = .error e) : s.add d = .error e := by
  cases d with
  | input id sort name =>
    cases hsort
    have hwidth : s.widthOf id sort = .error e := h
    rw [add, hwidth]
    rfl
  | state id sort name =>
    cases hsort
    have hwidth : s.widthOf id sort = .error e := h
    rw [add, hwidth]
    rfl
  | _ => cases hsort

theorem declared_absorb : (s.absorb width d).declared = s.declared := by
  cases d <;> rfl

theorem sorts_absorb (h : s.sorts[d.id]? = none) (sort : Id) :
    (s.absorb width d).sorts[sort]? = s.sorts[sort]?.or (d.kindFor? sort) := by
  cases d with
  | sort id kind =>
    simp only [absorb, Std.TreeMap.getElem?_insert, Std.compare_eq_iff_eq, Declaration.kindFor?]
    split
    · next heq => rw [show s.sorts[sort]? = none from heq ▸ h, Option.none_or]
    · rw [Option.or_none]
  | _ => simp [absorb, addInput, Declaration.kindFor?]

theorem inputs_absorb :
    (s.absorb width d).inputs.toList.map InputVar.entry =
      s.inputs.toList.map InputVar.entry ++ (d.input? width).toList.map DeclaredVar.entry := by
  cases d <;> simp [absorb, addInput, Declaration.input?, InputVar.entry, DeclaredVar.entry]

theorem indices_absorb (h : s.inputs.toList.map (·.index) = List.range s.inputs.size) :
    (s.absorb width d).inputs.toList.map (·.index) =
      List.range (s.absorb width d).inputs.size := by
  cases d <;> simp [absorb, addInput, h, List.range_succ]

theorem tiles_absorb (h : BitRange.Tiles 0 (s.inputs.toList.map (·.range)) s.inputWidth) :
    BitRange.Tiles 0 ((s.absorb width d).inputs.toList.map (·.range))
      (s.absorb width d).inputWidth := by
  cases d with
  | input id sort name =>
    simp only [absorb, addInput, Array.toList_push, List.map_append, List.map_cons, List.map_nil]
    exact h.concat _
  | _ => exact h

theorem states_absorb :
    (s.absorb width d).states.toList = s.states.toList ++ (d.state? width).toList := by
  cases d <;> simp [absorb, addInput, Declaration.state?]

theorem mem_stateIds_absorb (id : Id) :
    id ∈ (s.absorb width d).stateIds ↔
      id ∈ s.stateIds ∨ id ∈ (d.state? width).toList.map (·.id) := by
  cases d <;> simp [absorb, addInput, Declaration.state?, or_comm, @eq_comm _ id]

theorem references_absorb :
    (s.absorb width d).references.toList = s.references.toList ++ d.reference?.toList := by
  cases d <;> simp [absorb, addInput, Declaration.reference?]

theorem mem_initialized_absorb (id : Id) :
    id ∈ (s.absorb width d).initialized ↔ id ∈ s.initialized ∨ d.initTarget? = some id := by
  cases d <;> simp [absorb, addInput, Declaration.initTarget?, or_comm]

theorem mem_updated_absorb (id : Id) :
    id ∈ (s.absorb width d).updated ↔ id ∈ s.updated ∨ d.nextTarget? = some id := by
  cases d <;> simp [absorb, addInput, Declaration.nextTarget?, or_comm]

end absorb

/-- The width of a sort in a survey is the width that the declarations give it. -/
theorem Of.widthOf_eq (h : Of ds s) (id sort : Id) :
    s.widthOf id sort =
      match kindOf? ds sort with
      | none => .error (.undeclaredSort id sort)
      | some .array => .error (.arraySort id sort)
      | some (.bitVec width) => .ok width := by
  rw [← h.sorts sort]
  rfl

theorem Of.absorb (h : Of ds s) (hd : fault? ds d = none) :
    Of (ds ++ [d]) ({ s with declared := s.declared.insert d.id }.absorb
      (Model.widthOf (ds ++ [d])) d) := by
  obtain ⟨hnew, -⟩ := fault?_eq_none_iff.mp hd
  -- The id is new, so it names no sort yet, and a kind for it changes that of no other sort.
  have hsorts : s.sorts[d.id]? = none := by
    rw [h.sorts, Option.eq_none_iff_forall_ne_some]
    exact fun kind hkind => hnew (mem_ids_of_kindOf? hkind)
  exact {
    nodup := by
      rw [List.map_append, List.nodup_append]
      refine ⟨h.nodup, by simp, ?_⟩
      rintro a ha b hb rfl
      exact hnew (List.mem_singleton.mp hb ▸ ha)
    sorted := h.sorted.append hd
    declared := by
      intro id
      rw [declared_absorb, Std.TreeSet.mem_insert, Std.compare_eq_iff_eq, h.declared,
        List.map_append, List.mem_append, List.map_singleton, List.mem_singleton, or_comm,
        @eq_comm _ id]
    sorts := by
      intro sort
      rw [kindOf?_append_singleton, ← h.sorts]
      refine sorts_absorb _ _ _ ?_ sort
      exact hsorts
    inputs := by
      rw [inputs_absorb, h.sorted.inputs_append, List.map_append, ← h.inputs]
    indices := indices_absorb _ _ _ h.indices
    tiles := tiles_absorb _ _ _ h.tiles
    states := by rw [states_absorb, h.sorted.states_append, ← h.states]
    stateIds := by
      intro id
      rw [mem_stateIds_absorb, h.sorted.states_append, List.map_append, List.mem_append,
        ← h.stateIds]
    references := by rw [references_absorb, references_append, ← h.references]
    initialized := by
      intro id
      rw [mem_initialized_absorb, mem_initTargets_append, ← h.initialized]
    updated := by
      intro id
      rw [mem_updated_absorb, mem_nextTargets_append, ← h.updated] }

theorem Of.step_of_fault (h : Of ds s) {e : ModelError} (hd : fault? ds d = some e) :
    s.step d = .error e := by
  unfold Survey.step
  simp only [h.declared]
  unfold fault? at hd
  split at hd
  · next hmem =>
    cases hd
    exact if_pos hmem
  · next hmem =>
    obtain ⟨sort, hsort, hkind⟩ := Option.bind_eq_some_iff.mp hd
    rw [if_neg hmem]
    apply add_eq_error _ _ hsort
    have hwidth : s.widthOf d.id sort = .error e := by
      rw [h.widthOf_eq]
      split at hkind <;> simp_all
    exact hwidth

theorem Of.step_of_no_fault (h : Of ds s) (hd : fault? ds d = none) :
    ∃ s', s.step d = .ok s' ∧ Of (ds ++ [d]) s' := by
  obtain ⟨hnew, hsort⟩ := fault?_eq_none_iff.mp hd
  refine ⟨_, ?_, h.absorb hd⟩
  unfold Survey.step
  simp only [h.declared, if_neg hnew]
  apply add_eq_absorb _ _ d
  intro sort hs
  obtain ⟨width, hkind⟩ := hsort sort hs
  have hwidth : s.widthOf d.id sort = .ok width := by rw [h.widthOf_eq, hkind]
  rw [Model.widthOf_eq (kindOf?_append_of_eq_some hkind)]
  exact hwidth

/-! ## All declarations -/

/-- The pass ends with the first fault, or with the survey of all declarations. -/
theorem Of.foldlM (h : Of ds s) (rest : List Declaration) :
    match firstFault? ds rest with
    | some e => rest.foldlM step s = .error e
    | none => ∃ s', rest.foldlM step s = .ok s' ∧ Of (ds ++ rest) s' := by
  -- The invariant is about all declarations so far, so it moves along with the survey.
  induction rest generalizing ds s with
  | nil => exact ⟨s, rfl, by rwa [List.append_nil]⟩
  | cons d rest ih =>
    rw [firstFault?, List.foldlM_cons]
    cases hd : fault? ds d with
    | some e =>
      rw [Option.some_or, h.step_of_fault hd]
      rfl
    | none =>
      obtain ⟨s', hs', hof⟩ := h.step_of_no_fault hd
      have hrest := ih hof
      rw [List.append_assoc, List.singleton_append] at hrest
      rw [Option.none_or, hs']
      exact hrest

/-- References are judged in their order, after all states are known. -/
theorem Of.checkReference (h : Of ds s) (r : Reference) :
    s.checkReference r = Fault.judge (badReference? ds r) () := by
  unfold Survey.checkReference badReference?
  simp only [h.stateIds]
  split <;> rfl

/-- Declarations without a fault are surveyed. -/
theorem ofDeclarations_spec (ds : List Declaration) :
    match buildFault? ds with
    | some e => ofDeclarations ds = .error e
    | none => ∃ s, ofDeclarations ds = .ok s ∧ Of ds s := by
  have hfold := Of.empty.foldlM ds
  unfold ofDeclarations buildFault?
  cases hfault : firstFault? [] ds with
  | some e =>
    rw [hfault] at hfold
    rw [Option.some_or, hfold]
    rfl
  | none =>
    rw [hfault] at hfold
    obtain ⟨s, hs, hof⟩ := hfold
    rw [List.nil_append] at hof
    have hcheck := Fault.forM_eq_judge (badReference? ds)
      fun r (_ : r ∈ Model.references ds) => hof.checkReference r
    rw [Option.none_or, hs]
    -- Only now are all states known that a reference may name.
    change match (Model.references ds).findSome? (badReference? ds) with
      | some e => (s.references.toList.forM s.checkReference >>= fun _ => pure s) = .error e
      | none => ∃ s', (s.references.toList.forM s.checkReference >>= fun _ => pure s) = .ok s' ∧
          Of ds s'
    rw [hof.references, hcheck]
    cases (Model.references ds).findSome? (badReference? ds) with
    | some e => rfl
    | none => exact ⟨s, rfl, hof⟩

end Survey

end WitnessLift
