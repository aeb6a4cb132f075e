-- SUMMARY: A model has a layout exactly if it is well-formed, and else its first fault is reported.
import WitnessLift.Proofs.Layout.Spaces

/-!
# Well-formed models

A model has a layout exactly if its ids are distinct, the sort of every variable is a bit-vector
sort that an earlier line declares, and every line that speaks of a state finds it somewhere.

Any other model is refused for its first fault. A declaration is judged by those before it, and the
lines that speak of states are judged only if all declarations are in order, wherever they stand.
-/

namespace WitnessLift

/-- Whether it matters where a declaration stands among others. A line that speaks of a state, or
introduces nothing that the layout knows, may stand anywhere. -/
def Declaration.isPositional : Declaration → Bool
  | .sort .. => true
  | .input .. => true
  | .state .. => true
  | _ => false

namespace Model

/-- The sort of every variable is a bit-vector sort that an earlier line declares. -/
def SortsFirst (ds : List Declaration) : Prop :=
  ∀ earlier d later, ds = earlier ++ d :: later → ∀ sort, d.sort? = some sort →
    ∃ width, Declaration.sort sort (.bitVec width) ∈ earlier

/-- Each declaration is in order behind those before it: its id is new, and the sort of a variable
is known. -/
structure InOrder (ds : List Declaration) : Prop where
  distinct : (ds.map Declaration.id).Nodup
  sortsFirst : SortsFirst ds

/-- Some line declares a state of this id. -/
def IsState (ds : List Declaration) (id : Id) : Prop :=
  ∃ sort name, Declaration.state id sort name ∈ ds

/-- What a model has to fulfil. Several lines may speak of one state. -/
structure WellFormed (ds : List Declaration) : Prop extends InOrder ds where
  resolved : ∀ r ∈ references ds, IsState ds r.state

/-- The fault of a declaration behind others. A repeated id counts before a sort. -/
inductive Misplaced (earlier : List Declaration) (d : Declaration) : ModelError → Prop where
  | duplicateId (repeated : d.id ∈ earlier.map Declaration.id) :
    Misplaced earlier d (.duplicateId d.id)
  | undeclaredSort {sort : Id} (fresh : d.id ∉ earlier.map Declaration.id)
    (uses : d.sort? = some sort) (undeclared : ∀ kind, Declaration.sort sort kind ∉ earlier) :
    Misplaced earlier d (.undeclaredSort d.id sort)
  | arraySort {sort : Id} (fresh : d.id ∉ earlier.map Declaration.id)
    (uses : d.sort? = some sort) (array : Declaration.sort sort .array ∈ earlier) :
    Misplaced earlier d (.arraySort d.id sort)

/-- The fault that a model is refused for. References wait until all declarations are in order. -/
inductive FirstFault (ds : List Declaration) : ModelError → Prop where
  | declaration {earlier later : List Declaration} {d : Declaration} {e : ModelError}
    (split : ds = earlier ++ d :: later) (before : InOrder earlier)
    (misplaced : Misplaced earlier d e) : FirstFault ds e
  | reference {earlier later : List Reference} {r : Reference} (before : InOrder ds)
    (split : references ds = earlier ++ r :: later) (resolved : ∀ q ∈ earlier, IsState ds q.state)
    (unresolved : ¬ IsState ds r.state) : FirstFault ds (.unknownState r.id r.state)

variable {ds ds' : List Declaration} {d : Declaration} {e : ModelError}

/-! ## Declarations in order -/

theorem sortsFirst_concat :
    SortsFirst (ds ++ [d]) ↔
      SortsFirst ds ∧
        ∀ sort, d.sort? = some sort → ∃ width, Declaration.sort sort (.bitVec width) ∈ ds := by
  constructor
  · intro h
    refine ⟨?_, h ds d [] rfl⟩
    rintro earlier e later rfl
    exact h earlier e (later ++ [d]) (by simp)
  · rintro ⟨hds, hd⟩ earlier e later hsplit
    rcases List.eq_nil_or_concat later with rfl | ⟨later, last, rfl⟩
    · obtain ⟨rfl, hlast⟩ := List.append_inj' hsplit rfl
      obtain rfl := List.singleton_inj.mp hlast
      exact hd
    · rw [List.concat_eq_append, ← List.cons_append, ← List.append_assoc] at hsplit
      exact hds earlier e later (List.append_inj' hsplit rfl).1

/-- Only the declarations whose place matters decide whether sorts come first. -/
theorem sortsFirst_filter : SortsFirst (ds.filter Declaration.isPositional) ↔ SortsFirst ds := by
  induction ds using List.reverseRecOn with
  | nil => rfl
  | append_singleton ds d ih =>
    rw [List.filter_append, sortsFirst_concat, ← ih]
    cases hd : d.isPositional with
    | true =>
      rw [List.filter_cons_of_pos hd, List.filter_nil, sortsFirst_concat]
      simp [List.mem_filter, Declaration.isPositional]
    | false =>
      have hsort : d.sort? = none := by
        cases d <;> first | rfl | cases hd
      rw [List.filter_cons_of_neg (by simp [hd]), List.filter_nil, List.append_nil]
      simp [hsort]

theorem inOrder_nil : InOrder [] where
  distinct := List.nodup_nil
  sortsFirst := by simp [SortsFirst]

theorem inOrder_concat :
    InOrder (ds ++ [d]) ↔
      InOrder ds ∧ d.id ∉ ds.map Declaration.id ∧
        ∀ sort, d.sort? = some sort → ∃ width, Declaration.sort sort (.bitVec width) ∈ ds := by
  have hdistinct : ((ds ++ [d]).map Declaration.id).Nodup ↔
      d.id ∉ ds.map Declaration.id ∧ (ds.map Declaration.id).Nodup := by
    rw [List.map_append, List.map_singleton, (List.perm_append_singleton _ _).nodup_iff,
      List.nodup_cons]
  constructor
  · rintro ⟨hnodup, hsorts⟩
    obtain ⟨hnew, hnodup⟩ := hdistinct.mp hnodup
    obtain ⟨hsorts, hd⟩ := sortsFirst_concat.mp hsorts
    exact ⟨⟨hnodup, hsorts⟩, hnew, hd⟩
  · rintro ⟨⟨hnodup, hsorts⟩, hnew, hd⟩
    exact ⟨hdistinct.mpr ⟨hnew, hnodup⟩, sortsFirst_concat.mpr ⟨hsorts, hd⟩⟩

/-! ## The fault of a declaration -/

theorem fault?_eq_some_iff (h : (ds.map Declaration.id).Nodup) :
    fault? ds d = some e ↔ Misplaced ds d e := by
  constructor
  · intro hfault
    unfold fault? at hfault
    split at hfault
    · next hmem =>
      cases hfault
      exact .duplicateId hmem
    · next hmem =>
      obtain ⟨sort, hsort, hkind⟩ := Option.bind_eq_some_iff.mp hfault
      split at hkind
      · next hnone =>
        cases hkind
        refine .undeclaredSort hmem hsort fun kind hdeclared => ?_
        rw [(kindOf?_eq_some_iff h).mpr hdeclared] at hnone
        cases hnone
      · next harray =>
        cases hkind
        exact .arraySort hmem hsort ((kindOf?_eq_some_iff h).mp harray)
      · cases hkind
  · intro hmisplaced
    cases hmisplaced with
    | duplicateId hmem => rw [fault?, if_pos hmem]
    | undeclaredSort hnew hsort hundeclared =>
      have hnone := Option.eq_none_iff_forall_ne_some.mpr fun kind hkind =>
        hundeclared kind ((kindOf?_eq_some_iff h).mp hkind)
      simp [fault?, hnew, hsort, hnone]
    | arraySort hnew hsort harray =>
      simp [fault?, hnew, hsort, (kindOf?_eq_some_iff h).mpr harray]

/-! ## The first fault of all declarations -/

theorem firstFault?_append (earlier ds ds' : List Declaration) :
    firstFault? earlier (ds ++ ds') =
      (firstFault? earlier ds).or (firstFault? (earlier ++ ds) ds') := by
  induction ds generalizing earlier with
  | nil => simp [firstFault?]
  | cons d ds ih =>
    rw [List.cons_append, firstFault?, firstFault?, ih, Option.or_assoc, List.append_assoc,
      List.singleton_append]

theorem firstFault?_eq_none_iff : firstFault? [] ds = none ↔ InOrder ds := by
  induction ds using List.reverseRecOn with
  | nil => simpa [firstFault?] using inOrder_nil
  | append_singleton ds d ih =>
    rw [firstFault?_append, Option.or_eq_none_iff, ih, inOrder_concat, and_congr_right_iff]
    intro hds
    simp only [firstFault?, List.nil_append, Option.or_none, fault?_eq_none_iff,
      kindOf?_eq_some_iff hds.distinct]

theorem firstFault?_eq_some_iff :
    firstFault? [] ds = some e ↔
      ∃ earlier d later, ds = earlier ++ d :: later ∧ InOrder earlier ∧ Misplaced earlier d e := by
  constructor
  · intro h
    induction ds using List.reverseRecOn with
    | nil => cases h
    | append_singleton ds d ih =>
      rw [firstFault?_append] at h
      rcases Option.or_eq_some_iff.mp h with hds | ⟨hds, hd⟩
      · obtain ⟨earlier, d', later, rfl, hbefore, hmisplaced⟩ := ih hds
        exact ⟨earlier, d', later ++ [d], by simp, hbefore, hmisplaced⟩
      · have hbefore := firstFault?_eq_none_iff.mp hds
        simp only [firstFault?, List.nil_append, Option.or_none] at hd
        exact ⟨ds, d, [], rfl, hbefore, (fault?_eq_some_iff hbefore.distinct).mp hd⟩
  · rintro ⟨earlier, d, later, rfl, hbefore, hmisplaced⟩
    rw [firstFault?_append, firstFault?_eq_none_iff.mpr hbefore, Option.none_or, List.nil_append,
      firstFault?, (fault?_eq_some_iff hbefore.distinct).mpr hmisplaced, Option.some_or]

/-! ## References -/

theorem mem_ids_states {id : Id} : id ∈ (states ds).map (·.id) ↔ IsState ds id := by
  simp only [states, List.mem_map, List.mem_filterMap, IsState]
  constructor
  · rintro ⟨v, ⟨d, hd, hv⟩, rfl⟩
    cases d with
    | state id sort name =>
      cases hv
      exact ⟨sort, name, hd⟩
    | _ => cases hv
  · rintro ⟨sort, name, hd⟩
    exact ⟨_, ⟨_, hd, rfl⟩, rfl⟩

theorem badReference?_eq_none_iff {r : Reference} :
    badReference? ds r = none ↔ IsState ds r.state := by
  rw [badReference?, ← mem_ids_states]
  split <;> simp_all

theorem badReference?_eq_some_iff {r : Reference} :
    badReference? ds r = some e ↔ ¬ IsState ds r.state ∧ e = .unknownState r.id r.state := by
  rw [badReference?, ← mem_ids_states]
  split <;> simp_all [eq_comm]

theorem buildFault?_eq_none_iff : buildFault? ds = none ↔ WellFormed ds := by
  rw [buildFault?, Option.or_eq_none_iff, firstFault?_eq_none_iff, List.findSome?_eq_none_iff]
  simp only [badReference?_eq_none_iff]
  exact ⟨fun h => ⟨h.1, h.2⟩, fun h => ⟨h.toInOrder, h.resolved⟩⟩

theorem buildFault?_eq_some_iff : buildFault? ds = some e ↔ FirstFault ds e := by
  rw [buildFault?, Option.or_eq_some_iff, firstFault?_eq_some_iff, firstFault?_eq_none_iff,
    List.findSome?_eq_some_iff]
  simp only [badReference?_eq_none_iff, badReference?_eq_some_iff]
  constructor
  · rintro (⟨earlier, d, later, hsplit, hbefore, hmisplaced⟩ |
      ⟨hbefore, earlier, r, later, hsplit, ⟨hunresolved, rfl⟩, hresolved⟩)
    · exact .declaration hsplit hbefore hmisplaced
    · exact .reference hbefore hsplit hresolved hunresolved
  · rintro (⟨hsplit, hbefore, hmisplaced⟩ | ⟨hbefore, hsplit, hresolved, hunresolved⟩)
    · exact .inl ⟨_, _, _, hsplit, hbefore, hmisplaced⟩
    · exact .inr ⟨hbefore, _, _, _, hsplit, ⟨hunresolved, rfl⟩, hresolved⟩

/-! ## Moves and insertions -/

/-- Whether a model is well formed does not depend on where its references and the lines without a
meaning for the layout stand. -/
theorem WellFormed.perm (h : WellFormed ds) (hperm : ds.Perm ds')
    (hfilter : ds.filter Declaration.isPositional = ds'.filter Declaration.isPositional) :
    WellFormed ds' where
  distinct := (hperm.map _).nodup_iff.mp h.distinct
  sortsFirst := by
    rw [← sortsFirst_filter, ← hfilter, sortsFirst_filter]
    exact h.sortsFirst
  resolved := by
    intro r hr
    obtain ⟨sort, name, hstate⟩ := h.resolved r ((hperm.filterMap _).mem_iff.mpr hr)
    exact ⟨sort, name, hperm.mem_iff.mp hstate⟩

/-- A line more that speaks of a state. -/
theorem WellFormed.insert_reference {front back : List Declaration} (h : WellFormed (front ++ back))
    {r : Reference} (hd : d.reference? = some r)
    (hnew : d.id ∉ (front ++ back).map Declaration.id) (hr : IsState (front ++ back) r.state) :
    WellFormed (front ++ d :: back) := by
  have hperm : (front ++ d :: back).Perm (d :: (front ++ back)) := List.perm_middle
  have hpositional : d.isPositional = false := by
    cases d <;> first | rfl | cases hd
  exact {
    distinct := by
      rw [(hperm.map _).nodup_iff, List.map_cons, List.nodup_cons]
      exact ⟨hnew, h.distinct⟩
    sortsFirst := by
      rw [← sortsFirst_filter, List.filter_append, List.filter_cons_of_neg (by simp [hpositional]),
        ← List.filter_append, sortsFirst_filter]
      exact h.sortsFirst
    resolved := by
      intro q hq
      have hstate : IsState (front ++ back) q.state := by
        rw [references, (hperm.filterMap _).mem_iff, List.filterMap_cons_some hd,
          List.mem_cons] at hq
        rcases hq with rfl | hq
        · exact hr
        · exact h.resolved q hq
      obtain ⟨sort, name, hmem⟩ := hstate
      exact ⟨sort, name, hperm.mem_iff.mpr (List.mem_cons_of_mem d hmem)⟩ }

end Model

/-! ## Building -/

namespace Layout

variable {ds : List Declaration}

theorem exists_build_eq_ok_iff : (∃ layout, build ds = .ok layout) ↔ Model.WellFormed ds := by
  have hspec := build_spec ds
  rw [← Model.buildFault?_eq_none_iff]
  cases hfault : Model.buildFault? ds with
  | some e => simp_all
  | none =>
    rw [hfault] at hspec
    obtain ⟨layout, hbuild, -⟩ := hspec
    simp [hbuild]

theorem build_eq_error_iff {e : ModelError} : build ds = .error e ↔ Model.FirstFault ds e := by
  have hspec := build_spec ds
  rw [← Model.buildFault?_eq_some_iff]
  cases hfault : Model.buildFault? ds with
  | some e' => simp_all
  | none =>
    rw [hfault] at hspec
    obtain ⟨layout, hbuild, -⟩ := hspec
    simp [hbuild]

/-- A model has a layout exactly if it is well formed, and is otherwise refused for its first
fault. A line more about a state that is already spoken of is accepted anywhere. -/
theorem build_accepts_iff (ds : List Declaration) :
    ((∃ layout, build ds = .ok layout) ↔ Model.WellFormed ds) ∧
      (∀ e, build ds = .error e ↔ Model.FirstFault ds e) ∧
      ∀ front back d r, ds = front ++ back → Model.WellFormed ds → d.reference? = some r →
        d.id ∉ ds.map Declaration.id → r.state ∈ (Model.references ds).map (·.state) →
        ∃ layout, build (front ++ d :: back) = .ok layout := by
  refine ⟨exists_build_eq_ok_iff, fun e => build_eq_error_iff, ?_⟩
  rintro front back d r rfl h hd hnew hr
  obtain ⟨q, hq, hstate⟩ := List.mem_map.mp hr
  exact exists_build_eq_ok_iff.mpr (h.insert_reference hd hnew (hstate ▸ h.resolved q hq))

theorem build_accepts_iff_mixed :
    Model.WellFormed Model.mixed ∧
      ∃ layout, build (Model.mixed.take 2 ++ .next 11 9 :: Model.mixed.drop 2) = .ok layout := by
  obtain ⟨haccepts, -, hrepeated⟩ := build_accepts_iff Model.mixed
  have hmixed := haccepts.mp ⟨mixed, build_mixed⟩
  exact ⟨hmixed, hrepeated _ _ (.next 11 9) ⟨11, 9⟩ rfl hmixed rfl (by decide) (by decide)⟩

-- The repeated id counts, although the reference before it leads nowhere.
example : build [.next 1 7, .other 2, .other 2] = .error (.duplicateId 2) := by cbv

end Layout

end WitnessLift
