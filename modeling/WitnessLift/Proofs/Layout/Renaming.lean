-- SUMMARY: Layouts commute with injective renamings of ids.
import Mathlib.Data.Set.Function
import WitnessLift.Proofs.Layout.Agreement

/-!
# Renaming ids

Ids only tell lines apart. If the ids of a model are exchanged for others, different ones for
different ones, its layout or its fault is the same with the ids exchanged.
-/

namespace WitnessLift

variable {f : Id → Id}

/-! ## Exchanged ids -/

namespace Declaration

/-- A declaration with its ids exchanged. -/
def rename (f : Id → Id) : Declaration → Declaration
  | .sort id kind => .sort (f id) kind
  | .input id sortId name => .input (f id) (f sortId) name
  | .state id sortId name => .state (f id) (f sortId) name
  | .init id target => .init (f id) (f target)
  | .next id target => .next (f id) (f target)
  | .other id => .other (f id)

/-- The ids that occur in a declaration: its own, and those it refers to. -/
def ids : Declaration → List Id
  | .sort id _ => [id]
  | .input id sortId _ => [id, sortId]
  | .state id sortId _ => [id, sortId]
  | .init id target => [id, target]
  | .next id target => [id, target]
  | .other id => [id]

variable {d : Declaration}

@[simp] theorem id_rename : (d.rename f).id = f d.id := by
  cases d <;> rfl

@[simp] theorem sort?_rename : (d.rename f).sort? = d.sort?.map f := by
  cases d <;> rfl

@[simp] theorem initTarget?_rename : (d.rename f).initTarget? = d.initTarget?.map f := by
  cases d <;> rfl

@[simp] theorem nextTarget?_rename : (d.rename f).nextTarget? = d.nextTarget?.map f := by
  cases d <;> rfl

theorem input?_rename (width : Id → UInt32) :
    (d.rename f).input? width = (d.input? fun sort => width (f sort)).map (DeclaredVar.rename f) := by
  cases d <;> rfl

theorem state?_rename (width : Id → UInt32) :
    (d.rename f).state? width = (d.state? fun sort => width (f sort)).map (DeclaredVar.rename f) := by
  cases d <;> rfl

theorem id_mem_ids : d.id ∈ d.ids := by
  cases d <;> simp [ids, Declaration.id]

theorem sort_mem_ids {sort : Id} (h : d.sort? = some sort) : sort ∈ d.ids := by
  cases d <;> simp_all [ids, sort?]

theorem initTarget_mem_ids {target : Id} (h : d.initTarget? = some target) : target ∈ d.ids := by
  cases d <;> simp_all [ids, initTarget?]

theorem nextTarget_mem_ids {target : Id} (h : d.nextTarget? = some target) : target ∈ d.ids := by
  cases d <;> simp_all [ids, nextTarget?]

theorem reference_mem_ids {r : Reference} (h : d.reference? = some r) : r.state ∈ d.ids := by
  cases d <;> cases h <;> simp [ids]

end Declaration

/-- A reference with its ids exchanged. -/
def Reference.rename (f : Id → Id) (r : Reference) : Reference := ⟨f r.id, f r.state⟩

theorem Declaration.reference?_rename {d : Declaration} :
    (d.rename f).reference? = d.reference?.map (Reference.rename f) := by
  cases d <;> rfl

/-- A model error with the ids of the model in it exchanged. -/
def ModelError.rename (f : Id → Id) : ModelError → ModelError
  | .malformed errors => .malformed errors
  | .undeclaredSort id sort => .undeclaredSort (f id) (f sort)
  | .unknownState id target => .unknownState (f id) (f target)
  | .arraySort id sort => .arraySort (f id) (f sort)
  | .duplicateId id => .duplicateId (f id)
  | .unreadable cause => .unreadable cause

/-! ## Declarations -/

namespace Model

/-- The ids that occur in a model. -/
def ids (ds : List Declaration) : List Id := ds.flatMap Declaration.ids

/-- All ids that occur in a model are of a set. -/
def Within (S : Set Id) (ds : List Declaration) : Prop := ∀ d ∈ ds, ∀ id ∈ d.ids, id ∈ S

variable {S : Set Id} {ds : List Declaration}

theorem within_ids (ds : List Declaration) : Within {id | id ∈ ids ds} ds := fun d hd _ hid =>
  List.mem_flatMap.mpr ⟨d, hd, hid⟩

/-- An exchange that keeps ids apart changes no membership. -/
theorem mem_map_iff (hf : Set.InjOn f S) {l : List Id} (hl : ∀ id ∈ l, id ∈ S) {id : Id}
    (hid : id ∈ S) : f id ∈ l.map f ↔ id ∈ l := by
  rw [List.mem_map]
  exact hf.mem_image_iff hl hid

theorem kindOf?_cons {d : Declaration} {sort : Id} :
    kindOf? (d :: ds) sort = (d.kindFor? sort).or (kindOf? ds sort) := by
  rw [kindOf?, List.findSome?_cons]
  cases d.kindFor? sort <;> rfl

section rename

variable (hf : Set.InjOn f S) (h : Within S ds)

include h in
theorem Within.id_mem : ∀ id ∈ ds.map Declaration.id, id ∈ S := by
  intro id hid
  obtain ⟨d, hd, rfl⟩ := List.mem_map.mp hid
  exact h d hd _ Declaration.id_mem_ids

include h in
theorem Within.states_mem : ∀ v ∈ states ds, v.id ∈ S := by
  intro v hv
  obtain ⟨d, hd, hstate⟩ := List.mem_filterMap.mp hv
  refine h.id_mem _ (List.mem_map.mpr ⟨d, hd, ?_⟩)
  cases d <;> cases hstate
  rfl

include hf h

theorem mem_ids_rename {id : Id} (hid : id ∈ S) :
    f id ∈ (ds.map (Declaration.rename f)).map Declaration.id ↔ id ∈ ds.map Declaration.id := by
  have hids : (ds.map (Declaration.rename f)).map Declaration.id = (ds.map Declaration.id).map f := by
    simp
  rw [hids, mem_map_iff hf h.id_mem hid]

theorem kindOf?_rename {sort : Id} (hsort : sort ∈ S) :
    kindOf? (ds.map (Declaration.rename f)) (f sort) = kindOf? ds sort := by
  induction ds with
  | nil => rfl
  | cons d ds ih =>
    obtain ⟨hd, hds⟩ := List.forall_mem_cons.mp h
    have hfor : (d.rename f).kindFor? (f sort) = d.kindFor? sort := by
      cases d with
      | sort id kind =>
        have hid : id ∈ S := hd _ Declaration.id_mem_ids
        simp only [Declaration.rename, Declaration.kindFor?, hf.eq_iff hid hsort]
      | _ => rfl
    rw [List.map_cons, kindOf?_cons, kindOf?_cons, hfor, ih hds]

theorem widthOf_rename {sort : Id} (hsort : sort ∈ S) :
    widthOf (ds.map (Declaration.rename f)) (f sort) = widthOf ds sort := by
  rw [widthOf, widthOf, kindOf?_rename hf h hsort]

/-- The variables of a renamed model are those of the model with their ids exchanged. -/
theorem filterMap_rename {read : (Id → UInt32) → Declaration → Option DeclaredVar}
    (hrename : ∀ d width,
      read width (d.rename f) = (read (fun sort => width (f sort)) d).map (DeclaredVar.rename f))
    (hcongr : ∀ {d g g'}, (∀ sort, d.sort? = some sort → g sort = g' sort) → read g d = read g' d) :
    (ds.map (Declaration.rename f)).filterMap (read (widthOf (ds.map (Declaration.rename f)))) =
      (ds.filterMap (read (widthOf ds))).map (DeclaredVar.rename f) := by
  rw [List.filterMap_map, List.map_filterMap]
  refine List.filterMap_congr fun d hd => ?_
  rw [Function.comp_apply, hrename]
  congr 1
  exact hcongr fun sort hsort =>
    widthOf_rename hf h (h d hd _ (Declaration.sort_mem_ids hsort))

theorem inputs_rename :
    inputs (ds.map (Declaration.rename f)) = (inputs ds).map (DeclaredVar.rename f) :=
  filterMap_rename hf h (fun _ => Declaration.input?_rename) Declaration.input?_congr

theorem states_rename :
    states (ds.map (Declaration.rename f)) = (states ds).map (DeclaredVar.rename f) :=
  filterMap_rename hf h (fun _ => Declaration.state?_rename) Declaration.state?_congr

/-- What the lines of a renamed model refer to is what the lines of the model refer to. -/
theorem mem_filterMap_rename {refer : Declaration → Option Id}
    (hrename : ∀ d, refer (d.rename f) = (refer d).map f)
    (hids : ∀ d target, refer d = some target → target ∈ d.ids) {id : Id} (hid : id ∈ S) :
    f id ∈ (ds.map (Declaration.rename f)).filterMap refer ↔ id ∈ ds.filterMap refer := by
  have htargets : (ds.map (Declaration.rename f)).filterMap refer =
      (ds.filterMap refer).map f := by
    simp [List.filterMap_map, List.map_filterMap, hrename]
  rw [htargets, mem_map_iff hf ?_ hid]
  intro target htarget
  obtain ⟨d, hd, hsome⟩ := List.mem_filterMap.mp htarget
  exact h d hd _ (hids d target hsome)

theorem agreeUpTo_rename : AgreeUpTo f ds (ds.map (Declaration.rename f)) where
  inputs := inputs_rename hf h
  states := states_rename hf h
  initialized := fun v hv =>
    mem_filterMap_rename hf h (fun _ => Declaration.initTarget?_rename)
      (fun _ _ => Declaration.initTarget_mem_ids) (h.states_mem v hv)
  updated := fun v hv =>
    mem_filterMap_rename hf h (fun _ => Declaration.nextTarget?_rename)
      (fun _ _ => Declaration.nextTarget_mem_ids) (h.states_mem v hv)

/-! ## Faults -/

/-- A renamed declaration has the fault of the declaration, with its ids exchanged. -/
theorem fault?_rename {d : Declaration} (hd : ∀ id ∈ d.ids, id ∈ S) :
    fault? (ds.map (Declaration.rename f)) (d.rename f) =
      (fault? ds d).map (ModelError.rename f) := by
  simp only [fault?, Declaration.id_rename, Declaration.sort?_rename,
    mem_ids_rename hf h (hd _ Declaration.id_mem_ids)]
  split
  · rfl
  · cases hsort : d.sort? with
    | none => rfl
    | some sort =>
      simp only [Option.map_some, Option.bind_some,
        kindOf?_rename hf h (hd _ (Declaration.sort_mem_ids hsort))]
      rcases kindOf? ds sort with _ | _ | _ <;> rfl

theorem badReference?_rename {r : Reference} (hr : r.state ∈ S) :
    badReference? (ds.map (Declaration.rename f)) (r.rename f) =
      (badReference? ds r).map (ModelError.rename f) := by
  have hstates : (states (ds.map (Declaration.rename f))).map (·.id) =
      ((states ds).map (·.id)).map f := by
    rw [states_rename hf h, List.map_map, List.map_map]
    rfl
  have hmem : (r.rename f).state ∈ (states (ds.map (Declaration.rename f))).map (·.id) ↔
      r.state ∈ (states ds).map (·.id) := by
    rw [hstates]
    exact mem_map_iff hf (List.forall_mem_map.mpr h.states_mem) hr
  simp only [badReference?, hmem]
  split <;> rfl

omit h in
theorem firstFault?_rename {rest : List Declaration} (h : Within S ds) (hrest : Within S rest) :
    firstFault? (ds.map (Declaration.rename f)) (rest.map (Declaration.rename f)) =
      (firstFault? ds rest).map (ModelError.rename f) := by
  induction rest generalizing ds with
  | nil => rfl
  | cons d rest ih =>
    obtain ⟨hd, hrest⟩ := List.forall_mem_cons.mp hrest
    have hmore : Within S (ds ++ [d]) := by
      intro e he
      rcases List.mem_append.mp he with he | he
      · exact h e he
      · exact List.mem_singleton.mp he ▸ hd
    have hmap : ds.map (Declaration.rename f) ++ [d.rename f] =
        (ds ++ [d]).map (Declaration.rename f) := by simp
    rw [List.map_cons, firstFault?, firstFault?, fault?_rename hf h hd, hmap, ih hmore hrest,
      Option.map_or]

theorem findSome?_badReference?_rename {rs : List Reference} (hrs : ∀ r ∈ rs, r.state ∈ S) :
    (rs.map (Reference.rename f)).findSome? (badReference? (ds.map (Declaration.rename f))) =
      (rs.findSome? (badReference? ds)).map (ModelError.rename f) := by
  induction rs with
  | nil => rfl
  | cons r rs ih =>
    obtain ⟨hr, hrs⟩ := List.forall_mem_cons.mp hrs
    rw [List.map_cons, List.findSome?_cons, List.findSome?_cons, badReference?_rename hf h hr,
      ih hrs]
    cases badReference? ds r <;> rfl

/-- A renamed model is refused for the fault of the model, with its ids exchanged. -/
theorem buildFault?_rename :
    buildFault? (ds.map (Declaration.rename f)) = (buildFault? ds).map (ModelError.rename f) := by
  have hreferences : references (ds.map (Declaration.rename f)) =
      (references ds).map (Reference.rename f) := by
    simp [references, List.filterMap_map, List.map_filterMap, Declaration.reference?_rename]
  have hstates : ∀ r ∈ references ds, r.state ∈ S := by
    intro r hr
    obtain ⟨d, hd, hsome⟩ := List.mem_filterMap.mp hr
    exact h d hd _ (Declaration.reference_mem_ids hsome)
  have hfirst : firstFault? [] (ds.map (Declaration.rename f)) =
      (firstFault? [] ds).map (ModelError.rename f) := by
    have hnil : Within S [] := fun _ hd => by cases hd
    exact firstFault?_rename hf hnil h
  rw [buildFault?, buildFault?, hfirst, hreferences, findSome?_badReference?_rename hf h hstates,
    Option.map_or]

end rename

end Model

/-! ## Building -/

namespace Layout

/-- A model whose ids are exchanged for others, different ones for different ones, has the layout
or the fault of the model with the ids exchanged. -/
theorem build_rename {S : Set Id} {ds : List Declaration} (hf : Set.InjOn f S)
    (h : Model.Within S ds) :
    build (ds.map (Declaration.rename f)) =
      ((build ds).map (rename f)).mapError (ModelError.rename f) := by
  have hspec := build_spec ds
  have hspec' := build_spec (ds.map (Declaration.rename f))
  rw [Model.buildFault?_rename hf h] at hspec'
  cases hfault : Model.buildFault? ds with
  | some e =>
    rw [hfault] at hspec hspec'
    rw [hspec]
    exact hspec'
  | none =>
    rw [hfault] at hspec hspec'
    obtain ⟨layout, hbuild, -⟩ := hspec
    obtain ⟨layout', hbuild', -⟩ := hspec'
    rw [hbuild', build_agree hbuild hbuild' (Model.agreeUpTo_rename hf h), hbuild]
    rfl

end Layout

end WitnessLift
