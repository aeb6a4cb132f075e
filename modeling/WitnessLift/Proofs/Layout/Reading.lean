-- SUMMARY: What the declarations of a model say as a whole, and the fault of a declaration.
import Mathlib.Data.List.Basic
import WitnessLift.Layout.Build

/-!
# Reading a model

What the declarations of a model say as a whole, without a pass over them: the kinds of the sorts,
the inputs and states with the widths of their sorts, and the states that other lines speak of. A
fault of a declaration is judged by the declarations before it.
-/

namespace WitnessLift

/-! ## One declaration -/

namespace Declaration

/-- The sort that a variable is declared with. -/
def sort? : Declaration → Option Id
  | .input _ sortId _ => some sortId
  | .state _ sortId _ => some sortId
  | _ => none

/-- The kind that a declaration gives to a sort. -/
def kindFor? (sortId : Id) : Declaration → Option SortKind
  | .sort id kind => if id = sortId then some kind else none
  | _ => none

/-- The input that a declaration introduces, given the widths of the sorts. -/
def input? (width : Id → UInt32) : Declaration → Option DeclaredVar
  | .input id sortId name => some ⟨id, width sortId, name⟩
  | _ => none

/-- The state that a declaration introduces, given the widths of the sorts. -/
def state? (width : Id → UInt32) : Declaration → Option DeclaredVar
  | .state id sortId name => some ⟨id, width sortId, name⟩
  | _ => none

/-- What a declaration says about a state. -/
def reference? : Declaration → Option Reference
  | .init id target => some ⟨id, target⟩
  | .next id target => some ⟨id, target⟩
  | _ => none

/-- The state that a declaration gives an initial value. -/
def initTarget? : Declaration → Option Id
  | .init _ target => some target
  | _ => none

/-- The state that a declaration updates. -/
def nextTarget? : Declaration → Option Id
  | .next _ target => some target
  | _ => none

variable {d : Declaration} {f g : Id → UInt32}

theorem kindFor?_eq_some_iff {sortId : Id} {kind : SortKind} :
    d.kindFor? sortId = some kind ↔ d = .sort sortId kind := by
  cases d with
  | sort id k => simp [kindFor?]
  | _ => simp [kindFor?]

/-- A variable is read alike wherever its sort has the same width. -/
theorem input?_congr (h : ∀ sort, d.sort? = some sort → f sort = g sort) :
    d.input? f = d.input? g := by
  cases d <;> simp_all [input?, sort?]

theorem state?_congr (h : ∀ sort, d.sort? = some sort → f sort = g sort) :
    d.state? f = d.state? g := by
  cases d <;> simp_all [state?, sort?]

end Declaration

/-! ## All declarations -/

namespace Model

/-- The kind of a sort. -/
def kindOf? (ds : List Declaration) (sort : Id) : Option SortKind :=
  ds.findSome? (·.kindFor? sort)

/-- The width of a bit-vector sort. -/
def widthOf (ds : List Declaration) (sort : Id) : UInt32 :=
  match kindOf? ds sort with
  | some (.bitVec width) => width
  | _ => 0

/-- The inputs, in the order of their declarations. -/
def inputs (ds : List Declaration) : List DeclaredVar := ds.filterMap (·.input? (widthOf ds))

/-- The states, in the order of their declarations. -/
def states (ds : List Declaration) : List DeclaredVar := ds.filterMap (·.state? (widthOf ds))

/-- The lines that speak of states. -/
def references (ds : List Declaration) : List Reference := ds.filterMap Declaration.reference?

/-- The ids that `init` lines name. -/
def initTargets (ds : List Declaration) : List Id := ds.filterMap Declaration.initTarget?

/-- The ids that `next` lines name. -/
def nextTargets (ds : List Declaration) : List Id := ds.filterMap Declaration.nextTarget?

/-- Every variable has a bit-vector sort. -/
def Sorted (ds : List Declaration) : Prop :=
  ∀ d ∈ ds, ∀ sort, d.sort? = some sort → ∃ width, kindOf? ds sort = some (.bitVec width)

/-! ## Faults -/

/-- What is wrong with a declaration that stands behind others. -/
def fault? (earlier : List Declaration) (d : Declaration) : Option ModelError :=
  if d.id ∈ earlier.map Declaration.id then some (.duplicateId d.id)
  else d.sort?.bind fun sort =>
    match kindOf? earlier sort with
    | none => some (.undeclaredSort d.id sort)
    | some .array => some (.arraySort d.id sort)
    | some (.bitVec _) => none

/-- The first fault of declarations that stand behind others. -/
def firstFault? (earlier : List Declaration) : List Declaration → Option ModelError
  | [] => none
  | d :: rest => (fault? earlier d).or (firstFault? (earlier ++ [d]) rest)

/-- What is wrong with a line that speaks of a state. -/
def badReference? (ds : List Declaration) (r : Reference) : Option ModelError :=
  if r.state ∈ (states ds).map (·.id) then none else some (.unknownState r.id r.state)

/-- What keeps declarations from having a layout. References are judged last. -/
def buildFault? (ds : List Declaration) : Option ModelError :=
  (firstFault? [] ds).or ((references ds).findSome? (badReference? ds))

variable {ds : List Declaration} {d : Declaration} {sort : Id} {kind : SortKind} {width : UInt32}

/-- A declaration without a fault has a new id, and its sort is a bit-vector sort. -/
theorem fault?_eq_none_iff :
    fault? ds d = none ↔ d.id ∉ ds.map Declaration.id ∧
      ∀ sort, d.sort? = some sort → ∃ width, kindOf? ds sort = some (.bitVec width) := by
  unfold fault?
  split
  · next hmem => simp only [reduceCtorEq, false_iff]; exact fun h => h.1 hmem
  · next hmem =>
    cases hsort : d.sort? with
    | none => simpa using hmem
    | some sort =>
      rw [Option.bind_some]
      split <;> simp_all

/-! ## One declaration more -/

/-- A sort has a kind only if its id is declared. -/
theorem mem_ids_of_kindOf? (h : kindOf? ds sort = some kind) : sort ∈ ds.map Declaration.id := by
  obtain ⟨d, hd, hkind⟩ := List.exists_of_findSome?_eq_some h
  rw [Declaration.kindFor?_eq_some_iff] at hkind
  subst hkind
  exact List.mem_map_of_mem hd

theorem kindOf?_append_singleton :
    kindOf? (ds ++ [d]) sort = (kindOf? ds sort).or (d.kindFor? sort) := by
  simp [kindOf?, List.findSome?_append]

/-- A sort keeps its kind. -/
theorem kindOf?_append_of_eq_some (h : kindOf? ds sort = some kind) :
    kindOf? (ds ++ [d]) sort = some kind := by
  rw [kindOf?_append_singleton, h, Option.some_or]

theorem widthOf_eq (h : kindOf? ds sort = some (.bitVec width)) : widthOf ds sort = width := by
  simp only [widthOf, h]

/-- Where every variable has its sort, more declarations change no width. -/
theorem Sorted.widthOf_append (h : Sorted ds) {e : Declaration} (he : e ∈ ds)
    (hsort : e.sort? = some sort) : widthOf (ds ++ [d]) sort = widthOf ds sort := by
  obtain ⟨width, hkind⟩ := h e he sort hsort
  rw [widthOf_eq hkind, widthOf_eq (kindOf?_append_of_eq_some hkind)]

private theorem Sorted.filterMap_append {α : Type} {f : (Id → UInt32) → Declaration → Option α}
    (hf : ∀ {e g g'}, (∀ sort, e.sort? = some sort → g sort = g' sort) → f g e = f g' e)
    (h : Sorted ds) :
    (ds ++ [d]).filterMap (f (widthOf (ds ++ [d]))) =
      ds.filterMap (f (widthOf ds)) ++ (f (widthOf (ds ++ [d])) d).toList := by
  have hds : ds.filterMap (f (widthOf (ds ++ [d]))) = ds.filterMap (f (widthOf ds)) :=
    List.filterMap_congr fun e he => hf fun sort hsort => h.widthOf_append he hsort
  rw [List.filterMap_append, hds]
  rfl

theorem Sorted.inputs_append (h : Sorted ds) :
    inputs (ds ++ [d]) = inputs ds ++ (d.input? (widthOf (ds ++ [d]))).toList :=
  h.filterMap_append Declaration.input?_congr

theorem Sorted.states_append (h : Sorted ds) :
    states (ds ++ [d]) = states ds ++ (d.state? (widthOf (ds ++ [d]))).toList :=
  h.filterMap_append Declaration.state?_congr

theorem references_append : references (ds ++ [d]) = references ds ++ d.reference?.toList := by
  rw [references, List.filterMap_append]
  rfl

theorem mem_initTargets_append {id : Id} :
    id ∈ initTargets (ds ++ [d]) ↔ id ∈ initTargets ds ∨ d.initTarget? = some id := by
  simp [initTargets]

theorem mem_nextTargets_append {id : Id} :
    id ∈ nextTargets (ds ++ [d]) ↔ id ∈ nextTargets ds ∨ d.nextTarget? = some id := by
  simp [nextTargets]

/-- A declaration without a fault keeps every variable sorted. -/
theorem Sorted.append (h : Sorted ds) (hd : fault? ds d = none) : Sorted (ds ++ [d]) := by
  intro e he sort hsort
  have hkind : ∃ width, kindOf? ds sort = some (.bitVec width) := by
    rw [List.mem_append, List.mem_singleton] at he
    rcases he with he | rfl
    · exact h e he sort hsort
    · exact (fault?_eq_none_iff.mp hd).2 sort hsort
  obtain ⟨width, hkind⟩ := hkind
  exact ⟨width, kindOf?_append_of_eq_some hkind⟩

end Model

end WitnessLift
