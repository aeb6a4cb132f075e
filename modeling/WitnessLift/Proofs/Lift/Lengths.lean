-- SUMMARY: A line passes the checks of a built layout exactly if it is long enough.
import Std.Data.TreeMap
import WitnessLift.Proofs.Lift.Unchecked

/-!
# Lengths of lines

A lifter never compares the length of a line with the width of a space. It passes through its
variables, cuts those of the space out of the text, and reports the first one that is not there.
Latches come by ascending id, which need not be the order of their bits. In a built layout the
ranges of a space lie end to end, so a line passes exactly if it is at least as long as its space is
wide.
-/

namespace WitnessLift

/-! ## The first variable beyond a line -/

/-- Of these states, the one of smallest id that ends beyond `size` bits. -/
structure StateVar.LeastBeyond (size : Nat) (ss : List StateVar) (s : StateVar) : Prop where
  mem : s ∈ ss
  beyond : size < s.range.stop
  least : ∀ t ∈ ss, size < t.range.stop → s.id ≤ t.id

namespace BitRange

/-- The first variable of a list that ends beyond `size` bits. -/
def FirstBeyond (size : Nat) (vs : List (Id × BitRange)) (v : Id × BitRange) : Prop :=
  size < v.2.stop ∧ ∃ before behind, vs = before ++ v :: behind ∧ ∀ w ∈ before, w.2.stop ≤ size

variable {number size : Nat} {e : TraceError}

/-- A shortfall names the first variable that ends beyond the line. -/
theorem shortfall?_eq_some_iff {vs : List (Id × BitRange)} :
    shortfall? number size vs = some e ↔
      ∃ v, FirstBeyond size vs v ∧ e = .lineTooShort number v.1 v.2 size := by
  unfold shortfall?
  rw [Option.map_eq_some_iff]
  refine exists_congr fun v => ?_
  rw [List.find?_eq_some_iff_append, @eq_comm _ _ e]
  simp [FirstBeyond]

variable {ss : List StateVar} (h : ss.Pairwise fun s t => s.id < t.id)

include h

/-- In ascending order of ids, the first state that ends beyond a line is the one of smallest id. -/
theorem firstBeyond_map_iff {v : Id × BitRange} :
    FirstBeyond size (ss.map fun s => (s.id, s.range)) v ↔
      ∃ s, StateVar.LeastBeyond size ss s ∧ v = (s.id, s.range) := by
  constructor
  · rintro ⟨hv, before, behind, hsplit, hbefore⟩
    obtain ⟨pre, rest, rfl, rfl, hrest⟩ := List.map_eq_append_iff.mp hsplit
    obtain ⟨s, post, rfl, rfl, rfl⟩ := List.map_eq_cons_iff.mp hrest
    rw [List.forall_mem_map] at hbefore
    obtain ⟨_, hascending, _⟩ := List.pairwise_append.mp h
    refine ⟨s, ⟨List.mem_append_right _ List.mem_cons_self, hv, fun t ht hbeyond => ?_⟩, rfl⟩
    rcases List.mem_append.mp ht with hpre | hpost
    · exact absurd (hbefore t hpre) (Nat.not_le_of_lt hbeyond)
    · rcases List.mem_cons.mp hpost with rfl | hpost
      · exact UInt32.le_refl _
      · exact UInt32.le_of_lt (List.rel_of_pairwise_cons hascending hpost)
  · rintro ⟨s, hs, rfl⟩
    obtain ⟨pre, post, rfl⟩ := List.append_of_mem hs.mem
    refine ⟨hs.beyond, _, _, List.map_append, ?_⟩
    rw [List.forall_mem_map]
    intro t ht
    -- A state before this one has a smaller id, so it ends within the line.
    have hlt : t.id < s.id := (List.pairwise_append.mp h).2.2 t ht s List.mem_cons_self
    refine Nat.le_of_not_lt fun hbeyond => ?_
    exact UInt32.not_le.mpr hlt (hs.least t (List.mem_append_left _ ht) hbeyond)

theorem shortfall?_map_eq_some_iff :
    shortfall? number size (ss.map fun s => (s.id, s.range)) = some e ↔
      ∃ s, StateVar.LeastBeyond size ss s ∧ e = .lineTooShort number s.id s.range size := by
  rw [shortfall?_eq_some_iff]
  constructor
  · rintro ⟨v, hv, rfl⟩
    obtain ⟨s, hs, rfl⟩ := (firstBeyond_map_iff h).mp hv
    exact ⟨s, hs, rfl⟩
  · rintro ⟨s, hs, rfl⟩
    exact ⟨_, (firstBeyond_map_iff h).mpr ⟨s, hs, rfl⟩, rfl⟩

end BitRange

/-! ## Variable by variable -/

namespace Lifter

/-- The variables that a check of a space cuts out of the line. It passes through the inputs, the
latches and the states that stand among the inputs, and leaves out those of the other space. -/
def visited (l : Lifter) (space : BitSpace) : List (Id × BitRange) :=
  ((l.inputs.map fun v => (v.id, v.range)).filter fun _ => space == .input) ++
    ((l.latches ++ l.pseudoInputs).filter (·.space == space)).map fun s => (s.id, s.range)

/-- The value of a variable in the text of line number `line`, cut out by byte offsets. -/
def textOf (id : Id) (range : BitRange) (text : List Char) (line : Nat) :
    Except TraceError (List Char) :=
  match range.text? text with
  | some value => .ok value
  | none => .error (.lineTooShort line id range (Text.byteSize text))

/-- Checks that the text of a line holds every variable of its space. -/
def checkText (l : Lifter) (text : List Char) (space : BitSpace) (line : Nat) :
    Except TraceError Unit :=
  (l.visited space).forM fun v => (textOf v.1 v.2 text line).map fun _ => ()

/-- Stores the initial value of a latch that the model gives none. -/
def cacheLatch (text : List Char) (line : Nat) (cache : Std.TreeMap Id (List Char)) (s : StateVar) :
    Except TraceError (Std.TreeMap Id (List Char)) :=
  if s.hasInit then .ok cache else cache.insert s.id <$> textOf s.id s.range text line

/-- Stores the initial values in the text of a line, one latch after the other. -/
def cacheText (l : Lifter) (text : List Char) (line : Nat) :
    Except TraceError (Std.TreeMap Id (List Char)) :=
  l.latches.foldlM (cacheLatch text line) ∅

/-- Initial values as they are spelled. -/
def spelled (initial : List (Id × Bits)) : List (Id × List Char) :=
  initial.map fun v => (v.1, (Bits.render v.2).toList)

variable {bits : Bits} {number : Nat}

theorem textOf_render (id : Id) (range : BitRange) :
    textOf id range bits.render.toList number =
      (fun value => (Bits.render value).toList) <$> valueOf id range bits number := by
  have hsize : Text.byteSize bits.render.toList = bits.size := by
    rw [Text.byteSize_eq_length fun _ hc => Bits.utf8Size_eq_one_of_mem_render hc,
      bits.length_render]
  unfold textOf valueOf
  rw [BitRange.text?_render, hsize]
  cases range.cut? bits <;> rfl

/-- Storing latch by latch yields the initial values of those that the model gives none. -/
theorem foldlM_cacheLatch (ss : List StateVar) (cache : Std.TreeMap Id (List Char)) :
    ss.foldlM (cacheLatch bits.render.toList number) cache =
      (fun initial => cache.insertMany (spelled initial)) <$>
        (ss.filter fun s => !s.hasInit).mapM fun s =>
          (s.id, ·) <$> valueOf s.id s.range bits number := by
  -- Induction on the latches, for any cache: what is stored for the first stands in it for the rest.
  induction ss generalizing cache with
  | nil => rfl
  | cons s ss ih =>
    rw [List.foldlM_cons, cacheLatch]
    cases hinit : s.hasInit with
    | true =>
      rw [List.filter_cons_of_neg (by simp [hinit])]
      exact ih cache
    | false =>
      rw [List.filter_cons_of_pos (by simp [hinit]), List.mapM_cons, textOf_render]
      cases valueOf s.id s.range bits number with
      | error e => rfl
      | ok value =>
        refine (ih (cache.insert s.id (Bits.render value).toList)).trans ?_
        cases (ss.filter fun s => !s.hasInit).mapM fun s =>
            (s.id, ·) <$> valueOf s.id s.range bits number with
        | error e => rfl
        | ok initial => exact congrArg Except.ok Std.TreeMap.insertMany_cons.symm

end Lifter

namespace Layout

variable {ds : List Declaration} {layout : Layout} {bits : Bits} {number : Nat} {e : TraceError}

/-- The variables of a space are met in the order in which they are checked. -/
theorem visited_lifter (layout : Layout) (space : BitSpace) :
    layout.lifter.visited space = layout.lifter.ranges space := by
  have hlatches : ∀ s ∈ layout.lifter.latches, s.space = .state := fun _ => space_of_mem_latches
  have hpseudo : ∀ s ∈ layout.lifter.pseudoInputs, s.space = .input :=
    fun _ => space_of_mem_pseudoInputs
  unfold Lifter.visited Lifter.ranges
  rw [List.filter_append]
  cases space with
  | state =>
    have hkept : layout.lifter.latches.filter (·.space == .state) = layout.lifter.latches :=
      List.filter_eq_self.mpr fun s hs => by simp [hlatches s hs]
    have hleft : layout.lifter.pseudoInputs.filter (·.space == .state) = [] :=
      List.filter_eq_nil_iff.mpr fun s hs => by simp [hpseudo s hs]
    simp [hkept, hleft]
  | input =>
    have hleft : layout.lifter.latches.filter (·.space == .input) = [] :=
      List.filter_eq_nil_iff.mpr fun s hs => by simp [hlatches s hs]
    have hkept : layout.lifter.pseudoInputs.filter (·.space == .input) =
        layout.lifter.pseudoInputs :=
      List.filter_eq_self.mpr fun s hs => by simp [hpseudo s hs]
    simp [hkept, hleft]

/-- The text of a line passes the checks that its bits pass. -/
theorem checkText_render (layout : Layout) (bits : Bits) (space : BitSpace) (number : Nat) :
    layout.lifter.checkText bits.render.toList space number =
      layout.lifter.checkWidth bits space number := by
  unfold Lifter.checkText Lifter.checkWidth
  rw [visited_lifter]
  congr 1
  funext v
  rw [Lifter.textOf_render]
  cases Lifter.valueOf v.1 v.2 bits number <;> rfl

theorem cacheText_render (layout : Layout) (bits : Bits) (number : Nat) :
    layout.lifter.cacheText bits.render.toList number =
      (fun initial => .ofList (Lifter.spelled initial)) <$>
        layout.lifter.cacheInit bits number := by
  simp only [Std.TreeMap.ofList_eq_insertMany_empty]
  exact Lifter.foldlM_cacheLatch layout.latches ∅

/-! ## Outcomes -/

theorem Of.checkWidth_eq_error_iff (h : Of ds layout) {space : BitSpace} :
    layout.lifter.checkWidth bits space number = .error e ↔
      ∃ v, BitRange.FirstBeyond bits.size (layout.lifter.ranges space) v ∧
        e = .lineTooShort number v.1 v.2 bits.size := by
  rw [h.checkWidth_eq_judge, Fault.judge_eq_error_iff, BitRange.shortfall?_eq_some_iff]

theorem Of.checkWidth_state_eq_error_iff (h : Of ds layout) :
    layout.lifter.checkWidth bits .state number = .error e ↔
      ∃ s, StateVar.LeastBeyond bits.size layout.latches s ∧
        e = .lineTooShort number s.id s.range bits.size := by
  rw [h.checkWidth_eq_judge, Fault.judge_eq_error_iff]
  exact BitRange.shortfall?_map_eq_some_iff h.latches_sorted

theorem Of.cacheInit_eq_error_iff (h : Of ds layout) :
    layout.lifter.cacheInit bits number = .error e ↔
      ∃ s, StateVar.LeastBeyond bits.size layout.lifter.uninitialized s ∧
        e = .lineTooShort number s.id s.range bits.size := by
  rw [h.cacheInit_eq_judge, Fault.judge_eq_error_iff]
  exact BitRange.shortfall?_map_eq_some_iff (h.latches_sorted.filter _)

theorem Of.exists_cacheInit_eq_ok_iff (h : Of ds layout) :
    (∃ initial, layout.lifter.cacheInit bits number = .ok initial) ↔
      ∀ s ∈ layout.latches, s.hasInit = false → s.range.stop ≤ bits.size := by
  simp only [h.cacheInit_eq_ok_iff, exists_and_left, exists_eq', and_true]
  exact Lifter.forall_mem_uninitialized

/-- The initial values on a line that holds them are the parts at the ranges of their latches. -/
theorem Of.mem_initials_iff (h : Of ds layout)
    (hfit : ∀ s ∈ layout.lifter.uninitialized, s.range.stop ≤ bits.size) {id : Id} {value : Bits} :
    (id, value) ∈ layout.lifter.initials bits ↔
      ∃ s ∈ layout.latches, s.hasInit = false ∧ s.id = id ∧ s.range.cut? bits = some value := by
  constructor
  · intro hmem
    obtain ⟨s, hs, heq⟩ := List.mem_map.mp hmem
    cases heq
    obtain ⟨hlatch, hinit⟩ := List.mem_filter.mp hs
    refine ⟨s, hlatch, by simpa using hinit, rfl, ?_⟩
    exact BitRange.cut?_eq_some_iff.mpr ⟨h.uninitialized_bounds hs, hfit s hs, rfl⟩
  · rintro ⟨s, hs, hinit, rfl, hcut⟩
    obtain ⟨-, -, rfl⟩ := BitRange.cut?_eq_some_iff.mp hcut
    exact List.mem_map.mpr ⟨s, List.mem_filter.mpr ⟨hs, by simp [hinit]⟩, rfl⟩

/-- What the checks of a line of `bits` come to. The text of the line is checked with the outcome
that its bits have. The check of a space passes exactly if the line is at least as long as the space
is wide. Else it names the first variable met that ends beyond the line, which among latches is the
one of smallest id, wherever its bits are. Initial values are found exactly if the line holds the
latches without an `init`. Then each of these has one, the part at its range, and else the one of
smallest id that ends beyond the line is named. -/
structure Measured (layout : Layout) (bits : Bits) (number : Nat) : Prop where
  text : ∀ space, layout.lifter.checkText bits.render.toList space number =
    layout.lifter.checkWidth bits space number
  passes : ∀ space,
    layout.lifter.checkWidth bits space number = .ok () ↔ layout.width space ≤ bits.size
  fails : ∀ space e, layout.lifter.checkWidth bits space number = .error e ↔
    ∃ v, BitRange.FirstBeyond bits.size (layout.lifter.visited space) v ∧
      e = .lineTooShort number v.1 v.2 bits.size
  latch : ∀ e, layout.lifter.checkWidth bits .state number = .error e ↔
    ∃ s, StateVar.LeastBeyond bits.size layout.latches s ∧
      e = .lineTooShort number s.id s.range bits.size
  cache : layout.lifter.cacheText bits.render.toList number =
    (fun initial => .ofList (Lifter.spelled initial)) <$> layout.lifter.cacheInit bits number
  found : (∃ initial, layout.lifter.cacheInit bits number = .ok initial) ↔
    ∀ s ∈ layout.latches, s.hasInit = false → s.range.stop ≤ bits.size
  stored : ∀ initial, layout.lifter.cacheInit bits number = .ok initial →
    (initial.map (·.1)).Nodup ∧
      ∀ id value, (id, value) ∈ initial ↔
        ∃ s ∈ layout.latches, s.hasInit = false ∧ s.id = id ∧ s.range.cut? bits = some value
  missing : ∀ e, layout.lifter.cacheInit bits number = .error e ↔
    ∃ s, StateVar.LeastBeyond bits.size layout.lifter.uninitialized s ∧
      e = .lineTooShort number s.id s.range bits.size

/-- In a built layout, cutting the variables out of a line one by one finds what a comparison of the
line's length with the ends of the ranges finds. -/
theorem measured_of_build (h : build ds = .ok layout) (bits : Bits) (number : Nat) :
    Measured layout bits number := by
  have hof := Of.of_build h
  exact {
    text := fun space => layout.checkText_render bits space number
    passes := fun space => hof.checkWidth_eq_ok_iff
    fails := fun space e => by
      rw [visited_lifter]
      exact hof.checkWidth_eq_error_iff
    latch := fun e => hof.checkWidth_state_eq_error_iff
    cache := layout.cacheText_render bits number
    found := hof.exists_cacheInit_eq_ok_iff
    stored := fun initial hcache => by
      obtain ⟨hfit, rfl⟩ := hof.cacheInit_eq_ok_iff.mp hcache
      exact ⟨hof.nodup_initials bits, fun id value => hof.mem_initials_iff hfit⟩
    missing := fun e => hof.cacheInit_eq_error_iff }

theorem measured_of_build_mixed : build Model.mixed = .ok mixed ∧ Measured mixed #[true] 4 :=
  ⟨build_mixed, measured_of_build build_mixed #[true] 4⟩

/-- Both latches are missing, and the one with the smaller id is behind the other. -/
example : mixed.lifter.checkWidth #[true] .state 4 = .error (.lineTooShort 4 5 ⟨2, 5⟩ 1) := by cbv

end Layout

end WitnessLift
