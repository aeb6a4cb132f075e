-- SUMMARY: Every addition of the two layout passes stays below 2 ^ 64.
import Mathlib.Algebra.GroupWithZero.Nat
import Mathlib.Data.Fintype.Card
import WitnessLift.Proofs.Fault
import WitnessLift.Proofs.Layout.Spaces

/-!
# Capacity

Offsets into a line need no more than 64 bits. Each variable has an id of its own and there are
`2 ^ 32` ids, and no variable is as wide as `2 ^ 32` bits. The first pass adds no bits for an id
that it knows, and the second pass only hands out the bits that the first one has counted.
-/

namespace WitnessLift

/-! ## First pass -/

namespace Survey

/-- The bits of all variables: the inputs have theirs already, the states do not. -/
def bits (s : Survey) : Nat := s.inputWidth + (s.states.toList.map (·.width.toNat)).sum

/-- The variables have no more bits than the ids so far allow. -/
def Affordable (s : Survey) : Prop := s.bits ≤ s.declared.size * (2 ^ 32 - 1)

variable {ds : List Declaration} {s s' : Survey} {d : Declaration}

theorem affordable_empty : Affordable {} := by
  simp [Affordable, bits]

/-- A declaration adds the bits of at most one variable. -/
theorem bits_le_of_add (h : s.add d = .ok s') :
    s'.bits ≤ s.bits + (2 ^ 32 - 1) ∧ s'.declared = s.declared := by
  cases d with
  | input id sort name =>
    obtain ⟨width, -, rfl⟩ := Fault.map_eq_ok_iff.mp h
    have hwidth := width.toNat_lt
    refine ⟨?_, rfl⟩
    simp only [bits, addInput]
    omega
  | state id sort name =>
    obtain ⟨width, -, h⟩ := Fault.bind_eq_ok_iff.mp h
    cases h
    have hwidth := width.toNat_lt
    refine ⟨?_, rfl⟩
    simp only [bits, Array.toList_push, List.map_append, List.map_cons, List.map_nil,
      List.sum_append, List.sum_cons, List.sum_nil]
    omega
  | _ =>
    cases h
    exact ⟨Nat.le_add_right _ _, rfl⟩

/-- The id of a declaration is new, so it allows the bits that the declaration adds. -/
theorem Affordable.step (h : Affordable s) (hs : s.step d = .ok s') : Affordable s' := by
  unfold Survey.step at hs
  split at hs
  · cases hs
  · next hnew =>
    obtain ⟨hbits, hdeclared⟩ := bits_le_of_add hs
    have hsize : s'.declared.size = s.declared.size + 1 := by
      rw [hdeclared, Std.TreeSet.size_insert, if_neg (mt Std.TreeSet.mem_iff_contains.mpr hnew)]
    unfold Affordable at h ⊢
    calc s'.bits ≤ s.bits + (2 ^ 32 - 1) := hbits
      _ ≤ s.declared.size * (2 ^ 32 - 1) + (2 ^ 32 - 1) := Nat.add_le_add_right h _
      _ = s'.declared.size * (2 ^ 32 - 1) := by rw [hsize, Nat.succ_mul]

theorem Affordable.foldlM (h : Affordable s) (hs : ds.foldlM Survey.step s = .ok s') :
    Affordable s' := by
  induction ds generalizing s with
  | nil =>
    cases hs
    exact h
  | cons d ds ih =>
    rw [List.foldlM_cons] at hs
    obtain ⟨next, hnext, hrest⟩ := Fault.bind_eq_ok_iff.mp hs
    exact ih (h.step hnext) hrest

theorem step_input {id sort : Id} {name : Option String} {width : UInt32}
    (hnew : id ∉ s.declared) (hwidth : s.widthOf id sort = .ok width) :
    s.step (.input id sort name) =
      .ok ({ s with declared := s.declared.insert id }.addInput id width name) :=
  (if_neg hnew).trans (Fault.map_eq_ok_iff.mpr ⟨width, hwidth, rfl⟩)

/-- The offset of the inputs moves only if an input is placed, and then by its width. -/
theorem inputWidth_step (h : s.step d = .ok s') :
    s'.inputWidth = s.inputWidth ∨ ∃ id sort name width, d = .input id sort name ∧
      id ∉ s.declared ∧ s.widthOf id sort = .ok width ∧
      s'.inputWidth = s.inputWidth + width.toNat := by
  unfold Survey.step at h
  split at h
  · cases h
  · next hnew =>
    cases d with
    | input id sort name =>
      obtain ⟨width, hwidth, rfl⟩ := Fault.map_eq_ok_iff.mp h
      exact .inr ⟨id, sort, name, width, rfl, hnew, hwidth, rfl⟩
    | state id sort name =>
      obtain ⟨width, -, h⟩ := Fault.bind_eq_ok_iff.mp h
      cases h
      exact .inl rfl
    | _ =>
      cases h
      exact .inl rfl

/-- There are no more ids than 32-bit numbers. -/
theorem size_declared_le (s : Survey) : s.declared.size ≤ 2 ^ 32 := by
  have hnodup : s.declared.toList.Nodup :=
    Std.TreeSet.distinct_toList.imp fun hne heq => hne (Std.compare_eq_iff_eq.mpr heq)
  have hinjective : Function.Injective UInt32.toFin := fun a b => UInt32.toFin_inj.mp
  have hle := (hnodup.map hinjective).length_le_card
  rwa [List.length_map, Std.TreeSet.length_toList, Fintype.card_fin] at hle

theorem bits_le (h : ds.foldlM Survey.step {} = .ok s) : s.bits ≤ 2 ^ 32 * (2 ^ 32 - 1) :=
  Nat.le_trans (affordable_empty.foldlM h) (Nat.mul_le_mul_right _ s.size_declared_le)

/-- A survey of all declarations is where the first pass ends. -/
theorem foldlM_of_ofDeclarations (h : ofDeclarations ds = .ok s) :
    ds.foldlM Survey.step {} = .ok s := by
  obtain ⟨s', hs', h⟩ := Fault.bind_eq_ok_iff.mp h
  obtain ⟨-, -, h⟩ := Fault.bind_eq_ok_iff.mp h
  cases h
  exact hs'

end Survey

/-! ## Second pass -/

namespace Placement

/-- The bits handed out in either space. -/
def bits (p : Placement) : Nat := p.inputWidth + p.stateWidth

/-- The placement of the first states of a survey. -/
def after (s : Survey) (vs : List DeclaredVar) : Placement :=
  vs.foldl (step s) { inputWidth := s.inputWidth }

variable {ds : List Declaration} {s : Survey} {v : DeclaredVar} {vs later : List DeclaredVar}

theorem bits_step (p : Placement) (v : DeclaredVar) :
    (p.step s v).bits = p.bits + v.width.toNat := by
  unfold Placement.step bits
  dsimp only
  split
  · exact (Nat.add_assoc _ _ _).symm
  · exact Nat.add_right_comm _ _ _

theorem bits_foldl (p : Placement) (vs : List DeclaredVar) :
    (vs.foldl (step s) p).bits = p.bits + (vs.map (·.width.toNat)).sum := by
  induction vs generalizing p with
  | nil => rfl
  | cons v vs ih =>
    rw [List.foldl_cons, ih, bits_step, List.map_cons, List.sum_cons, Nat.add_assoc]

/-- What is handed out and what is still to come make up the bits of the survey. -/
theorem bits_after (h : s.states.toList = vs ++ later) :
    (after s vs).bits + (later.map (·.width.toNat)).sum = s.bits := by
  rw [after, bits_foldl, Survey.bits, h, List.map_append, List.sum_append, ← Nat.add_assoc]
  rfl

/-- There is room for one more state. -/
theorem bits_add_le (hs : Survey.ofDeclarations ds = .ok s)
    (h : s.states.toList = vs ++ v :: later) :
    (after s vs).bits + v.width.toNat ≤ 2 ^ 32 * (2 ^ 32 - 1) := by
  have hbits := bits_after h
  have hle := Survey.bits_le (Survey.foldlM_of_ofDeclarations hs)
  rw [List.map_cons, List.sum_cons] at hbits
  omega

end Placement

/-! ## Offsets -/

namespace Layout

/-- Building a layout adds a width to an offset: the first pass for an input, the second pass for a
state that stands among the inputs or for a latch. -/
inductive Adds (ds : List Declaration) : Nat → Nat → Prop
  | input {earlier later : List Declaration} {id sort : Id} {name : Option String} {s : Survey}
      {width : UInt32} :
    ds = earlier ++ .input id sort name :: later → earlier.foldlM Survey.step {} = .ok s →
    id ∉ s.declared → s.widthOf id sort = .ok width → Adds ds s.inputWidth width.toNat
  | pseudoInput {s : Survey} {earlier later : List DeclaredVar} {v : DeclaredVar} :
    Survey.ofDeclarations ds = .ok s → s.states.toList = earlier ++ v :: later →
    v.id ∉ s.updated → Adds ds (Placement.after s earlier).inputWidth v.width.toNat
  | latch {s : Survey} {earlier later : List DeclaredVar} {v : DeclaredVar} :
    Survey.ofDeclarations ds = .ok s → s.states.toList = earlier ++ v :: later →
    v.id ∈ s.updated → Adds ds (Placement.after s earlier).stateWidth v.width.toNat

/-- An offset that building a layout holds between two steps. -/
inductive Holds (ds : List Declaration) : Nat → Prop
  | first {earlier later : List Declaration} {s : Survey} :
    ds = earlier ++ later → earlier.foldlM Survey.step {} = .ok s → Holds ds s.inputWidth
  | input {s : Survey} {earlier later : List DeclaredVar} :
    Survey.ofDeclarations ds = .ok s → s.states.toList = earlier ++ later →
    Holds ds (Placement.after s earlier).inputWidth
  | state {s : Survey} {earlier later : List DeclaredVar} :
    Survey.ofDeclarations ds = .ok s → s.states.toList = earlier ++ later →
    Holds ds (Placement.after s earlier).stateWidth

variable {ds : List Declaration} {layout : Layout} {offset width : Nat}

/-- An offset is the result of an addition. -/
def IsSum (ds : List Declaration) (offset : Nat) : Prop :=
  offset = 0 ∨ ∃ start width, Adds ds start width ∧ offset = start + width

theorem isSum_inputWidth {earlier later : List Declaration} {s : Survey}
    (hds : ds = earlier ++ later) (hs : earlier.foldlM Survey.step {} = .ok s) :
    IsSum ds s.inputWidth := by
  -- Induction on the declarations so far, the last of which may have moved the offset.
  induction earlier using List.reverseRecOn generalizing later s with
  | nil =>
    cases hs
    exact .inl rfl
  | append_singleton earlier d ih =>
    rw [List.append_assoc] at hds
    rw [List.foldlM_append] at hs
    obtain ⟨before, hbefore, hlast⟩ := Fault.bind_eq_ok_iff.mp hs
    rw [List.foldlM_cons] at hlast
    obtain ⟨_, hstep, hlast⟩ := Fault.bind_eq_ok_iff.mp hlast
    cases hlast
    rcases Survey.inputWidth_step hstep with hsame | ⟨id, sort, name, width, rfl, hnew, hwidth, hsum⟩
    · rw [hsame]
      exact ih hds hbefore
    · exact .inr ⟨_, _, .input hds hbefore hnew hwidth, hsum⟩

theorem isSum_after {s : Survey} {earlier later : List DeclaredVar}
    (hs : Survey.ofDeclarations ds = .ok s) (hstates : s.states.toList = earlier ++ later) :
    IsSum ds (Placement.after s earlier).inputWidth ∧
      IsSum ds (Placement.after s earlier).stateWidth := by
  induction earlier using List.reverseRecOn generalizing later with
  | nil =>
    have hwhole : ds = ds ++ [] := (List.append_nil ds).symm
    exact ⟨isSum_inputWidth hwhole (Survey.foldlM_of_ofDeclarations hs), .inl rfl⟩
  | append_singleton earlier v ih =>
    rw [List.append_assoc] at hstates
    obtain ⟨hinput, hstate⟩ := ih hstates
    have hlast : Placement.after s (earlier ++ [v]) = (Placement.after s earlier).step s v := by
      simp [Placement.after]
    rw [hlast, Placement.step]
    split
    · next hupdated => exact ⟨hinput, .inr ⟨_, _, .latch hs hstates hupdated, rfl⟩⟩
    · next hupdated => exact ⟨.inr ⟨_, _, .pseudoInput hs hstates hupdated, rfl⟩, hstate⟩

theorem Holds.isSum (h : Holds ds offset) : IsSum ds offset := by
  cases h with
  | first hds hs => exact isSum_inputWidth hds hs
  | input hs hstates => exact (isSum_after hs hstates).1
  | state hs hstates => exact (isSum_after hs hstates).2

theorem Adds.le (h : Adds ds offset width) : offset + width ≤ 2 ^ 32 * (2 ^ 32 - 1) := by
  cases h with
  | @input earlier _ id sort name s width _ hs hnew hwidth =>
    -- The survey behind the input counts its bits.
    have hpassed : (earlier ++ [Declaration.input id sort name]).foldlM Survey.step {} =
        .ok ({ s with declared := s.declared.insert id }.addInput id width name) := by
      rw [List.foldlM_append, hs]
      refine Fault.bind_eq_ok_iff.mpr ⟨s, rfl, ?_⟩
      rw [List.foldlM_cons, Survey.step_input hnew hwidth]
      rfl
    exact Nat.le_trans (Nat.le_add_right _ _) (Survey.bits_le hpassed)
  | pseudoInput hs hstates _ =>
    have hroom := Placement.bits_add_le hs hstates
    unfold Placement.bits at hroom
    omega
  | latch hs hstates _ =>
    have hroom := Placement.bits_add_le hs hstates
    unfold Placement.bits at hroom
    omega

/-- The lines of a built layout together have as many bits as its variables. -/
theorem width_add_width_le (h : build ds = .ok layout) :
    layout.width .input + layout.width .state ≤ 2 ^ 32 * (2 ^ 32 - 1) := by
  obtain ⟨s, hs, rfl⟩ := Fault.map_eq_ok_iff.mp h
  have hbits := Placement.bits_after (s := s) (List.append_nil s.states.toList).symm
  have hle := Survey.bits_le (Survey.foldlM_of_ofDeclarations hs)
  exact Nat.le_trans (Nat.le_of_eq hbits) hle

/-- Offsets move only by additions, and whether or not a model has a layout, none of these exceeds
64 bits. -/
theorem offsets_fit (ds : List Declaration) :
    (∀ offset, Holds ds offset →
      offset = 0 ∨ ∃ start width, Adds ds start width ∧ offset = start + width) ∧
    (∀ offset width, Adds ds offset width → offset + width ≤ 2 ^ 64 - 1) ∧
    ∀ layout, build ds = .ok layout →
      layout.width .input + layout.width .state ≤ 2 ^ 32 * (2 ^ 32 - 1) :=
  ⟨fun _ h => h.isSum, fun _ _ h => Nat.le_trans h.le (by decide), fun _ h => width_add_width_le h⟩

/-- The second input stands behind one of the largest width. Its id is taken by a later line, so the
model has no layout. -/
theorem offsets_fit_repeated :
    let ds := [.sort 1 (.bitVec 4294967295), .input 2 1 none, .input 3 1 none, .next 3 2]
    build ds = .error (.duplicateId 3) ∧ Adds ds 4294967295 4294967295 ∧
      4294967295 + 4294967295 ≤ 2 ^ 64 - 1 := by
  intro ds
  obtain ⟨s, hs, hoffset, hnew, hwidth⟩ : ∃ s : Survey,
      [Declaration.sort 1 (.bitVec 4294967295), .input 2 1 none].foldlM Survey.step {} = .ok s ∧
        s.inputWidth = 4294967295 ∧ 3 ∉ s.declared ∧ s.widthOf 3 1 = .ok 4294967295 :=
    ⟨_, rfl, rfl, by decide, rfl⟩
  have hadds : Adds ds 4294967295 4294967295 := by
    have hinput := @Adds.input ds _ [.next 3 2] 3 1 none s 4294967295 rfl hs hnew hwidth
    rwa [hoffset] at hinput
  exact ⟨by cbv, hadds, (offsets_fit ds).2.1 _ _ hadds⟩

end Layout

end WitnessLift
