-- SUMMARY: The fault and the move of a line by its number in the trace.
import WitnessLift.Proofs.Lift.Checks
import WitnessLift.Proofs.Text.Blank

/-!
# One line of a trace

The place of a line in its trace says of what kind it is, what can be wrong with it, and whether the
trace may end with it. A step fails with the fault of its line, and otherwise makes one known move.
-/

namespace WitnessLift

/-! ## Places -/

/-- The kind of line number `i` of a trace, from 1: a header, a property and a line of initial
values, and then lines of latches and of inputs in turn. -/
def LineKind.ofNumber (i : Nat) : LineKind :=
  if i = 1 then .header
  else if i = 2 then .property
  else if i = 3 then .init
  else if i % 2 = 0 then .latches
  else .inputs

/-- The number of the line that comes next. -/
def Stage.number : Stage → Nat
  | .header => 1
  | .property => 2
  | .init => 3
  | .latches k _ => 2 * k + 4
  | .inputs k _ _ => 2 * k + 5

theorem Stage.ofNumber_number (stage : Stage) : LineKind.ofNumber stage.number = stage.kind := by
  cases stage with
  | latches k initial =>
    have : (2 * k + 4) % 2 = 0 := by omega
    simp [number, LineKind.ofNumber, kind, this]
  | inputs k initial latches =>
    have : (2 * k + 5) % 2 = 1 := by omega
    simp [number, LineKind.ofNumber, kind, this]
  | _ => rfl

theorem LineKind.ofNumber_latches (k : Nat) : ofNumber (2 * k + 4) = .latches :=
  (Stage.latches k []).ofNumber_number

theorem LineKind.ofNumber_inputs (k : Nat) : ofNumber (2 * k + 5) = .inputs :=
  (Stage.inputs k [] #[]).ofNumber_number

/-! ## Faults -/

/-- The words of a header that reports a counterexample. -/
def CheckResult.confirms (line : List Char) : Prop := line = ['1'] ∨ line = ['s', 'a', 't']

instance (line : List Char) : Decidable (CheckResult.confirms line) :=
  inferInstanceAs (Decidable (_ ∨ _))

namespace Layout

/-- The variables that a line has to hold, in the order in which they are checked. -/
def checked (layout : Layout) : LineKind → List (Id × BitRange)
  | .header => []
  | .property => []
  | .init => (layout.latches.filter fun s => !s.hasInit).map fun s => (s.id, s.range)
  | .latches => layout.latches.map fun s => (s.id, s.range)
  | .inputs =>
    layout.inputs.map (fun v => (v.id, v.range)) ++
      layout.pseudoInputs.map fun s => (s.id, s.range)

/-- What is wrong with line number `i` as a line of bits. A character that spells no bit comes
before a line that is too short. -/
def bitsFault? (layout : Layout) (i : Nat) (line : List Char) : Option TraceError :=
  (Bits.fault? i line).or
    (BitRange.shortfall? i line.length (layout.checked (LineKind.ofNumber i)))

/-- What is wrong with line number `i`, freed of the blanks around it. A full stop may stand for a
line of latches, and is missing a line where inputs are due. -/
def fault? (layout : Layout) (i : Nat) (line : List Char) : Option TraceError :=
  match LineKind.ofNumber i with
  | .header => none
  | .property => none
  | .init => layout.bitsFault? i line
  | .latches => if line = ['.'] then none else layout.bitsFault? i line
  | .inputs =>
    if line = ['.'] then some (.incompleteFrame i ((i - 5) / 2)) else layout.bitsFault? i line

/-- Whether a line without a fault is the last one that is read: a header that reports no
counterexample, or a full stop. -/
def concludes (i : Nat) (line : List Char) : Prop :=
  match LineKind.ofNumber i with
  | .header => ¬ CheckResult.confirms line
  | .latches => line = ['.']
  | _ => False

/-- A line that is in order at its place, and not the last one. -/
def LeadsOn (layout : Layout) (i : Nat) (line : List Char) : Prop :=
  layout.fault? i line = none ∧ ¬ concludes i line

end Layout

/-! ## Moves -/

namespace Lifter

/-- The value of a latch in a frame. In the first frame an initial value wins. -/
def latchValue (initial : List (Id × Bits)) (k : Nat) (latches : Bits) (s : StateVar) : Bits :=
  (if k = 0 then initial.lookup s.id else none).getD (latches.extract s.range.start s.range.stop)

/-- The lines of a frame whose lines of bits are long enough. -/
def frameLines (l : Lifter) (initial : List (Id × Bits)) (k : Nat) (latches inputs : Bits) :
    List WitnessLine :=
  .heading .state k ::
    (l.latches.map fun s =>
      .assignment .state k s.index (latchValue initial k latches s) s.name) ++
  .heading .input k ::
    (l.inputs.map fun v =>
      .assignment .input k v.index (inputs.extract v.range.start v.range.stop) v.name) ++
  l.pseudoInputs.map fun s =>
    .assignment .input k s.index (inputs.extract s.range.start s.range.stop) s.name

/-- What a line without a fault leads to. -/
def move (l : Lifter) (line : List Char) : Stage → Move
  | .header =>
    if CheckResult.confirms line then .next [.status] .property
    else .dismiss (CheckResult.ofHeader line).value
  | .property => .next [.property] .init
  | .init => .next [] (.latches 0 (l.initials (Bits.read line)))
  | .latches k initial =>
    if line = ['.'] then .finish k else .next [] (.inputs k initial (Bits.read line))
  | .inputs k initial latches =>
    .next (l.frameLines initial k latches (Bits.read line)) (.latches (k + 1) initial)

variable {l : Lifter}

theorem assign_eq_ok {space : BitSpace} {k index : Nat} {name : Option String} {r : BitRange}
    {bits : Bits} (hle : r.start ≤ r.stop) (hstop : r.stop ≤ bits.size) :
    assign space k index name r bits =
      .ok (.assignment space k index (bits.extract r.start r.stop) name) := by
  simp [assign, BitRange.cut?, hle, hstop]

theorem assignLatch_eq_ok {initial : List (Id × Bits)} {k : Nat} {latches : Bits} {s : StateVar}
    (hle : s.range.start ≤ s.range.stop) (hstop : s.range.stop ≤ latches.size) :
    assignLatch initial k latches s =
      .ok (.assignment .state k s.index (latchValue initial k latches s) s.name) := by
  unfold assignLatch latchValue
  cases if k = 0 then initial.lookup s.id else none with
  | some value => rfl
  | none => exact assign_eq_ok hle hstop

theorem frame_eq_ok {initial : List (Id × Bits)} {k : Nat} {latches inputs : Bits}
    (hstate : ∀ v ∈ l.ranges .state, v.2.start ≤ v.2.stop ∧ v.2.stop ≤ latches.size)
    (hinput : ∀ v ∈ l.ranges .input, v.2.start ≤ v.2.stop ∧ v.2.stop ≤ inputs.size) :
    l.frame initial k latches inputs = .ok (l.frameLines initial k latches inputs) := by
  rw [forall_mem_ranges_state] at hstate
  obtain ⟨hgenuine, hpseudo⟩ := forall_mem_ranges_input.mp hinput
  have hlatches : l.latches.mapM (assignLatch initial k latches) = .ok (l.latches.map fun s =>
      .assignment .state k s.index (latchValue initial k latches s) s.name) := by
    apply Fault.mapM_eq_ok
    intro s hs
    exact assignLatch_eq_ok (hstate s hs).1 (hstate s hs).2
  have hinputs : (l.inputs.mapM fun v => assign .input k v.index v.name v.range inputs) =
      .ok (l.inputs.map fun v =>
        .assignment .input k v.index (inputs.extract v.range.start v.range.stop) v.name) := by
    apply Fault.mapM_eq_ok
    intro v hv
    exact assign_eq_ok (hgenuine v hv).1 (hgenuine v hv).2
  have hpseudoInputs : (l.pseudoInputs.mapM fun s => assign .input k s.index s.name s.range inputs) =
      .ok (l.pseudoInputs.map fun s =>
        .assignment .input k s.index (inputs.extract s.range.start s.range.stop) s.name) := by
    apply Fault.mapM_eq_ok
    intro s hs
    exact assign_eq_ok (hpseudo s hs).1 (hpseudo s hs).2
  unfold frame
  rw [hlatches, hinputs, hpseudoInputs]
  rfl

end Lifter

/-! ## Steps -/

theorem CheckResult.isCounterexample_ofHeader {line : List Char} (h : Text.trim line = line) :
    (ofHeader line).value.isCounterexample = decide (confirms line) := by
  have hword : ∀ word : String, String.ofList line = word ↔ line = word.toList := fun word =>
    ⟨fun heq => by rw [← heq, String.toList_ofList], fun heq => by rw [heq, String.ofList_toList]⟩
  unfold ofHeader ofHeader?
  simp only [h, hword]
  by_cases hconfirms : confirms line
  · rw [decide_eq_true hconfirms]
    rcases hconfirms with rfl | rfl <;> rfl
  · have hnot : ¬ (line = "1".toList ∨ line = "sat".toList) := hconfirms
    rw [decide_eq_false hconfirms, if_neg hnot]
    by_cases hsafe : line = "0".toList ∨ line = "unsat".toList
    · rw [if_pos hsafe]
      rfl
    · rw [if_neg hsafe]
      by_cases hunknown : line = "2".toList ∨ line = "unknown".toList
      · rw [if_pos hunknown]
        rfl
      · rw [if_neg hunknown]
        rfl

namespace Layout

/-- A stage that remembers latches remembers enough of them. -/
def Ready (layout : Layout) : Stage → Prop
  | .inputs _ _ latches => layout.width .state ≤ latches.size
  | _ => True

variable {ds : List Declaration} {layout : Layout}

theorem Of.frame_eq_ok (h : Of ds layout) {initial : List (Id × Bits)} {k : Nat}
    {latches inputs : Bits} (hlatches : layout.width .state ≤ latches.size)
    (hinputs : layout.width .input ≤ inputs.size) :
    layout.lifter.frame initial k latches inputs =
      .ok (layout.lifter.frameLines initial k latches inputs) :=
  Lifter.frame_eq_ok
    (fun _ hv => ⟨(h.range_bounds hv).1, (h.range_bounds hv).2.trans hlatches⟩)
    (fun _ hv => ⟨(h.range_bounds hv).1, (h.range_bounds hv).2.trans hinputs⟩)

theorem Of.step_eq_judge (h : Of ds layout) {stage : Stage} (hready : layout.Ready stage)
    {line : List Char} (htrim : Text.trim line = line) :
    layout.lifter.step stage.number line stage =
      Fault.judge (layout.fault? stage.number line) (layout.lifter.move line stage) := by
  unfold fault? bitsFault?
  rw [stage.ofNumber_number]
  cases stage with
  | header =>
    simp only [Lifter.step, Lifter.move, Stage.kind, CheckResult.isCounterexample_ofHeader htrim,
      decide_eq_true_eq]
    split <;> rfl
  | property => rfl
  | init =>
    simp only [Lifter.step, Stage.kind]
    rw [Lifter.bitsOf_eq_judge]
    apply Fault.judge_bind
    rw [h.cacheInit_eq_judge, Bits.size_read]
    exact Fault.judge_bind_ok rfl
  | latches k initial =>
    simp only [Lifter.step, Lifter.move, Stage.kind]
    split
    · rfl
    · rw [Lifter.bitsOf_eq_judge]
      apply Fault.judge_bind
      rw [h.checkWidth_eq_judge, Bits.size_read]
      exact Fault.judge_bind_ok rfl
  | inputs k initial latches =>
    simp only [Lifter.step, Lifter.move, Stage.kind]
    split
    · have : (2 * k + 5 - 5) / 2 = k := by omega
      simp only [Stage.number, this]
      rfl
    · rw [Lifter.bitsOf_eq_judge]
      apply Fault.judge_bind
      rw [h.checkWidth_eq_judge, Bits.size_read]
      change _ = Fault.judge (BitRange.shortfall? _ _ (layout.lifter.ranges .input)) _
      -- Where both lines are long enough, cutting values out of them cannot fail.
      cases hshort : BitRange.shortfall? (Stage.inputs k initial latches).number line.length
          (layout.lifter.ranges .input) with
      | some e => rfl
      | none =>
        have hwidth : layout.width .input ≤ (Bits.read line).size := by
          rw [Bits.size_read]
          exact h.forall_stop_le_iff.mp (BitRange.shortfall?_eq_none_iff.mp hshort)
        simp only [Fault.judge_none]
        change (layout.lifter.frame _ _ _ _ >>= _) = _
        rw [h.frame_eq_ok hready hwidth]
        rfl

/-! ## Lines that lead on -/

theorem bitsFault?_eq_none_iff {i : Nat} {line : List Char} :
    layout.bitsFault? i line = none ↔
      Bits.Spelled line ∧ ∀ v ∈ layout.checked (LineKind.ofNumber i), v.2.stop ≤ line.length := by
  rw [bitsFault?, Option.or_eq_none_iff, Bits.fault?_eq_none_iff,
    BitRange.shortfall?_eq_none_iff]

theorem leadsOn_header {line : List Char} : layout.LeadsOn 1 line ↔ CheckResult.confirms line :=
  ⟨fun h => Decidable.not_not.mp h.2, fun h => ⟨rfl, not_not_intro h⟩⟩

theorem leadsOn_property (line : List Char) : layout.LeadsOn 2 line := ⟨rfl, id⟩

theorem leadsOn_init {line : List Char} :
    layout.LeadsOn 3 line ↔
      Bits.Spelled line ∧
        ∀ s ∈ layout.latches, s.hasInit = false → s.range.stop ≤ line.length := by
  have hchecked : (∀ v ∈ layout.checked .init, v.2.stop ≤ line.length) ↔
      ∀ s ∈ layout.latches, s.hasInit = false → s.range.stop ≤ line.length := by
    simp only [checked, List.forall_mem_map, List.mem_filter, Bool.not_eq_true', and_imp]
  rw [← hchecked]
  exact ⟨fun h => bitsFault?_eq_none_iff.mp h.1, fun h => ⟨bitsFault?_eq_none_iff.mpr h, id⟩⟩

/-- A full stop spells no bits. -/
theorem not_spelled_stop : ¬ Bits.Spelled ['.'] := fun h => by
  have := h '.' (List.mem_singleton_self _)
  revert this
  decide

theorem Of.leadsOn_latches (h : Of ds layout) (k : Nat) {line : List Char} :
    layout.LeadsOn (2 * k + 4) line ↔ Bits.Spelled line ∧ layout.width .state ≤ line.length := by
  have hbits : layout.bitsFault? (2 * k + 4) line = none ↔
      Bits.Spelled line ∧ ∀ v ∈ layout.lifter.ranges .state, v.2.stop ≤ line.length := by
    rw [bitsFault?_eq_none_iff, LineKind.ofNumber_latches]
    rfl
  rw [LeadsOn, fault?, concludes, LineKind.ofNumber_latches, ← h.forall_stop_le_iff]
  by_cases hline : line = ['.']
  · simp [hline, not_spelled_stop]
  · rw [← hbits]
    simp [hline]

theorem Of.leadsOn_inputs (h : Of ds layout) (k : Nat) {line : List Char} :
    layout.LeadsOn (2 * k + 5) line ↔ Bits.Spelled line ∧ layout.width .input ≤ line.length := by
  have hbits : layout.bitsFault? (2 * k + 5) line = none ↔
      Bits.Spelled line ∧ ∀ v ∈ layout.lifter.ranges .input, v.2.stop ≤ line.length := by
    rw [bitsFault?_eq_none_iff, LineKind.ofNumber_inputs]
    rfl
  rw [LeadsOn, fault?, concludes, LineKind.ofNumber_inputs, ← h.forall_stop_le_iff]
  by_cases hline : line = ['.']
  · simp [hline, not_spelled_stop]
  · rw [← hbits]
    simp [hline]

/-- A line that leads on leads to the stage of the next line. -/
theorem Of.move_of_leadsOn (h : Of ds layout) {stage : Stage} {line : List Char}
    (hline : layout.LeadsOn stage.number line) :
    ∃ lines next, layout.lifter.move line stage = .next lines next ∧
      next.number = stage.number + 1 ∧ layout.Ready next := by
  cases stage with
  | header => exact ⟨[.status], .property, if_pos (leadsOn_header.mp hline), rfl, trivial⟩
  | property => exact ⟨[.property], .init, rfl, rfl, trivial⟩
  | init => exact ⟨[], _, rfl, rfl, trivial⟩
  | latches k initial =>
    obtain ⟨hspelled, hwidth⟩ := (h.leadsOn_latches k).mp hline
    -- The line is kept for its frame, which relies on its length.
    have hstop : line ≠ ['.'] := fun heq => not_spelled_stop (heq ▸ hspelled)
    refine ⟨[], .inputs k initial (Bits.read line), if_neg hstop, rfl, ?_⟩
    rwa [Ready, Bits.size_read]
  | inputs k initial latches => exact ⟨_, _, rfl, by simp only [Stage.number]; omega, trivial⟩

theorem concludes_iff {i : Nat} {line : List Char} :
    concludes (i + 1) line ↔
      (i = 0 ∧ ¬ CheckResult.confirms line) ∨ (3 ≤ i ∧ i % 2 = 1 ∧ line = ['.']) := by
  unfold concludes LineKind.ofNumber
  split_ifs with h₁ h₂ h₃ h₄
  · simp [show i = 0 by omega]
  · simp [show i = 1 by omega]
  · simp [show i = 2 by omega]
  · simp [show i ≠ 0 by omega, show 3 ≤ i by omega, show i % 2 = 1 by omega]
  · simp [show i ≠ 0 by omega, show i % 2 = 0 by omega]

/-- The last line dismisses the trace if it is the first one, and else finishes the witness. -/
theorem move_of_concludes (layout : Layout) {stage : Stage} {line : List Char} (h : concludes stage.number line) :
    (stage.number = 1 ∧ ∃ result, layout.lifter.move line stage = .dismiss result) ∨
      ∃ k, stage.number = 2 * k + 4 ∧ layout.lifter.move line stage = .finish k := by
  unfold concludes at h
  rw [stage.ofNumber_number] at h
  cases stage with
  | header => exact .inl ⟨rfl, _, if_neg h⟩
  | latches k initial => exact .inr ⟨k, rfl, if_pos h⟩
  | property => exact h.elim
  | init => exact h.elim
  | inputs k initial latches => exact h.elim

/-- A line without a fault leads to a stage that is ready for the next one. -/
theorem Of.ready_of_move (h : Of ds layout) {stage next : Stage} {line : List Char}
    {lines : List WitnessLine} (hfault : layout.fault? stage.number line = none)
    (hmove : layout.lifter.move line stage = .next lines next) :
    next.number = stage.number + 1 ∧ layout.Ready next := by
  have hgoes : ¬ concludes stage.number line := by
    intro hconcludes
    rcases layout.move_of_concludes hconcludes with ⟨_, result, hother⟩ | ⟨k, _, hother⟩
    · cases hmove.symm.trans hother
    · cases hmove.symm.trans hother
  obtain ⟨_, _, hnext, hnumber, hready⟩ := h.move_of_leadsOn ⟨hfault, hgoes⟩
  cases hmove.symm.trans hnext
  exact ⟨hnumber, hready⟩

/-- A step from a stage that is ready leads to one that is ready for the next line. -/
theorem Of.ready_of_step (h : Of ds layout) {stage next : Stage} (hready : layout.Ready stage)
    {line : List Char} (htrim : Text.trim line = line) {lines : List WitnessLine}
    (hstep : layout.lifter.step stage.number line stage = .ok (.next lines next)) :
    next.number = stage.number + 1 ∧ layout.Ready next := by
  rw [h.step_eq_judge hready htrim] at hstep
  cases hfault : layout.fault? stage.number line with
  | some e =>
    rw [hfault] at hstep
    cases hstep
  | none =>
    rw [hfault, Fault.judge_none, Except.ok.injEq] at hstep
    exact h.ready_of_move hfault hstep

end Layout

end WitnessLift
