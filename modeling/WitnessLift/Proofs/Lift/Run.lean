-- SUMMARY: A run as the lines that lead on and the first one that does not.
import WitnessLift.Proofs.Lift.Sink
import WitnessLift.Proofs.Lift.Step

/-!
# Runs

A run goes through the lines that lead on, and the first line that does not decides how it ends.
What the run has written by then depends on the lines that lead on alone.
-/

namespace WitnessLift

/-! ## Lines that lead on -/

/-- What lines that lead on come to: lines of a witness, and the stage that is reached. -/
def Lifter.advance (l : Lifter) : Stage → List (List Char) → List WitnessLine × Stage
  | stage, [] => ([], stage)
  | stage, line :: rest =>
    match l.move line stage with
    | .next lines next => (lines ++ (l.advance next rest).1, (l.advance next rest).2)
    | _ => ([], stage)

theorem Lifter.advance_cons {l : Lifter} {stage next : Stage} {line : List Char}
    {lines : List WitnessLine} (h : l.move line stage = .next lines next)
    (rest : List (List Char)) :
    l.advance stage (line :: rest) = (lines ++ (l.advance next rest).1, (l.advance next rest).2) := by
  rw [advance, h]

namespace Layout

variable {ds : List Declaration} {layout : Layout}

/-- The lines lead on, each at its place, where the first of them is line number `i`. -/
def Follows (layout : Layout) (i : Nat) (lines : List (List Char)) : Prop :=
  ∀ j line, lines[j]? = some line → layout.LeadsOn (i + j) line

@[simp] theorem follows_nil {i : Nat} : layout.Follows i [] := by
  intro j line hline
  simp at hline

@[simp] theorem follows_cons {i : Nat} {line : List Char} {lines : List (List Char)} :
    layout.Follows i (line :: lines) ↔ layout.LeadsOn i line ∧ layout.Follows (i + 1) lines := by
  constructor
  · intro h
    refine ⟨h 0 line rfl, fun j other hother => ?_⟩
    have := h (j + 1) other hother
    rwa [show i + 1 + j = i + (j + 1) by omega]
  · rintro ⟨hline, hlines⟩ j other hother
    cases j with
    | zero =>
      cases hother
      exact hline
    | succ j =>
      have := hlines j other hother
      rwa [show i + (j + 1) = i + 1 + j by omega]

/-- Lines that lead on reach the stage of the next line. -/
theorem Of.advance_of_follows (h : Of ds layout) {stage : Stage} {lines : List (List Char)}
    (hready : layout.Ready stage) (hfollows : layout.Follows stage.number lines) :
    (layout.lifter.advance stage lines).2.number = stage.number + lines.length ∧
      layout.Ready (layout.lifter.advance stage lines).2 := by
  induction lines generalizing stage with
  | nil => exact ⟨rfl, hready⟩
  | cons line lines ih =>
    obtain ⟨hline, hlines⟩ := follows_cons.mp hfollows
    obtain ⟨_, next, hmove, hnumber, hnext⟩ := h.move_of_leadsOn hline
    rw [← hnumber] at hlines
    obtain ⟨hreached, hstays⟩ := ih hnext hlines
    rw [Lifter.advance_cons hmove]
    refine ⟨?_, hstays⟩
    rw [hreached, hnumber, List.length_cons]
    omega

/-- A run goes through the lines that lead on, if its sink takes what they come to. -/
theorem Of.run_of_follows (h : Of ds layout) {σ : Type} {sink : Sink σ} {stage : Stage}
    {number : Nat} (hnumber : stage.number = number + 1) (hready : layout.Ready stage)
    {pre : List (List Char)} (hfollows : layout.Follows stage.number (pre.map Text.trim))
    {s s' : σ}
    (hput : sink.putAll s (layout.lifter.advance stage (pre.map Text.trim)).1 = (s', none))
    (log : List Event) (rest : List (Option (List Char))) :
    ∃ log', layout.lifter.run sink stage number s log (pre.map some ++ rest) =
      layout.lifter.run sink (layout.lifter.advance stage (pre.map Text.trim)).2
        (number + pre.length) s' log' rest := by
  -- Induction on the lines that lead on, from any stage: each line passes on the number of the
  -- next one, and a stage that is ready for it.
  induction pre generalizing stage number s log with
  | nil =>
    cases hput
    exact ⟨log, rfl⟩
  | cons full pre ih =>
    rw [List.map_cons, follows_cons] at hfollows
    obtain ⟨hline, hlines⟩ := hfollows
    obtain ⟨lines, next, hmove, hnext, hready'⟩ := h.move_of_leadsOn hline
    simp only [List.map_cons, Lifter.advance_cons hmove] at hput ⊢
    obtain ⟨middle, hfirst, hmore⟩ := Sink.putAll_append_eq_none hput
    have hstep : layout.lifter.step (number + 1) (Text.trim full) stage = .ok (.next lines next) := by
      rw [← hnumber, h.step_eq_judge hready (Text.trim_trim full), hline.1, hmove]
      rfl
    rw [← hnext] at hlines
    obtain ⟨log', heq⟩ := ih (hnext.trans (by rw [hnumber])) hready' hlines hmore
      (log ++ Lifter.remarks (Text.trim full) stage)
    refine ⟨log', ?_⟩
    rw [List.cons_append, Lifter.run]
    simp only [hstep, hfirst]
    rw [heq, List.length_cons, Nat.add_assoc, Nat.add_comm 1]

/-- Every trace begins with lines that lead on, up to one that does not. -/
theorem exists_follows (layout : Layout) (i : Nat) (lines : List (Option (List Char))) :
    ∃ (pre : List (List Char)) (rest : List (Option (List Char))),
      lines = pre.map some ++ rest ∧ layout.Follows i (pre.map Text.trim) ∧
      ∀ full others, rest = some full :: others →
        ¬ layout.LeadsOn (i + pre.length) (Text.trim full) := by
  induction lines generalizing i with
  | nil => exact ⟨[], [], rfl, follows_nil, by simp⟩
  | cons line lines ih =>
    cases line with
    | none => exact ⟨[], none :: lines, rfl, follows_nil, by simp⟩
    | some full =>
      by_cases hline : layout.LeadsOn i (Text.trim full)
      · obtain ⟨pre, rest, rfl, hfollows, hrest⟩ := ih (i + 1)
        refine ⟨full :: pre, rest, rfl, follows_cons.mpr ⟨hline, hfollows⟩, ?_⟩
        rwa [List.length_cons, show i + (pre.length + 1) = i + 1 + pre.length by omega]
      · refine ⟨[], some full :: lines, rfl, follows_nil, ?_⟩
        rintro _ _ ⟨⟩
        exact hline

/-! ## The line that does not lead on -/

/-- What is wrong with a trace that goes on with these lines after `i` lines that lead on. -/
def failure? (layout : Layout) (i : Nat) : List (Option (List Char)) → Option TraceError
  | [] => some (.unexpectedEnd i (LineKind.ofNumber (i + 1)))
  | none :: _ => some (.storage .notText)
  | some full :: _ => layout.fault? (i + 1) (Text.trim full)

/-- How a trace ends that goes on with these lines after `i` lines that lead on. -/
def verdict (layout : Layout) (i : Nat) (rest : List (Option (List Char))) :
    Except TraceError (Option Nat) :=
  Fault.judge (layout.failure? i rest) (if i = 0 then none else some ((i - 3) / 2))

/-- What the end of a run adds to the witness. -/
def closing : Except TraceError (Option Nat) → List WitnessLine
  | .ok (some _) => [.stop]
  | _ => []

theorem Of.run_of_not_leadsOn (h : Of ds layout) {stage : Stage} {i : Nat}
    (hnumber : stage.number = i + 1) (hready : layout.Ready stage)
    {rest : List (Option (List Char))}
    (hrest : ∀ full others, rest = some full :: others →
      ¬ layout.LeadsOn (i + 1) (Text.trim full))
    (kept : Array WitnessLine) (log : List Event) :
    (layout.lifter.run Sink.collect stage i kept log rest).result = layout.verdict i rest ∧
      (layout.lifter.run Sink.collect stage i kept log rest).sink =
        kept ++ (closing (layout.verdict i rest)).toArray := by
  cases rest with
  | nil =>
    rw [Lifter.run, verdict, failure?, ← hnumber, stage.ofNumber_number]
    exact ⟨rfl, (Array.append_empty).symm⟩
  | cons line others =>
    cases line with
    | none => exact ⟨rfl, (Array.append_empty).symm⟩
    | some full =>
      have hstep := h.step_eq_judge hready (Text.trim_trim full)
      have hnot := hrest full others rfl
      rw [Lifter.run, verdict, failure?]
      rw [hnumber] at hstep
      simp only [hstep]
      cases hfault : layout.fault? (i + 1) (Text.trim full) with
      | some e => exact ⟨rfl, (Array.append_empty).symm⟩
      | none =>
        -- In order and yet not leading on: the line concludes the trace.
        have hconcludes : concludes stage.number (Text.trim full) := by
          rw [hnumber]
          exact Classical.not_not.mp fun hnot' => hnot ⟨hfault, hnot'⟩
        rcases layout.move_of_concludes hconcludes with
          ⟨hone, result, hmove⟩ | ⟨k, hk, hmove⟩
        · have hi : i = 0 := by omega
          simp [hmove, if_pos hi, closing]
        · have hi : i ≠ 0 := by omega
          have hframes : (i - 3) / 2 = k := by omega
          simp [hmove, if_neg hi, hframes, Sink.collect, closing]

/-- A trace is lifted up to the first line that does not lead on, and that one is judged. -/
theorem Of.lift_spec (h : Of ds layout) {trace : Text.Bytes} {pre : List (List Char)}
    {rest : List (Option (List Char))} (htrace : Text.lines? trace = pre.map some ++ rest)
    (hpre : layout.Follows 1 (pre.map Text.trim))
    (hrest : ∀ full others, rest = some full :: others →
      ¬ layout.LeadsOn (pre.length + 1) (Text.trim full)) :
    (layout.lift trace).result = layout.verdict pre.length rest ∧
      (layout.lift trace).sink.toList =
        (layout.lifter.advance .header (pre.map Text.trim)).1 ++
          closing (layout.verdict pre.length rest) := by
  have hput := Sink.putAll_collect #[] (layout.lifter.advance .header (pre.map Text.trim)).1
  obtain ⟨log, hrun⟩ := h.run_of_follows (rfl : Stage.header.number = 0 + 1) trivial hpre hput [] rest
  obtain ⟨hreached, hready⟩ := h.advance_of_follows (show layout.Ready .header from trivial) hpre
  have hnumber : (layout.lifter.advance .header (pre.map Text.trim)).2.number = pre.length + 1 := by
    rw [hreached, List.length_map, Nat.add_comm]
    rfl
  have hlift : layout.lift trace = _ := (congrArg _ htrace).trans hrun
  rw [hlift, Nat.zero_add]
  obtain ⟨hresult, hsink⟩ := h.run_of_not_leadsOn hnumber hready hrest _ log
  refine ⟨hresult, ?_⟩
  rw [hsink]
  simp

end Layout

end WitnessLift
