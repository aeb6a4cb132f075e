-- SUMMARY: Laws of the two sinks for lists of lines.
import WitnessLift.Lift.Sink

/-!
# Sinks

What becomes of lines that are given to a sink. A sink that keeps all lines has them in order, and a
sink of limited room has the first bytes of them.
-/

namespace WitnessLift

/-! ## Bytes of lines -/

theorem Text.encode_join (l : List String) :
    encode (String.join l).toList = l.flatMap fun s => encode s.toList := by
  simp [encode, String.toList_join, List.flatMap_assoc]

/-- The bytes of a text are the bytes of its lines, one after the other. -/
theorem WitnessLine.encode_text (names : Bool) (lines : List WitnessLine) :
    Text.encode (text names lines).toList = lines.flatMap (bytes names) := by
  rw [text, Text.encode_join, List.flatMap_map]
  rfl

namespace Sink

/-! ## Any sink -/

section

variable {σ : Type} {sink : Sink σ} {s s' : σ} {lines : List WitnessLine} {cause : StorageError}

/-- A sink that takes some lines is given those behind them. -/
theorem putAll_append_of_none (h : sink.putAll s lines = (s', none)) (more : List WitnessLine) :
    sink.putAll s (lines ++ more) = sink.putAll s' more := by
  induction lines generalizing s with
  | nil =>
    cases h
    rfl
  | cons line lines ih =>
    rw [List.cons_append, putAll]
    rw [putAll] at h
    rcases hput : sink.put s line with ⟨middle, _ | failure⟩
    · rw [hput] at h
      exact ih h
    · rw [hput] at h
      cases h

/-- A sink that fails on some lines is not given those behind them. -/
theorem putAll_append_of_some (h : sink.putAll s lines = (s', some cause))
    (more : List WitnessLine) : sink.putAll s (lines ++ more) = (s', some cause) := by
  induction lines generalizing s with
  | nil => cases h
  | cons line lines ih =>
    rw [List.cons_append, putAll]
    rw [putAll] at h
    rcases hput : sink.put s line with ⟨middle, _ | failure⟩
    · rw [hput] at h
      exact ih h
    · rw [hput] at h
      exact h

/-- A sink that takes some lines and more behind them takes the first ones. -/
theorem putAll_append_eq_none {more : List WitnessLine}
    (h : sink.putAll s (lines ++ more) = (s', none)) :
    ∃ middle, sink.putAll s lines = (middle, none) ∧ sink.putAll middle more = (s', none) := by
  rcases hput : sink.putAll s lines with ⟨middle, _ | cause⟩
  · rw [putAll_append_of_none hput] at h
    exact ⟨middle, rfl, h⟩
  · rw [putAll_append_of_some hput] at h
    cases h

end

/-! ## A sink that keeps all lines -/

theorem putAll_collect (kept : Array WitnessLine) (lines : List WitnessLine) :
    collect.putAll kept lines = (kept ++ lines.toArray, none) := by
  induction lines generalizing kept with
  | nil => simp [putAll]
  | cons line lines ih =>
    rw [putAll]
    change collect.putAll (kept.push line) lines = _
    rw [ih, List.push_append_toArray]

/-! ## Sinks of limited room -/

/-- A sink of limited room that fails with a cause of its own. -/
def limitedWith (names : Bool) (cause : StorageError) : Sink Quota where
  put q line := (((limited names).put q line).1, ((limited names).put q line).2.map fun _ => cause)

theorem limitedWith_full (names : Bool) : limitedWith names .full = limited names := by
  have hput : (limitedWith names .full).put = (limited names).put := by
    funext q line
    by_cases h : (line.bytes names).length ≤ q.room <;> simp [limitedWith, limited, h]
  exact congrArg Sink.mk hput

theorem put_limitedWith (names : Bool) (cause : StorageError) (q : Quota) (line : WitnessLine) :
    (limitedWith names cause).put q line =
      ({ written := q.written ++ (line.bytes names).take q.room,
         room := q.room - (line.bytes names).length },
        if (line.bytes names).length ≤ q.room then none else some cause) := by
  have hroom : q.room - min q.room (line.bytes names).length =
      q.room - (line.bytes names).length := by
    omega
  unfold limitedWith limited
  dsimp only
  rw [List.length_take, hroom]
  split <;> rfl

/-- A sink of limited room takes as many bytes of all lines as there is room for. -/
theorem putAll_limitedWith (names : Bool) (cause : StorageError) (q : Quota)
    (lines : List WitnessLine) :
    (limitedWith names cause).putAll q lines =
      ({ written := q.written ++ (lines.flatMap (WitnessLine.bytes names)).take q.room,
         room := q.room - (lines.flatMap (WitnessLine.bytes names)).length },
        if (lines.flatMap (WitnessLine.bytes names)).length ≤ q.room then none
        else some cause) := by
  induction lines generalizing q with
  | nil => simp [putAll]
  | cons line lines ih =>
    rw [putAll, put_limitedWith, List.flatMap_cons]
    by_cases h : (line.bytes names).length ≤ q.room
    · -- The line fits, so the lines behind it have the rest of the room.
      rw [if_pos h]
      dsimp only
      rw [ih, List.take_append, List.length_append, List.append_assoc]
      simp [Nat.sub_sub, Nat.le_sub_iff_add_le' h]
    · -- The line does not fit, and nothing of those behind it is taken.
      have hall : ¬ (line.bytes names ++ lines.flatMap (WitnessLine.bytes names)).length ≤
          q.room := by
        rw [List.length_append]
        omega
      have htake : (line.bytes names ++ lines.flatMap (WitnessLine.bytes names)).take q.room =
          (line.bytes names).take q.room :=
        List.take_append_of_le_length (Nat.le_of_not_le h)
      have hroom : q.room - (line.bytes names ++ lines.flatMap (WitnessLine.bytes names)).length =
          q.room - (line.bytes names).length := by
        rw [List.length_append]
        omega
      rw [if_neg h, if_neg hall, htake, hroom]

end Sink

end WitnessLift
