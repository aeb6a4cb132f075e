-- SUMMARY: The last line that is not blank decides what the output of a checker reports.
import WitnessLift.CheckResult
import WitnessLift.Proofs.Text.Blank
import WitnessLift.Proofs.Text.Lines

/-!
# What a checker's output reports

The last line that is not blank decides. Lines end at line feeds only, while more characters are
blank, so blanks at the end of the output may belong to the line that decides or stand behind it.
-/

namespace WitnessLift.CheckResult

open Text

/-- A text ends on a word: a line of it is the word with nothing but blanks around it, and behind
that line there are only blanks. -/
def EndsOn (text word : List Char) : Prop :=
  ∃ before line after, text = before ++ (line ++ after) ∧
    (before = [] ∨ before.getLast? = some '\n') ∧ '\n' ∉ line ∧ IsPadded word line ∧
    ∀ c ∈ after, isBlank c = true

variable {text line before blanks word : List Char}

/-! ## Line by line -/

theorem trim_dropReturn (line : List Char) : trim (dropReturn line) = trim line := by
  unfold dropReturn
  split
  · next hlast =>
    obtain ⟨line, rfl⟩ := List.getLast?_eq_some_iff.mp hlast
    rw [List.dropLast_concat]
    exact (trim_append_of_blank (List.forall_mem_singleton.mpr rfl)).symm
  · rfl

/-- Of a single line all is left but the blanks around it. -/
theorem lastLine?_last (h : '\n' ∉ line) :
    lastLine? line = if trim line = [] then none else some (trim line) := by
  by_cases hne : line = []
  · subst hne
    rfl
  · rw [lastLine?, lines_last h hne]
    cases htrim : trim line <;> simp [htrim]

/-- The first line counts only if no line behind it does. -/
theorem lastLine?_line (h : '\n' ∉ line) (rest : List Char) :
    lastLine? (line ++ '\n' :: rest) = (lastLine? rest).or (lastLine? line) := by
  rw [lastLine?_last h, lastLine?, lines_line h, List.map_cons, trim_dropReturn]
  cases htrim : trim line <;> simp [lastLine?, List.findRev?_eq_find?_reverse]

/-- Complete lines in front of a text count only if no line of the text does. -/
theorem lastLine?_append (h : before = [] ∨ before.getLast? = some '\n') (text : List Char) :
    lastLine? (before ++ text) = (lastLine? text).or (lastLine? before) := by
  have hlines : lines (before ++ text) = lines before ++ lines text := by
    rw [lines, pieces_append h, List.map_append]
    rfl
  rw [lastLine?, hlines, List.map_append]
  simp [List.findRev?_eq_find?_reverse, lastLine?]

theorem lastLine?_last_eq_none_iff (h : '\n' ∉ line) :
    lastLine? line = none ↔ ∀ c ∈ line, isBlank c = true := by
  rw [lastLine?_last h, ← trim_eq_nil_iff]
  split <;> simp [*]

theorem lastLine?_last_eq_some_iff (h : '\n' ∉ line) :
    lastLine? line = some word ↔ (word ≠ [] ∧ IsTrimmed word) ∧ IsPadded word line := by
  rw [and_assoc, ← trim_eq_iff, lastLine?_last h]
  split <;> grind

/-- A text without a line that counts is blank. -/
theorem lastLine?_eq_none_iff : lastLine? text = none ↔ ∀ c ∈ text, isBlank c = true := by
  induction text using line_induction with
  | last line h => exact lastLine?_last_eq_none_iff h
  | line line rest h ih =>
    have hnewline : isBlank '\n' = true := rfl
    rw [lastLine?_line h, Option.or_eq_none_iff, lastLine?_last_eq_none_iff h,
      List.forall_mem_append, List.forall_mem_cons]
    exact (and_congr_left' ih).trans (and_comm.trans (and_congr_right' (by simp [hnewline])))

/-- Blanks at the end of a text do not count. -/
theorem lastLine?_append_blank (h : ∀ c ∈ blanks, isBlank c = true) (text : List Char) :
    lastLine? (text ++ blanks) = lastLine? text := by
  induction text using line_induction with
  | last line hline =>
    -- The blanks up to the first line feed belong to the line, and no line behind them counts.
    cases blanks using line_induction with
    | last blanks hblanks =>
      have hwhole : '\n' ∉ line ++ blanks := by simp [hline, hblanks]
      rw [lastLine?_last hwhole, lastLine?_last hline, trim_append_of_blank h]
    | line blanks rest hblanks _ =>
      obtain ⟨hfirst, hrest⟩ := List.forall_mem_append.mp h
      have hwhole : '\n' ∉ line ++ blanks := by simp [hline, hblanks]
      have hnone := lastLine?_eq_none_iff.mpr (List.forall_mem_cons.mp hrest).2
      rw [← List.append_assoc, lastLine?_line hwhole, hnone, Option.none_or, lastLine?_last hwhole,
        lastLine?_last hline, trim_append_of_blank hfirst]
  | line line rest hline ih =>
    rw [List.append_assoc, List.cons_append, lastLine?_line hline, ih, lastLine?_line hline]

/-! ## The line that decides -/

/-- A text ends on the line that counts. -/
theorem lastLine?_eq_some_iff :
    lastLine? text = some word ↔ (word ≠ [] ∧ IsTrimmed word) ∧ EndsOn text word := by
  constructor
  · intro h
    induction text using line_induction with
    | last line hline =>
      obtain ⟨hword, hpadded⟩ := (lastLine?_last_eq_some_iff hline).mp h
      exact ⟨hword, [], line, [], by simp, .inl rfl, hline, hpadded, by simp⟩
    | line line rest hline ih =>
      rw [lastLine?_line hline] at h
      cases hrest : lastLine? rest with
      | some found =>
        rw [hrest, Option.some_or] at h
        obtain ⟨hword, before, last, after, rfl, hbefore, hlast⟩ := ih (hrest.trans h)
        refine ⟨hword, line ++ '\n' :: before, last, after, by simp, .inr ?_, hlast⟩
        rcases hbefore with rfl | hend
        · simp
        · simp [List.getLast?_append, List.getLast?_cons, hend]
      | none =>
        rw [hrest, Option.none_or] at h
        obtain ⟨hword, hpadded⟩ := (lastLine?_last_eq_some_iff hline).mp h
        have hafter : ∀ c ∈ '\n' :: rest, isBlank c = true :=
          List.forall_mem_cons.mpr ⟨rfl, lastLine?_eq_none_iff.mp hrest⟩
        exact ⟨hword, [], line, '\n' :: rest, rfl, .inl rfl, hline, hpadded, hafter⟩
  · rintro ⟨hword, before, line, after, rfl, hbefore, hline, hpadded, hafter⟩
    rw [lastLine?_append hbefore, lastLine?_append_blank hafter,
      (lastLine?_last_eq_some_iff hline).mpr ⟨hword, hpadded⟩, Option.some_or]

theorem ofOutput_of_lastLine?_eq {other : List Char} (h : lastLine? text = lastLine? other) :
    ofOutput text = ofOutput other := by
  rw [ofOutput, h, ofOutput]

/-- A definite result is the name that the text ends on. -/
theorem ofOutput_eq_iff {result : CheckResult} (h : result ≠ .unknown) :
    ofOutput text = result ↔ EndsOn text result.name.toList := by
  have hname : result.name.toList ≠ [] ∧ IsTrimmed result.name.toList := by
    cases result <;> exact ⟨by decide, isTrimmed_iff.mpr rfl⟩
  have hends : EndsOn text result.name.toList ↔ lastLine? text = some result.name.toList := by
    rw [lastLine?_eq_some_iff, and_iff_right hname]
  rw [hends, ofOutput]
  cases lastLine? text with
  | none => simp [h.symm]
  | some line =>
    have hword (word : String) : line = word.toList ↔ String.ofList line = word := by
      rw [← String.toList_inj, String.toList_ofList]
    rw [Option.some.injEq, hword]
    cases result with
    | unknown => exact (h rfl).elim
    | violated => grind [name]
    | safe => grind [name]

/-- The last line that is not blank decides, and it alone: the result is definite exactly if that
line is the name of a definite result. So neither blanks behind the text nor complete lines in front
of a text that is not blank change the result. -/
theorem ofOutput_last_line (text : List Char) :
    (ofOutput text = .violated ↔ EndsOn text "Unsafe".toList) ∧
    (ofOutput text = .safe ↔ EndsOn text "Safe".toList) ∧
    (ofOutput text = .unknown ↔ ¬ EndsOn text "Unsafe".toList ∧ ¬ EndsOn text "Safe".toList) ∧
    ((∀ c ∈ text, isBlank c = true) → ofOutput text = .unknown) ∧
    (∀ blanks, (∀ c ∈ blanks, isBlank c = true) → ofOutput (text ++ blanks) = ofOutput text) ∧
    ∀ before, (before = [] ∨ before.getLast? = some '\n') → (∃ c ∈ text, isBlank c = false) →
      ofOutput (before ++ text) = ofOutput text := by
  have hviolated : ofOutput text = .violated ↔ EndsOn text "Unsafe".toList :=
    ofOutput_eq_iff (by decide)
  have hsafe : ofOutput text = .safe ↔ EndsOn text "Safe".toList :=
    ofOutput_eq_iff (by decide)
  refine ⟨hviolated, hsafe, ?_, fun hblank => ?_, fun blanks hblanks => ?_,
    fun before hbefore hfull => ?_⟩
  · rw [← hviolated, ← hsafe]
    cases ofOutput text <;> decide
  · rw [ofOutput, lastLine?_eq_none_iff.mpr hblank]
  · exact ofOutput_of_lastLine?_eq (lastLine?_append_blank hblanks text)
  · apply ofOutput_of_lastLine?_eq
    rw [lastLine?_append hbefore]
    cases hlast : lastLine? text with
    | some word => rfl
    | none =>
      obtain ⟨c, hc, hfull⟩ := hfull
      rw [lastLine?_eq_none_iff.mp hlast c hc] at hfull
      cases hfull

example : ofOutput "Unsafe\nSafe\u000b\r\n\u0085\n".toList = .safe := by decide

end WitnessLift.CheckResult
