-- SUMMARY: Trimming characterised as the unique split into blanks, core and blanks.
import Mathlib.Data.List.TakeWhile
import WitnessLift.Text.Blank

/-!
# Trimming

A trimmed text neither begins nor ends with a blank, and trimming it again changes nothing. Nothing
but blanks is taken away from a text, and of blanks alone nothing is left.
-/

namespace WitnessLift.Text

variable {s t : List Char}

theorem dropWhile_isBlank_of_head (h : ∀ c, s.head? = some c → isBlank c = false) :
    s.dropWhile isBlank = s := by
  cases s with
  | nil => rfl
  | cons c s => exact List.dropWhile_cons_of_neg (by simp [h c rfl])

theorem head?_dropWhile_isBlank {c : Char} (h : (s.dropWhile isBlank).head? = some c) :
    isBlank c = false := by
  have hnot := List.head?_dropWhile_not isBlank s
  rw [h] at hnot
  simpa using hnot

theorem trimEnd_isPrefix (s : List Char) : trimEnd s <+: s := by
  have hsuffix : s.reverse.dropWhile isBlank <:+ s.reverse := List.dropWhile_suffix _
  simpa [trimEnd] using List.reverse_prefix.mpr hsuffix

/-! ## Trimmed texts -/

/-- A text that neither begins nor ends with a blank. -/
def IsTrimmed (s : List Char) : Prop :=
  (∀ c, s.head? = some c → isBlank c = false) ∧ ∀ c, s.getLast? = some c → isBlank c = false

theorem IsTrimmed.trim_eq (h : IsTrimmed s) : trim s = s := by
  have hreverse : ∀ c, s.reverse.head? = some c → isBlank c = false := by
    rw [List.head?_reverse]
    exact h.2
  rw [trim, dropWhile_isBlank_of_head h.1, trimEnd, dropWhile_isBlank_of_head hreverse,
    List.reverse_reverse]

theorem isTrimmed_of_forall (h : ∀ c ∈ s, isBlank c = false) : IsTrimmed s :=
  ⟨fun c hc => h c (List.mem_of_head? hc), fun c hc => h c (List.mem_of_getLast? hc)⟩

/-- A text without blanks stays as it is. -/
theorem trim_eq_self (h : ∀ c ∈ s, isBlank c = false) : trim s = s :=
  (isTrimmed_of_forall h).trim_eq

theorem isTrimmed_trim (s : List Char) : IsTrimmed (trim s) := by
  constructor
  · intro c hc
    obtain ⟨rest, hrest⟩ := trimEnd_isPrefix (s.dropWhile isBlank)
    refine head?_dropWhile_isBlank (s := s) ?_
    rw [← hrest, List.head?_append, show (trimEnd (s.dropWhile isBlank)).head? = some c from hc,
      Option.some_or]
  · intro c hc
    rw [trim, trimEnd, List.getLast?_reverse] at hc
    exact head?_dropWhile_isBlank hc

theorem trim_trim (s : List Char) : trim (trim s) = trim s := (isTrimmed_trim s).trim_eq

theorem isTrimmed_iff : IsTrimmed s ↔ trim s = s := ⟨IsTrimmed.trim_eq, fun h => h ▸ isTrimmed_trim s⟩

/-! ## Blanks around a text -/

/-- A text with nothing but blanks around it. -/
def IsPadded (s padded : List Char) : Prop :=
  ∃ left right, padded = left ++ (s ++ right) ∧ (∀ c ∈ left, isBlank c = true) ∧
    ∀ c ∈ right, isBlank c = true

/-- Blanks behind a text are trimmed away. -/
theorem trim_append_of_blank (h : ∀ c ∈ t, isBlank c = true) : trim (s ++ t) = trim s := by
  unfold trim trimEnd
  rw [List.dropWhile_append]
  split
  · next hs => rw [List.isEmpty_iff.mp hs, List.dropWhile_eq_nil_iff.mpr h]
  · have hreverse : ∀ c ∈ t.reverse, isBlank c = true := fun c hc => h c (List.mem_reverse.mp hc)
    rw [List.reverse_append, List.dropWhile_append_of_pos hreverse]

theorem isPadded_trim (s : List Char) : IsPadded (trim s) s := by
  have hblank (s : List Char) : ∀ c ∈ s.takeWhile isBlank, isBlank c = true :=
    fun c hc => List.mem_takeWhile_imp hc
  refine ⟨s.takeWhile isBlank, ((s.dropWhile isBlank).reverse.takeWhile isBlank).reverse, ?_,
    hblank s, fun c hc => hblank _ c (List.mem_reverse.mp hc)⟩
  rw [trim, trimEnd, ← List.reverse_append, List.takeWhile_append_dropWhile, List.reverse_reverse,
    List.takeWhile_append_dropWhile]

/-- Trimming takes the blanks around a text away and nothing else. -/
theorem trim_eq_iff : trim t = s ↔ IsTrimmed s ∧ IsPadded s t := by
  constructor
  · rintro rfl
    exact ⟨isTrimmed_trim t, isPadded_trim t⟩
  · rintro ⟨htrimmed, left, right, rfl, hleft, hright⟩
    rw [← List.append_assoc, trim_append_of_blank hright, trim, List.dropWhile_append_of_pos hleft,
      ← trim, htrimmed.trim_eq]

/-- Only blanks are trimmed to nothing. -/
theorem trim_eq_nil_iff : trim s = [] ↔ ∀ c ∈ s, isBlank c = true := by
  constructor
  · intro h
    obtain ⟨-, left, right, rfl, hleft, hright⟩ := trim_eq_iff.mp h
    exact List.forall_mem_append.mpr ⟨hleft, hright⟩
  · intro h
    exact trim_eq_iff.mpr ⟨isTrimmed_of_forall (by simp), s, [], by simp, h, by simp⟩

end WitnessLift.Text
