-- SUMMARY: Byte offsets as splits of a text.
import WitnessLift.BitRange

/-!
# Byte offsets

The bytes before and between two places of a text that stand between characters. A text of
characters that take one byte each has such a place at every offset.
-/

namespace WitnessLift

namespace Text

/-- A character takes at least one byte, and those of the rest come behind it. -/
theorem exists_byteSize_cons (c : Char) (a : List Char) :
    ∃ n, byteSize (c :: a) = n + 1 ∧ c.utf8Size ≤ n + 1 ∧ n + 1 - c.utf8Size = byteSize a := by
  have hpos := c.utf8Size_pos
  refine ⟨byteSize (c :: a) - 1, ?_, ?_, ?_⟩ <;> rw [byteSize_cons] <;> omega

theorem byteSize_pos {s : List Char} (h : s ≠ []) : 0 < byteSize s := by
  obtain ⟨c, s, rfl⟩ := List.exists_cons_of_ne_nil h
  rw [byteSize_cons]
  exact Nat.add_pos_left c.utf8Size_pos _

/-- The offset behind the first part of a text leads to the second part. -/
theorem dropBytes?_append (a b : List Char) : dropBytes? (byteSize a) (a ++ b) = some b := by
  induction a with
  | nil =>
    rw [byteSize_nil, List.nil_append]
    cases b <;> rfl
  | cons c a ih =>
    obtain ⟨n, hn, hfits, hrest⟩ := exists_byteSize_cons c a
    rw [hn, List.cons_append, dropBytes?, if_pos hfits, hrest, ih]

/-- The bytes of the first part of a text are that part. -/
theorem takeBytes?_append (a b : List Char) : takeBytes? (byteSize a) (a ++ b) = some a := by
  induction a with
  | nil =>
    rw [byteSize_nil, List.nil_append]
    cases b <;> rfl
  | cons c a ih =>
    obtain ⟨n, hn, hfits, hrest⟩ := exists_byteSize_cons c a
    rw [hn, List.cons_append, takeBytes?, if_pos hfits, hrest, ih]
    rfl

/-- An offset that leads somewhere has as many bytes before it. -/
theorem byteSize_of_dropBytes? {n : Nat} {s rest : List Char} (h : dropBytes? n s = some rest) :
    byteSize s = n + byteSize rest := by
  induction s generalizing n with
  | nil =>
    cases n with
    | zero =>
      cases h
      exact (Nat.zero_add _).symm
    | succ n => cases h
  | cons c s ih =>
    cases n with
    | zero =>
      cases h
      exact (Nat.zero_add _).symm
    | succ n =>
      rw [dropBytes?] at h
      split at h
      · have hrest := ih h
        rw [byteSize_cons]
        omega
      · cases h

/-- Bytes that can be taken are there. -/
theorem le_byteSize_of_takeBytes? {n : Nat} {s part : List Char} (h : takeBytes? n s = some part) :
    n ≤ byteSize s := by
  induction s generalizing n part with
  | nil =>
    cases n with
    | zero => exact Nat.zero_le _
    | succ n => cases h
  | cons c s ih =>
    cases n with
    | zero => exact Nat.zero_le _
    | succ n =>
      rw [takeBytes?] at h
      split at h
      · obtain ⟨part', hpart, -⟩ := Option.map_eq_some_iff.mp h
        have hrest := ih hpart
        rw [byteSize_cons]
        omega
      · cases h

theorem byteSize_reverse (s : List Char) : byteSize s.reverse = byteSize s := by
  induction s with
  | nil => rfl
  | cons c s ih =>
    rw [List.reverse_cons, byteSize_append, ih, byteSize_cons, byteSize_cons, byteSize_nil,
      Nat.add_zero, Nat.add_comm]

theorem byteSize_eq_length {s : List Char} (h : ∀ c ∈ s, c.utf8Size = 1) :
    byteSize s = s.length := by
  induction s with
  | nil => rfl
  | cons c s ih =>
    obtain ⟨hc, hs⟩ := List.forall_mem_cons.mp h
    rw [byteSize_cons, hc, ih hs, List.length_cons, Nat.add_comm]

end Text

namespace BitRange

/-- The text between the offsets of two places is what stands between them. -/
theorem text?_append (a b c : List Char) :
    text? ⟨Text.byteSize a, Text.byteSize a + Text.byteSize b⟩ (a ++ (b ++ c)) = some b := by
  rw [text?, if_pos (Nat.le_add_right _ _), Text.dropBytes?_append, Option.bind_some,
    Nat.add_sub_cancel_left, Text.takeBytes?_append]

/-- A range that can be cut out of a text lies within its bytes. -/
theorem bounds_of_text? {r : BitRange} {s part : List Char} (h : r.text? s = some part) :
    r.start ≤ r.stop ∧ r.stop ≤ Text.byteSize s := by
  unfold text? at h
  split at h
  · next hle =>
    obtain ⟨rest, hdrop, htake⟩ := Option.bind_eq_some_iff.mp h
    have hstart := Text.byteSize_of_dropBytes? hdrop
    have hwidth := Text.le_byteSize_of_takeBytes? htake
    exact ⟨hle, by omega⟩
  · cases h

/-- In a text of characters that take one byte each, every range stands between characters. -/
theorem text?_eq_some {r : BitRange} {s : List Char} (h : ∀ c ∈ s, c.utf8Size = 1)
    (hle : r.start ≤ r.stop) (hstop : r.stop ≤ s.length) :
    r.text? s = some ((s.drop r.start).take (r.stop - r.start)) := by
  have hstart : Text.byteSize (s.take r.start) = r.start := by
    rw [Text.byteSize_eq_length fun c hc => h c (List.mem_of_mem_take hc), List.length_take]
    omega
  have hwidth : Text.byteSize ((s.drop r.start).take (r.stop - r.start)) = r.stop - r.start := by
    rw [Text.byteSize_eq_length fun c hc => h c (List.mem_of_mem_drop (List.mem_of_mem_take hc)),
      List.length_take, List.length_drop]
    omega
  have hparts := text?_append (s.take r.start) ((s.drop r.start).take (r.stop - r.start))
    ((s.drop r.start).drop (r.stop - r.start))
  rw [List.take_append_drop, List.take_append_drop, hstart, hwidth, Nat.add_sub_cancel' hle] at hparts
  exact hparts

example : text? ⟨1, 3⟩ ['0', 'é'] = some ['é'] ∧ text? ⟨1, 2⟩ ['0', 'é'] = none := by decide

end BitRange

end WitnessLift
