-- SUMMARY: Lines that are joined are split again, as characters and as bytes.
import Mathlib.Data.List.SplitBy
import WitnessLift.Text.Lines

/-!
# Writing and reading lines

Lines that are written with a line feed behind each are read back, as text and as bytes, provided
that no line contains a line feed or ends with a carriage return. Any text is read line by line,
and a line end takes one byte, or two with a carriage return.
-/

namespace WitnessLift.Text

/-! ## Pieces -/

section Pieces

variable {α : Type} [BEq α] [LawfulBEq α] {stop : α} {s : List α}

theorem isChain_append_stop (h : stop ∉ s) :
    (s ++ [stop]).IsChain fun a _ => (a != stop) = true := by
  induction s with
  | nil => exact .singleton stop
  | cons a s ih =>
    obtain ⟨ha, hs⟩ := List.ne_and_not_mem_of_not_mem_cons h
    cases s with
    | nil => exact .cons_cons (bne_iff_ne.mpr (Ne.symm ha)) (.singleton stop)
    | cons b s => exact .cons_cons (bne_iff_ne.mpr (Ne.symm ha)) (ih hs)

/-- Sequences that are ended by a mark of their own are the pieces of what they join to. -/
theorem pieces_flatMap {l : List (List α)} (h : ∀ s ∈ l, stop ∉ s) :
    pieces stop (l.flatMap (· ++ [stop])) = l.map (· ++ [stop]) := by
  induction l with
  | nil => rfl
  | cons s l ih =>
    obtain ⟨hs, hl⟩ := List.forall_mem_cons.mp h
    unfold pieces at ih ⊢
    -- The mark at the end of the first sequence separates it from the rest.
    rw [List.flatMap_cons, List.splitBy_append, ih hl,
      List.splitBy_of_isChain (by simp) (isChain_append_stop hs)]
    · rfl
    · intro a ha b _
      simp at ha
      simp [ha]

/-- What ends with a mark is cut up apart from what follows it. -/
theorem pieces_append {t : List α} (h : s = [] ∨ s.getLast? = some stop) :
    pieces stop (s ++ t) = pieces stop s ++ pieces stop t := by
  apply List.splitBy_append
  intro a ha b _
  rcases h with rfl | hlast
  · cases ha
  · rw [hlast] at ha
    cases ha
    exact bne_self_eq_false stop

end Pieces

/-! ## Lines -/

/-- Lines with a line feed behind each. -/
def unlines (l : List (List Char)) : List Char := l.flatMap (· ++ ['\n'])

/-- Lines of text with a line feed behind each. -/
def ofLines (lines : List String) : String := String.join (lines.map (· ++ "\n"))

/-- What is read back if a line feed is written behind it. -/
def IsLine (s : List Char) : Prop := '\n' ∉ s ∧ s.getLast? ≠ some '\r'

theorem isLine_of_forall {s : List Char} (h : ∀ c ∈ s, c ≠ '\n' ∧ c ≠ '\r') : IsLine s :=
  ⟨fun hmem => (h _ hmem).1 rfl, fun hlast => (h _ (List.mem_of_getLast? hlast)).2 rfl⟩

theorem toList_ofLines (lines : List String) :
    (ofLines lines).toList = unlines (lines.map String.toList) := by
  simp [ofLines, unlines, String.toList_join, List.flatMap_map]

theorem chomp_append_newline {s : List Char} (h : IsLine s) : chomp (s ++ ['\n']) = s := by
  simp [chomp, h.2]

theorem lines_unlines {l : List (List Char)} (h : ∀ s ∈ l, IsLine s) : lines (unlines l) = l := by
  rw [lines, unlines, pieces_flatMap fun s hs => (h s hs).1, List.map_map]
  exact (List.map_congr_left fun s hs => chomp_append_newline (h s hs)).trans (List.map_id _)

/-- Only a line feed has the byte of a line feed in its encoding. -/
theorem newline_notMem_utf8EncodeChar {c : Char} (h : c ≠ '\n') :
    '\n'.toUInt8 ∉ String.utf8EncodeChar c := by
  have hval : c.val.toNat ≠ 10 := fun heq => h (Char.ext (UInt32.toNat_inj.mp heq))
  have hbyte : '\n'.toUInt8.toNat = 10 := rfl
  unfold String.utf8EncodeChar
  dsimp only
  -- One byte is the code itself, and each byte of a longer encoding is at least 128.
  split_ifs <;>
    simp only [List.mem_cons, List.not_mem_nil, or_false, not_or, ← UInt8.toNat_inj, hbyte,
      UInt8.toNat_ofNat'] <;>
    omega

theorem newline_notMem_encode {s : List Char} (h : '\n' ∉ s) : '\n'.toUInt8 ∉ encode s := by
  rw [encode, List.mem_flatMap]
  rintro ⟨c, hc, hmem⟩
  exact newline_notMem_utf8EncodeChar (fun heq => h (heq ▸ hc)) hmem

theorem encode_unlines (l : List (List Char)) :
    encode (unlines l) = (l.map encode).flatMap (· ++ ['\n'.toUInt8]) := by
  induction l with
  | nil => rfl
  | cons s l ih =>
    rw [unlines, List.flatMap_cons, encode_append, encode_append, List.map_cons, List.flatMap_cons,
      ← ih]
    rfl

/-- The bytes of written lines are read back. -/
theorem lines?_encode_unlines {l : List (List Char)} (h : ∀ s ∈ l, IsLine s) :
    lines? (encode (unlines l)) = l.map some := by
  have hbytes : ∀ bytes ∈ l.map encode, '\n'.toUInt8 ∉ bytes :=
    List.forall_mem_map.mpr fun s hs => newline_notMem_encode (h s hs).1
  rw [lines?, encode_unlines, pieces_flatMap hbytes, List.map_map, List.map_map]
  apply List.map_congr_left
  intro s hs
  have hencode : encode s ++ ['\n'.toUInt8] = encode (s ++ ['\n']) := by rw [encode_append]; rfl
  simp only [Function.comp_apply, hencode, decode_encode, Option.map_some,
    chomp_append_newline (h s hs)]

/-- The lines of a file that ends with a line feed stay the same when more is written behind it. -/
theorem lines?_append {s : Bytes} (h : s = [] ∨ s.getLast? = some '\n'.toUInt8) (t : Bytes) :
    lines? (s ++ t) = lines? s ++ lines? t := by
  rw [lines?, pieces_append h, List.map_append]
  rfl

/-! ## Line by line -/

/-- A line without the carriage return that belongs to a line feed behind it. -/
def dropReturn (s : List Char) : List Char := if s.getLast? = some '\r' then s.dropLast else s

/-- The number of line feeds with a carriage return directly before them. -/
def crlfs : List Char → Nat
  | [] => 0
  | c :: s => crlfs s + if c = '\r' ∧ s.head? = some '\n' then 1 else 0

section LineByLine

variable {s : List Char}

theorem chomp_newline (s : List Char) : chomp (s ++ ['\n']) = dropReturn s := by
  simp [chomp, dropReturn]

/-- The first line of a text and the lines behind it. -/
theorem lines_line (h : '\n' ∉ s) (rest : List Char) :
    lines (s ++ '\n' :: rest) = dropReturn s :: lines rest := by
  have hpieces : pieces '\n' (s ++ ['\n']) = [s ++ ['\n']] :=
    List.splitBy_of_isChain (by simp) (isChain_append_stop h)
  have hparts : s ++ '\n' :: rest = (s ++ ['\n']) ++ rest := by simp
  rw [lines, hparts, pieces_append (.inr (by simp)), hpieces, List.map_append, List.map_singleton,
    chomp_newline]
  rfl

/-- A last line without a line feed stays as it is. -/
theorem lines_last (h : '\n' ∉ s) (hne : s ≠ []) : lines s = [s] := by
  have hpieces : pieces '\n' s = [s] :=
    List.splitBy_of_isChain hne (isChain_append_stop h).left_of_append
  have hlast : s.getLast? ≠ some '\n' := fun hlast => h (List.mem_of_getLast? hlast)
  rw [lines, hpieces, List.map_singleton, chomp, if_neg hlast]

/-- A text is its first line, ended by a line feed, before another text, or it is a single line
without an end. -/
theorem line_induction {motive : List Char → Prop} (last : ∀ s, '\n' ∉ s → motive s)
    (line : ∀ s rest, '\n' ∉ s → motive rest → motive (s ++ '\n' :: rest)) (text : List Char) :
    motive text := by
  -- The first line grows at its end, so what is read of it is carried along.
  suffices h : ∀ s, '\n' ∉ s → motive (s ++ text) from h [] (by simp)
  induction text with
  | nil =>
    intro s hs
    rw [List.append_nil]
    exact last s hs
  | cons c text ih =>
    intro s hs
    by_cases hc : c = '\n'
    · subst hc
      exact line s text hs (ih [] (by simp))
    · have hmore : '\n' ∉ s ++ [c] := by simp [hs, Ne.symm hc]
      simpa using ih (s ++ [c]) hmore

theorem crlfs_line (h : '\n' ∉ s) (rest : List Char) :
    crlfs (s ++ '\n' :: rest) = (if s.getLast? = some '\r' then 1 else 0) + crlfs rest := by
  induction s with
  | nil => simp [crlfs]
  | cons c s ih =>
    obtain ⟨-, hs⟩ := List.ne_and_not_mem_of_not_mem_cons h
    rw [List.cons_append, crlfs, ih hs]
    cases s with
    | nil => simp [Nat.add_comm]
    | cons d s =>
      have hd : d ≠ '\n' := (List.ne_and_not_mem_of_not_mem_cons hs).1.symm
      simp [hd]

theorem byteSize_dropReturn (s : List Char) :
    byteSize (dropReturn s) + (if s.getLast? = some '\r' then 1 else 0) = byteSize s := by
  unfold dropReturn
  split
  · next hlast =>
    obtain ⟨s, rfl⟩ := List.getLast?_eq_some_iff.mp hlast
    rw [List.dropLast_concat, byteSize_append]
    rfl
  · rfl

/-- The carriage return that is left out of a line is one that is counted. -/
theorem byteSize_dropReturn_add_crlfs (h : '\n' ∉ s) (rest : List Char) :
    byteSize (dropReturn s) + 1 + crlfs (s ++ '\n' :: rest) =
      byteSize (s ++ ['\n']) + crlfs rest := by
  have hnewline : byteSize ['\n'] = 1 := rfl
  have hsize := byteSize_dropReturn s
  rw [crlfs_line h, byteSize_append, hnewline]
  omega

/-- What stands behind a text takes none of its line ends away. -/
theorem crlfs_le_append (s t : List Char) : crlfs s ≤ crlfs (s ++ t) := by
  induction s with
  | nil => exact Nat.zero_le _
  | cons c s ih =>
    have hhead : s.head? = some '\n' → (s ++ t).head? = some '\n' := by
      intro hhead
      rw [List.head?_append, hhead, Option.some_or]
    rw [List.cons_append, crlfs, crlfs]
    split
    · next hend => rw [if_pos ⟨hend.1, hhead hend.2⟩]; omega
    · omega

end LineByLine

/-! ## Places of lines -/

/-- Line number `n` of a text, counted from 1: what stands before it, the line up to its line feed,
and what stands behind it. -/
structure LineAt (text : List Char) (n : Nat) (before line after : List Char) : Prop where
  whole : text = before ++ (line ++ after)
  single : '\n' ∉ line
  begins : before = [] ∨ before.getLast? = some '\n'
  ends : after = [] ∨ after.head? = some '\n'
  number : before.count '\n' + 1 = n

theorem lineAt_last {line : List Char} (h : '\n' ∉ line) : LineAt line 1 [] line [] :=
  ⟨by simp, h, .inl rfl, .inl rfl, rfl⟩

theorem lineAt_line {line : List Char} (h : '\n' ∉ line) (rest : List Char) :
    LineAt (line ++ '\n' :: rest) 1 [] line ('\n' :: rest) :=
  ⟨by simp, h, .inl rfl, .inr rfl, rfl⟩

/-- One more line before a line raises its number. -/
theorem LineAt.behind {text before line after first : List Char} {n : Nat}
    (h : LineAt text n before line after) (hfirst : '\n' ∉ first) :
    LineAt (first ++ '\n' :: text) (1 + n) (first ++ '\n' :: before) line after where
  whole := by simp [h.whole]
  single := h.single
  begins := by
    right
    rcases h.begins with rfl | hlast
    · simp
    · rw [List.getLast?_append, List.getLast?_cons, hlast]
      rfl
  ends := h.ends
  number := by
    rw [List.count_append, List.count_eq_zero_of_not_mem hfirst, List.count_cons_self, ← h.number]
    omega

end WitnessLift.Text
