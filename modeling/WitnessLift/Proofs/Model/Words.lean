-- SUMMARY: The words of a line, and the text between them by offsets.
import WitnessLift.Model.Parser
import WitnessLift.Proofs.Text.Offsets

/-!
# Words of a line

The tokens of a line are its words at their places: the longest runs of characters without a
separator, up to the comment. What stands on a line from one word to another is found between the
offsets of their tokens.
-/

namespace WitnessLift

/-! ## Words -/

/-- The part of a line before its first `;`. -/
def Line.code (line : List Char) : List Char := line.takeWhile (· != ';')

/-- The words of a line: the longest runs without a separator in the part before its comment. -/
def Line.words (line : List Char) : List String :=
  (((code line).splitOnP Token.isSeparator).filter (!·.isEmpty)).map String.ofList

namespace Token

/-- Characters that only separate words. -/
def IsGap (s : List Char) : Prop := ∀ c ∈ s, isSeparator c = true

/-- Characters that make up a word. -/
def IsWord (s : List Char) : Prop := s ≠ [] ∧ ∀ c ∈ s, isSeparator c = false ∧ c ≠ ';'

/-- A word that stands before these characters goes no further. -/
def Closes (s : List Char) : Prop := ∀ c, s.head? = some c → isSeparator c = true ∨ c = ';'

variable {gap word rest : List Char}

theorem ne_comment_of_isSeparator {c : Char} (h : isSeparator c = true) : c ≠ ';' := by
  rintro rfl
  cases h

theorem isGap_nil : IsGap [] := by
  intro c hc
  simp at hc

theorem IsGap.cons {c : Char} (hc : isSeparator c = true) (h : IsGap gap) : IsGap (c :: gap) := by
  intro d hd
  rcases List.mem_cons.mp hd with rfl | hd
  · exact hc
  · exact h d hd

/-- What begins with a word begins with no separator. -/
theorem IsWord.first (h : IsWord word) (rest : List Char) {c : Char}
    (hc : (word ++ rest).head? = some c) :
    isSeparator c = false := by
  obtain ⟨d, word, rfl⟩ := List.exists_cons_of_ne_nil h.1
  obtain rfl : d = c := by simpa using hc
  exact (h.2 d List.mem_cons_self).1

/-- What ends with a word ends with no separator. -/
theorem IsWord.last (h : IsWord word) (rest : List Char) {c : Char}
    (hc : (rest ++ word).getLast? = some c) :
    isSeparator c = false := by
  obtain ⟨word, d, rfl⟩ := (List.eq_nil_or_concat word).resolve_left h.1
  obtain rfl : d = c := by simpa using hc
  exact (h.2 d (by simp)).1

theorem closes_nil : Closes [] := by
  intro c hc
  simp at hc

theorem closes_cons {c : Char} (h : isSeparator c = true ∨ c = ';') : Closes (c :: rest) := by
  intro d hd
  cases hd
  exact h

/-- What closes a word closes it where it is cut off. -/
theorem Closes.of_append {s t : List Char} (h : Closes (s ++ t)) : Closes s := by
  intro c hc
  apply h c
  rw [List.head?_append, hc, Option.some_or]

end Token

namespace Line

open Token

variable {gap word rest : List Char}

theorem code_append {s : List Char} (h : ∀ c ∈ s, c ≠ ';') (rest : List Char) :
    code (s ++ rest) = s ++ code rest :=
  List.takeWhile_append_of_pos fun c hc => bne_iff_ne.mpr (h c hc)

theorem words_cons_of_isSeparator {c : Char} (h : isSeparator c = true) (rest : List Char) :
    words (c :: rest) = words rest := by
  have hcode : code (c :: rest) = c :: code rest :=
    code_append (s := [c]) (by simpa using ne_comment_of_isSeparator h) rest
  rw [words, hcode, List.splitOnP_cons_eq_if_modifyHead, if_pos h]
  rfl

/-- Separators before the first word do not matter. -/
theorem words_gap_append (h : IsGap gap) (rest : List Char) : words (gap ++ rest) = words rest := by
  induction gap with
  | nil => rfl
  | cons c gap ih =>
    obtain ⟨hc, hgap⟩ := List.forall_mem_cons.mp h
    rw [List.cons_append, words_cons_of_isSeparator hc, ih hgap]

/-- A word with something behind it that closes it is the first word. -/
theorem words_word_append (hword : IsWord word) (hrest : Closes rest) :
    words (word ++ rest) = String.ofList word :: words rest := by
  have hrun : ∀ c ∈ word, isSeparator c = false := fun c hc => (hword.2 c hc).1
  have hcode : code (word ++ rest) = word ++ code rest :=
    code_append (fun c hc => (hword.2 c hc).2) rest
  -- In front of a comment or of the end of the line the word is all that is left.
  have hlast : code rest = [] → words (word ++ rest) = [String.ofList word] := by
    intro hempty
    simp [words, hcode, hempty, List.splitOnP_eq_singleton hrun, hword.1]
  cases rest with
  | nil => exact hlast rfl
  | cons c rest =>
    rcases hrest c rfl with hc | rfl
    · have hcode' : code (c :: rest) = c :: code rest :=
        code_append (s := [c]) (by simpa using ne_comment_of_isSeparator hc) rest
      rw [words_cons_of_isSeparator hc, words, hcode, hcode',
        List.splitOnP_append_cons_of_forall_mem hrun c hc]
      simp [words, hword.1]
    · exact hlast rfl

end Line

/-! ## Tokens at their places -/

namespace Token

/-- The tokens stand on a line that begins at byte `offset`: separators before each, and behind the
last one separators up to the end of the line or to its comment. -/
inductive Stand : Nat → List Char → List Token → Prop
  | nil {offset : Nat} {gap rest : List Char} :
    IsGap gap → (∀ c, rest.head? = some c → c = ';') → Stand offset (gap ++ rest) []
  | cons {offset : Nat} {gap rest : List Char} {t : Token} {ts : List Token} :
    IsGap gap → IsWord t.text → t.start = offset + Text.byteSize gap → Closes rest →
    Stand t.stop rest ts → Stand offset (gap ++ (t.text ++ rest)) (t :: ts)

variable {offset : Nat} {line : List Char} {ts : List Token}

theorem stand_nil (offset : Nat) : Stand offset [] [] :=
  .nil isGap_nil fun _ hc => nomatch hc

/-- No token stands on a comment. -/
theorem stand_comment (offset : Nat) (rest : List Char) : Stand offset (';' :: rest) [] :=
  .nil isGap_nil fun _ hc => (Option.some.inj hc).symm

/-- A token with nothing before it. -/
theorem Stand.word {t : Token} {rest : List Char} (hword : IsWord t.text)
    (hrest : Closes rest) (h : Stand t.stop rest ts) : Stand t.start (t.text ++ rest) (t :: ts) :=
  .cons isGap_nil hword rfl hrest h

theorem Stand.words_eq (h : Stand offset line ts) : Line.words line = ts.map Token.name := by
  induction h with
  | @nil offset gap rest hgap hrest =>
    rw [Line.words_gap_append hgap]
    cases rest with
    | nil => rfl
    | cons c rest =>
      rw [hrest c rfl]
      rfl
  | cons hgap hword _ hrest _ ih =>
    rw [Line.words_gap_append hgap, Line.words_word_append hword hrest, ih]
    rfl

/-- A separator more before the first token moves nothing. -/
theorem Stand.separator {c : Char} (hc : isSeparator c = true)
    (h : Stand (offset + c.utf8Size) line ts) : Stand offset (c :: line) ts := by
  cases h with
  | nil hgap hrest => exact .nil (hgap.cons hc) hrest
  | @cons _ gap rest t ts hgap hword hstart hrest hstand =>
    refine .cons (hgap.cons hc) hword ?_ hrest hstand
    rw [hstart, Text.byteSize_cons, Nat.add_assoc]

/-- The token of a run that comes to its end stands before what stands behind it. -/
theorem Stand.ofRun {run : List Char} (hrun : ∀ c ∈ run, isSeparator c = false ∧ c ≠ ';')
    (hline : Closes line) (h : Stand (offset + Text.byteSize run) line ts) :
    Stand offset (run.reverse ++ line) (ofRun run (offset + Text.byteSize run) ++ ts) := by
  by_cases hempty : run = []
  · subst hempty
    exact h
  · have hword : IsWord run.reverse :=
      ⟨by simpa using hempty, fun c hc => hrun c (List.mem_reverse.mp hc)⟩
    have htoken : Token.ofRun run (offset + Text.byteSize run) = [⟨offset, run.reverse⟩] := by
      simp [Token.ofRun, hempty]
    have hstop : Token.stop ⟨offset, run.reverse⟩ = offset + Text.byteSize run := by
      rw [Token.stop, Text.byteSize_reverse]
    rw [htoken]
    exact Stand.word (t := ⟨offset, run.reverse⟩) hword hline (hstop ▸ h)

theorem stand_scan {run : List Char} (hrun : ∀ c ∈ run, isSeparator c = false ∧ c ≠ ';')
    (offset : Nat) (rest : List Char) :
    Stand offset (run.reverse ++ rest)
      (LineTokens.scan (offset + Text.byteSize run) run rest).tokens := by
  -- Induction on what is left of the line. The run before it is a word that has not ended yet, so
  -- the line it belongs to begins with the run, and `offset` is where the run begins.
  induction rest generalizing run offset with
  | nil =>
    simpa [LineTokens.scan] using (stand_nil (offset + Text.byteSize run)).ofRun hrun closes_nil
  | cons c rest ih =>
    rw [LineTokens.scan]
    split
    · next hcomment =>
      subst hcomment
      have hend := stand_comment (offset + Text.byteSize run) rest
      simpa using hend.ofRun hrun (closes_cons (.inr rfl))
    · next hcode =>
      split
      · next hc =>
        have hnone : ∀ c ∈ ([] : List Char), isSeparator c = false ∧ c ≠ ';' := by simp
        have hrest := ih hnone (offset + Text.byteSize run + c.utf8Size)
        exact (hrest.separator hc).ofRun hrun (closes_cons (.inl hc))
      · next hc =>
        have hmore : ∀ d ∈ c :: run, isSeparator d = false ∧ d ≠ ';' := by
          simpa [hc, hcode] using hrun
        have hrest := ih hmore offset
        rw [Text.byteSize_cons, List.reverse_cons, List.append_assoc] at hrest
        rwa [Nat.add_assoc, Nat.add_comm (Text.byteSize run)]

/-- The tokens of a line stand on it. -/
theorem stand_ofLine (line : List Char) : Stand 0 line (LineTokens.ofLine line).tokens := by
  have hnone : ∀ c ∈ ([] : List Char), isSeparator c = false ∧ c ≠ ';' := by simp
  exact stand_scan hnone 0 line

example : Line.words "3\tstate 1  count;x".toList = ["3", "state", "1", "count"] := by decide

/-! ## From one word to another -/

/-- A line is cut before and behind each of its tokens. -/
theorem Stand.cut {before after : List Token} {t : Token}
    (h : Stand offset line (before ++ t :: after)) :
    ∃ left right, line = left ++ (t.text ++ right) ∧ t.start = offset + Text.byteSize left ∧
      Stand offset left before ∧ Stand offset (left ++ t.text) (before ++ [t]) ∧
      (∀ c ∈ left ++ t.text, c ≠ ';') ∧ IsWord t.text ∧ Stand t.stop right after ∧
      Closes right := by
  -- Induction on the tokens before the cut: each adds what stands up to its end to the left part.
  induction before generalizing offset line with
  | nil =>
    cases h with
    | @cons _ gap rest _ _ hgap hword hstart hrest hstand =>
      refine ⟨gap, rest, rfl, hstart, ?_, ?_, ?_, hword, hstand, hrest⟩
      · have hblank : Stand offset (gap ++ []) [] := .nil hgap (by simp)
        rwa [List.append_nil] at hblank
      · simpa using Stand.cons hgap hword hstart closes_nil (stand_nil _)
      · intro c hc
        rcases List.mem_append.mp hc with hc | hc
        · exact ne_comment_of_isSeparator (hgap c hc)
        · exact (hword.2 c hc).2
  | cons u before ih =>
    cases h with
    | @cons _ gap rest _ _ hgap hword hstart hrest hstand =>
      obtain ⟨left, right, rfl, hplace, hleft, hupto, hcode, hrest'⟩ := ih hstand
      refine ⟨gap ++ (u.text ++ left), right, by simp, ?_, ?_, ?_, ?_, hrest'⟩
      · rw [hplace, Token.stop, hstart]
        simp [Nat.add_assoc]
      · exact Stand.cons hgap hword hstart hrest.of_append hleft
      · have hclosed : Closes (left ++ t.text) := by
          apply Closes.of_append (t := right)
          rwa [List.append_assoc]
        simpa using Stand.cons hgap hword hstart hclosed hupto
      · intro c hc
        simp only [List.append_assoc, List.mem_append] at hc hcode
        rcases hc with hc | hc | hc
        · exact ne_comment_of_isSeparator (hgap c hc)
        · exact (hword.2 c hc).2
        · exact hcode c hc

/-- The part of a line that ends with the last of its first tokens. -/
theorem Stand.through {among after : List Token} (h : Stand offset line (among ++ after)) :
    ∃ part right, line = part ++ right ∧ Stand offset part among ∧ (∀ c ∈ part, c ≠ ';') ∧
      (∀ c, part.getLast? = some c → isSeparator c = false) ∧
      (among.getLast?.map Token.stop).getD offset = offset + Text.byteSize part ∧
      Line.words right = after.map Token.name := by
  rcases List.eq_nil_or_concat among with rfl | ⟨among, t, rfl⟩
  · exact ⟨[], line, rfl, stand_nil offset, by simp, by simp, rfl, h.words_eq⟩
  · have hcut : Stand offset line (among ++ t :: after) := by simpa using h
    obtain ⟨left, right, rfl, hstart, -, hupto, hcode, hword, hafter, -⟩ := hcut.cut
    refine ⟨left ++ t.text, right, by simp, by simpa using hupto, hcode, ?_, ?_, hafter.words_eq⟩
    · exact fun c hc => hword.last left hc
    · simp [Token.stop, hstart, Nat.add_assoc]

end Token

namespace Line

open Token

/-- A word is made of characters of its line, and none of these is a separator. -/
theorem isWord_of_mem_words {line : List Char} {word : String} (h : word ∈ words line) :
    IsWord word.toList ∧ ∀ c ∈ word.toList, c ∈ line := by
  have hstand := stand_ofLine line
  rw [hstand.words_eq] at h
  obtain ⟨t, ht, rfl⟩ := List.mem_map.mp h
  obtain ⟨before, after, htokens⟩ := List.append_of_mem ht
  rw [htokens] at hstand
  obtain ⟨left, right, rfl, -, -, -, -, hword, -⟩ := hstand.cut
  rw [Token.name, String.toList_ofList]
  exact ⟨hword, fun c hc => by simp [hc]⟩

/-- A part of a line that begins with one of its words and ends with one, both of them whole: what
stands before it, the part itself, and what stands behind it. -/
structure Spans (line left part right : List Char) : Prop where
  whole : line = left ++ (part ++ right)
  inOrder : words line = words left ++ (words part ++ words right)
  noComment : ∀ c ∈ left ++ part, c ≠ ';'
  nonempty : part ≠ []
  first : ∀ c, part.head? = some c → isSeparator c = false
  last : ∀ c, part.getLast? = some c → isSeparator c = false

/-- What stands on a line from one of its tokens to another. -/
theorem exists_spans {offset : Nat} {line : List Char} {before among after : List Token} {t : Token}
    (h : Stand offset line (before ++ t :: (among ++ after))) :
    ∃ left part right, Spans line left part right ∧
      words left = before.map Token.name ∧ words part = (t :: among).map Token.name ∧
      t.start = offset + Text.byteSize left ∧
      (among.getLastD t).stop = offset + Text.byteSize (left ++ part) := by
  have hwords := h.words_eq
  obtain ⟨left, rest, rfl, hstart, hleft, -, hcode, hword, hstand, hrest⟩ := h.cut
  obtain ⟨more, right, rfl, hmore, hcode', hlast, hstop, hright⟩ := hstand.through
  -- The part begins at its first token, so that its words are those of the tokens on it.
  have hpart : Stand t.start (t.text ++ more) (t :: among) := .word hword hrest.of_append hmore
  refine ⟨left, t.text ++ more, right, ⟨by simp, ?_, ?_, by simp [hword.1], ?_, ?_⟩,
    hleft.words_eq, hpart.words_eq, hstart, ?_⟩
  · rw [hwords, hleft.words_eq, hpart.words_eq, hright]
    simp
  · intro c hc
    rcases List.mem_append.mp hc with hc | hc
    · exact hcode c (List.mem_append_left _ hc)
    · rcases List.mem_append.mp hc with hc | hc
      · exact hcode c (List.mem_append_right _ hc)
      · exact hcode' c hc
  · exact fun c hc => hword.first more hc
  · intro c hc
    rw [List.getLast?_append] at hc
    cases hend : more.getLast? with
    | none =>
      rw [hend, Option.none_or] at hc
      exact hword.last [] hc
    | some d =>
      rw [hend, Option.some_or] at hc
      exact hlast c (hend.trans hc)
  · rw [List.getLastD_eq_getLast?]
    cases hend : among.getLast? <;>
      simp_all [Token.stop, Nat.add_assoc]

/-- A part with a single word is that word. -/
theorem Spans.eq_toList {line left part right : List Char} (h : Spans line left part right)
    {word : String} (hword : words part = [word]) : part = word.toList := by
  have hstand := stand_ofLine part
  rw [hstand.words_eq, List.map_eq_singleton_iff] at hword
  obtain ⟨t, htokens, rfl⟩ := hword
  rw [htokens] at hstand
  generalize hwhole : part = whole at hstand
  cases hstand with
  | @cons _ gap _ _ _ hgap hisWord _ _ hrest =>
    cases hrest with
    | @nil _ gap' rest hgap' hrest =>
      -- Neither separators nor a comment are left around the word.
      have hbare : rest = [] := by
        cases rest with
        | nil => rfl
        | cons c rest =>
          refine absurd (hrest c rfl) (h.noComment c ?_)
          simp [hwhole]
      have hbefore : gap = [] := by
        cases gap with
        | nil => rfl
        | cons c gap =>
          have hc := h.first c (by simp [hwhole])
          exact Bool.noConfusion (hc.symm.trans (hgap c List.mem_cons_self))
      have hbehind : gap' = [] := by
        rcases List.eq_nil_or_concat gap' with hnil | ⟨gap', c, rfl⟩
        · exact hnil
        · have hc := h.last c (by simp [hwhole, hbare])
          exact Bool.noConfusion (hc.symm.trans (hgap' c (by simp)))
      simp [hbare, hbefore, hbehind, Token.name]

end Line

end WitnessLift
