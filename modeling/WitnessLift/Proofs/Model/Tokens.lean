-- SUMMARY: Tokens are exactly the maximal runs before the comment, at their byte offsets.
import WitnessLift.Proofs.Model.Words

/-!
# Tokens of a line

A line is taken apart without loss: its tokens are the longest runs without a separator before the
first `;`, all of them and in their order, each at the byte offset at which it stands, and the
comment is what follows that `;`.
-/

namespace WitnessLift

open Token

/-! ## Runs -/

/-- A word of a line that cannot be longer: before it stands a separator or nothing, and behind it a
separator, the comment or nothing. -/
structure Line.Run (line left word right : List Char) : Prop where
  whole : line = left ++ (word ++ right)
  isWord : IsWord word
  noComment : ';' ∉ left
  opens : ∀ c, left.getLast? = some c → isSeparator c = true
  closes : Closes right

namespace Token

variable {word word' right right' : List Char}

theorem IsWord.exists_cons (h : IsWord word) :
    ∃ c rest, word = c :: rest ∧ isSeparator c = false ∧ c ≠ ';' := by
  obtain ⟨c, rest, rfl⟩ := List.exists_cons_of_ne_nil h.1
  exact ⟨c, rest, rfl, h.2 c List.mem_cons_self⟩

/-- What closes a word does not begin with one. -/
theorem IsWord.not_closes (h : IsWord word) (right : List Char) : ¬ Closes (word ++ right) := by
  intro hclosed
  obtain ⟨c, rest, rfl, hseparator, hcomment⟩ := h.exists_cons
  rcases hclosed c rfl with hc | hc
  · exact Bool.noConfusion (hc.symm.trans hseparator)
  · exact hcomment hc

/-- A word reaches as far as the first character that is part of no word. -/
theorem IsWord.takeWhile_eq (h : IsWord word) (hright : Closes right) :
    (word ++ right).takeWhile (fun c => !isSeparator c && c != ';') = word := by
  rw [List.takeWhile_append_of_pos fun c hc => by simp [h.2 c hc]]
  cases right with
  | nil => simp
  | cons c right =>
    rw [List.takeWhile_cons_of_neg, List.append_nil]
    rcases hright c rfl with hc | rfl <;> simp [*]

/-- Only one closed word begins at a place. -/
theorem IsWord.unique (h : IsWord word) (hright : Closes right) (h' : IsWord word')
    (hright' : Closes right') (heq : word ++ right = word' ++ right') : word = word' := by
  rw [← h.takeWhile_eq hright, heq, h'.takeWhile_eq hright']

end Token

namespace Line.Run

variable {line left word right before : List Char}

/-- Behind what closes a word some separator stands before the next one. -/
theorem ne_nil_of_closes (h : Run line left word right) (hclosed : Closes line) : left ≠ [] := by
  rintro rfl
  rw [h.whole] at hclosed
  exact h.isWord.not_closes right hclosed

/-- A run of the rest of a line is a run of the line. -/
theorem behind (h : Run line left word right) (hleft : left ≠ []) (hbefore : ';' ∉ before) :
    Run (before ++ line) (before ++ left) word right where
  whole := by simp [h.whole]
  isWord := h.isWord
  noComment := by simp [hbefore, h.noComment]
  opens := by
    obtain ⟨left, c, rfl⟩ := (List.eq_nil_or_concat left).resolve_left hleft
    simpa using h.opens
  closes := h.closes

/-- A run of a line is a run of the rest that it stands on. -/
theorem of_behind (h : Run (before ++ line) (before ++ left) word right) :
    Run line left word right where
  whole := by simpa using h.whole
  isWord := h.isWord
  noComment := fun hmem => h.noComment (List.mem_append_right _ hmem)
  opens := fun c hc => h.opens c (by simp [List.getLast?_append, hc])
  closes := h.closes

/-- No run begins inside a word. -/
theorem eq_nil_of_append {part inside : List Char} (h : Run line (before ++ part) word right)
    (hword : IsWord (part ++ inside)) : part = [] := by
  rcases List.eq_nil_or_concat part with hnil | ⟨part, c, rfl⟩
  · exact hnil
  · have hopens := h.opens c (by simp)
    exact Bool.noConfusion (hopens.symm.trans (hword.2 c (by simp)).1)

end Line.Run

/-! ## Tokens are the runs -/

namespace Token

variable {offset : Nat} {line left word right : List Char} {t : Token} {ts : List Token}

theorem IsWord.notMem_comment (h : IsWord word) : ';' ∉ word := fun hmem => (h.2 _ hmem).2 rfl

theorem IsGap.notMem_comment {gap : List Char} (h : IsGap gap) : ';' ∉ gap :=
  fun hmem => ne_comment_of_isSeparator (h _ hmem) rfl

/-- A token is a run of its line, and stands behind what is before the run. -/
theorem Stand.run_of_mem (h : Stand offset line ts) (ht : t ∈ ts) :
    ∃ left right, Line.Run line left t.text right ∧ t.start = offset + Text.byteSize left := by
  induction h with
  | nil => cases ht
  | @cons offset gap rest u ts hgap hword hstart hclosed _ ih =>
    rcases List.mem_cons.mp ht with rfl | ht
    · have hopens : ∀ c, gap.getLast? = some c → isSeparator c = true :=
        fun c hc => hgap c (List.mem_of_getLast? hc)
      exact ⟨gap, rest, ⟨rfl, hword, hgap.notMem_comment, hopens, hclosed⟩, hstart⟩
    · obtain ⟨left, right, hrun, hplace⟩ := ih ht
      have hbefore : ';' ∉ gap ++ u.text := by simp [hgap.notMem_comment, hword.notMem_comment]
      refine ⟨gap ++ u.text ++ left, right, ?_, ?_⟩
      · rw [← List.append_assoc]
        exact hrun.behind (hrun.ne_nil_of_closes hclosed) hbefore
      · rw [hplace, Token.stop, hstart]
        simp [Nat.add_assoc]

/-- No run begins among separators. -/
theorem IsGap.eq_nil_of_append {gap part rest : List Char} (h : IsGap (gap ++ part))
    (hword : IsWord word) (heq : word ++ right = part ++ rest) : part = [] := by
  cases part with
  | nil => rfl
  | cons c part =>
    obtain ⟨d, word, rfl, hseparator, -⟩ := hword.exists_cons
    obtain rfl : d = c := (List.cons.inj heq).1
    exact Bool.noConfusion ((h d (by simp)).symm.trans hseparator)

/-- A run is a token of its line. -/
theorem Stand.mem_of_run (h : Stand offset line ts) (hrun : Line.Run line left word right) :
    ⟨offset + Text.byteSize left, word⟩ ∈ ts := by
  -- Induction on the tokens: a run is the first token or a run of what stands behind it.
  induction h generalizing left with
  | @nil offset gap rest hgap hrest =>
    have hwhole : gap ++ rest = left ++ (word ++ right) := hrun.whole
    -- Nothing stands behind the gap, or a comment.
    have hclosed : Closes rest := fun c hc => .inr (hrest c hc)
    rcases List.append_eq_append_iff.mp hwhole with ⟨part, rfl, rfl⟩ | ⟨part, rfl, hpart⟩
    · cases part with
      | nil => exact (hrun.isWord.not_closes right hclosed).elim
      | cons c part =>
        obtain rfl := hrest c rfl
        exact (hrun.noComment (by simp)).elim
    · obtain rfl := hgap.eq_nil_of_append hrun.isWord hpart
      rw [List.nil_append] at hpart
      exact (hrun.isWord.not_closes right (hpart ▸ hclosed)).elim
  | @cons offset gap rest t ts hgap hword hstart hclosed _ ih =>
    have hfirst : left = gap → word ++ right = t.text ++ rest →
        ⟨offset + Text.byteSize left, word⟩ ∈ t :: ts := by
      rintro rfl hbegin
      obtain rfl := hrun.isWord.unique hrun.closes hword hclosed hbegin
      rw [← hstart]
      exact List.mem_cons_self
    have hwhole : gap ++ (t.text ++ rest) = left ++ (word ++ right) := hrun.whole
    rcases List.append_eq_append_iff.mp hwhole with ⟨part, rfl, hpart⟩ | ⟨part, rfl, hpart⟩
    · rcases List.append_eq_append_iff.mp hpart with ⟨behind, rfl, rfl⟩ | ⟨inside, htext, hbegin⟩
      · have hlater : Line.Run ((gap ++ t.text) ++ (behind ++ (word ++ right)))
            ((gap ++ t.text) ++ behind) word right := by simpa using hrun
        have hplace : offset + Text.byteSize (gap ++ (t.text ++ behind)) =
            t.stop + Text.byteSize behind := by
          rw [Token.stop, hstart]
          simp [Nat.add_assoc]
        rw [hplace]
        exact List.mem_cons_of_mem _ (ih hlater.of_behind)
      · obtain rfl := hrun.eq_nil_of_append (htext ▸ hword)
        exact hfirst (List.append_nil gap) (by simpa [htext] using hbegin)
    · obtain rfl := hgap.eq_nil_of_append hrun.isWord hpart
      exact hfirst (List.append_nil left).symm hpart

/-- A token ends before the next one begins, with a separator between them. -/
theorem Stand.pairwise (h : Stand offset line ts) : ts.Pairwise fun t u => t.stop < u.start := by
  induction h with
  | nil => exact .nil
  | cons _ _ _ hclosed hrest ih =>
    refine .cons (fun u hu => ?_) ih
    obtain ⟨left, right, hrun, hstart⟩ := hrest.run_of_mem hu
    have hgap := Text.byteSize_pos (hrun.ne_nil_of_closes hclosed)
    omega

end Token

/-! ## Lines taken apart -/

namespace LineTokens

variable {line comment : List Char}

theorem comment_scan_eq_some_iff (offset : Nat) (run : List Char) :
    (scan offset run line).comment = some comment ↔
      ∃ code, line = code ++ ';' :: comment ∧ ';' ∉ code := by
  induction line generalizing offset run with
  | nil => simp [scan]
  | cons c line ih =>
    rw [scan]
    split
    · next hc =>
      subst hc
      constructor
      · intro h
        cases h
        exact ⟨[], rfl, List.not_mem_nil⟩
      · rintro ⟨code, heq, hcode⟩
        cases code with
        | nil =>
          cases heq
          rfl
        | cons d code =>
          obtain ⟨rfl, -⟩ := List.cons.inj heq
          exact (hcode List.mem_cons_self).elim
    · next hc =>
      have hmore : (∃ code, line = code ++ ';' :: comment ∧ ';' ∉ code) ↔
          ∃ code, c :: line = code ++ ';' :: comment ∧ ';' ∉ code := by
        constructor
        · rintro ⟨code, rfl, hcode⟩
          exact ⟨c :: code, rfl, by simp [hcode, Ne.symm hc]⟩
        · rintro ⟨code, heq, hcode⟩
          cases code with
          | nil => exact (hc (List.cons.inj heq).1).elim
          | cons d code =>
            obtain ⟨-, rfl⟩ := List.cons.inj heq
            exact ⟨code, rfl, fun hmem => hcode (List.mem_cons_of_mem _ hmem)⟩
      rw [← hmore]
      split
      · exact ih _ _
      · exact ih _ _

/-- A line and its parts: the tokens are its runs, each at its place and in their order, and the
comment is what follows the first `;`. All parts are cut out between characters. -/
structure Splits (line : List Char) (parts : LineTokens) : Prop where
  tokens : ∀ t, t ∈ parts.tokens ↔
    ∃ left right, Line.Run line left t.text right ∧ t.start = Text.byteSize left
  ordered : parts.tokens.Pairwise fun t u => t.stop < u.start
  slices : ∀ t ∈ parts.tokens, BitRange.text? ⟨t.start, t.stop⟩ line = some t.text
  comment : ∀ comment, parts.comment = some comment ↔
    ∃ code, line = code ++ ';' :: comment ∧ ';' ∉ code
  noComment : parts.comment = none ↔ ';' ∉ line
  commentSlice : ∀ comment, parts.comment = some comment →
    BitRange.text? ⟨Text.byteSize (Line.code line) + 1, Text.byteSize line⟩ line = some comment

theorem mem_tokens_ofLine_iff {t : Token} :
    t ∈ (ofLine line).tokens ↔
      ∃ left right, Line.Run line left t.text right ∧ t.start = Text.byteSize left := by
  have hstand := stand_ofLine line
  constructor
  · intro ht
    simpa using hstand.run_of_mem ht
  · rintro ⟨left, right, hrun, hstart⟩
    simpa [← hstart] using hstand.mem_of_run hrun

/-- A run is cut out of its line at the offsets of its token. -/
theorem text?_of_run {t : Token} {left right : List Char} (h : Line.Run line left t.text right)
    (hstart : t.start = Text.byteSize left) : BitRange.text? ⟨t.start, t.stop⟩ line = some t.text := by
  rw [Token.stop, hstart, h.whole]
  exact BitRange.text?_append left t.text right

theorem text?_comment {code : List Char} (h : ';' ∉ code) (comment : List Char) :
    let line := code ++ ';' :: comment
    BitRange.text? ⟨Text.byteSize (Line.code line) + 1, Text.byteSize line⟩ line = some comment := by
  intro line
  have hcode : Line.code line = code := by
    rw [Line.code_append fun c hc heq => h (heq ▸ hc)]
    simp [Line.code]
  have hstart : Text.byteSize (code ++ [';']) = Text.byteSize code + 1 := Text.byteSize_append _ _
  have hstop : Text.byteSize (code ++ [';']) + Text.byteSize comment = Text.byteSize line := by
    rw [← Text.byteSize_append, List.append_assoc, List.singleton_append]
  have hparts := BitRange.text?_append (code ++ [';']) comment []
  rw [hstop, hstart, List.append_nil, List.append_assoc, List.singleton_append] at hparts
  rw [hcode]
  exact hparts

/-- A line is taken apart without loss. -/
theorem splits_ofLine (line : List Char) : Splits line (ofLine line) where
  tokens t := mem_tokens_ofLine_iff
  ordered := (stand_ofLine line).pairwise
  slices t ht := by
    obtain ⟨left, right, hrun, hstart⟩ := mem_tokens_ofLine_iff.mp ht
    exact text?_of_run hrun hstart
  comment comment := comment_scan_eq_some_iff 0 []
  noComment := by
    constructor
    · intro hnone hmem
      obtain ⟨code, comment, heq, hcode⟩ := List.eq_append_cons_of_mem hmem
      have hsome := (comment_scan_eq_some_iff 0 []).mpr ⟨code, heq, hcode⟩
      exact Option.some_ne_none comment (hsome.symm.trans hnone)
    · intro hmem
      rw [Option.eq_none_iff_forall_ne_some]
      intro comment hsome
      obtain ⟨code, rfl, -⟩ := (comment_scan_eq_some_iff 0 []).mp hsome
      exact hmem (by simp)
  commentSlice comment h := by
    obtain ⟨code, rfl, hcode⟩ := (comment_scan_eq_some_iff 0 []).mp h
    exact text?_comment hcode comment

example : ofLine "é\tab;c d".toList = ⟨[⟨0, ['é']⟩, ⟨3, ['a', 'b']⟩], some ['c', ' ', 'd']⟩ := by
  decide

end LineTokens

end WitnessLift
