-- SUMMARY: The suggestions for an unknown operation are its best matches, for any exact matcher.
import Mathlib.Data.List.Basic
import WitnessLift.Proofs.Model.Grammar

/-!
# The best suggestions

An operation that does not exist is one error, and the error names the operations that match best:
no other one has a higher score, and of equal scores the earlier operation comes first. There is
something to suggest exactly if leaving out characters of some operation yields the misspelt one.
The ranking uses nothing of the scores but which operations have one.
-/

namespace WitnessLift

namespace Suggestion

/-- The operations that contain the characters of a word in their order. -/
def matching (word : List Char) : List String :=
  Operation.all.filter fun name => word.isSublist name.toList

/-- Names match exactly the words that are left when some of their characters are left out. -/
def Matcher.Exact (score : Matcher) : Prop :=
  ∀ name word, (score name word).isSome ↔ word.Sublist name

/-- An operation that is to be listed before another one: it has the higher score, or the same score
and the earlier place among the operations. -/
def Outranks (score : Matcher) (word : List Char) (a b : String) : Prop :=
  ∃ m n, score a.toList word = some m ∧ score b.toList word = some n ∧
    (n < m ∨ n = m ∧ Operation.all.idxOf a < Operation.all.idxOf b)

/-- The five best matches of a word, best first, or all of them if there are fewer. -/
structure Best (score : Matcher) (word : List Char) (names : List String) : Prop where
  length : names.length = min 5 (matching word).length
  distinct : names.Nodup
  known : ∀ name ∈ names, name ∈ Operation.all ∧ word.Sublist name.toList
  ordered : names.Pairwise (Outranks score word)
  best : ∀ name ∈ names, ∀ other ∈ Operation.all, word.Sublist other.toList → other ∉ names →
    Outranks score word name other

variable {score : Matcher} {word : List Char} {name : String}

/-! ## Matches -/

theorem mem_matching_iff :
    name ∈ matching word ↔ name ∈ Operation.all ∧ word.Sublist name.toList := by
  rw [matching, List.mem_filter, List.isSublist_iff_sublist]

theorem nodup_all : Operation.all.Nodup := by decide +kernel

/-- Operations in their order. -/
theorem pairwise_all :
    Operation.all.Pairwise fun a b => Operation.all.idxOf a < Operation.all.idxOf b := by
  rw [List.pairwise_iff_getElem]
  intro i j hi hj hij
  rwa [nodup_all.idxOf_getElem, nodup_all.idxOf_getElem]

theorem mem_candidates_iff {entry : String × Int} :
    entry ∈ candidates score word ↔
      entry.1 ∈ Operation.all ∧ score entry.1.toList word = some entry.2 := by
  obtain ⟨name, points⟩ := entry
  simp only [candidates, List.mem_filterMap, Option.map_eq_some_iff, Prod.mk.injEq]
  constructor
  · rintro ⟨_, hname, _, hpoints, rfl, rfl⟩
    exact ⟨hname, hpoints⟩
  · rintro ⟨hname, hpoints⟩
    exact ⟨name, hname, points, hpoints, rfl, rfl⟩

/-- The candidates are the operations that match. -/
theorem map_candidates (h : score.Exact) (word : List Char) :
    (candidates score word).map (·.1) = matching word := by
  rw [candidates, List.map_filterMap, matching, ← List.filterMap_eq_filter]
  refine List.filterMap_congr fun name _ => ?_
  have hmatch := h name.toList word
  rw [← List.isSublist_iff_sublist] at hmatch
  cases hpoints : score name.toList word <;> simp_all [Option.guard]

theorem pairwise_candidates (score : Matcher) (word : List Char) :
    (candidates score word).Pairwise fun a b =>
      Operation.all.idxOf a.1 < Operation.all.idxOf b.1 := by
  refine pairwise_all.filterMap _ fun a b hab entry hentry other hother => ?_
  obtain ⟨_, -, rfl⟩ := Option.map_eq_some_iff.mp hentry
  obtain ⟨_, -, rfl⟩ := Option.map_eq_some_iff.mp hother
  exact hab

/-! ## Ranking -/

/-- Candidates with higher scores first. -/
def sorted (score : Matcher) (word : List Char) : List (String × Int) :=
  (candidates score word).mergeSort fun a b => b.2 ≤ a.2

theorem sorted_perm (score : Matcher) (word : List Char) :
    (sorted score word).Perm (candidates score word) :=
  List.mergeSort_perm _ _

theorem le_trans_score (a b c : String × Int) (hab : decide (b.2 ≤ a.2) = true)
    (hbc : decide (c.2 ≤ b.2) = true) : decide (c.2 ≤ a.2) = true := by
  simp only [decide_eq_true_eq] at *
  omega

theorem le_total_score (a b : String × Int) :
    (decide (b.2 ≤ a.2) || decide (a.2 ≤ b.2)) = true := by
  simp only [Bool.or_eq_true, decide_eq_true_eq]
  omega

theorem pairwise_sorted (score : Matcher) (word : List Char) :
    (sorted score word).Pairwise fun a b => b.2 ≤ a.2 :=
  (List.pairwise_mergeSort le_trans_score le_total_score _).imp fun h => of_decide_eq_true h

/-- Candidates of one score keep their order. -/
theorem filter_sorted (score : Matcher) (word : List Char) (points : Int) :
    (sorted score word).filter (·.2 == points) =
      (candidates score word).filter (·.2 == points) := by
  have hequal : ((candidates score word).filter (·.2 == points)).Pairwise fun a b =>
      decide (b.2 ≤ a.2) = true := by
    refine List.pairwise_of_forall_mem_list fun a ha b hb => ?_
    have hpoints : a.2 = b.2 := by simp_all
    simp [hpoints]
  -- What is in order already is found again in the sorted list, and there is no more of it.
  have hsub : ((candidates score word).filter (·.2 == points)).Sublist (sorted score word) :=
    List.sublist_mergeSort le_trans_score le_total_score hequal List.filter_sublist
  have hsame : ((candidates score word).filter (·.2 == points)).Sublist
      ((sorted score word).filter (·.2 == points)) := by
    simpa using hsub.filter (·.2 == points)
  exact (hsame.eq_of_length ((sorted_perm score word).symm.filter _).length_eq).symm

/-- Of two candidates in the sorted list the first one has the higher score, or the same score and
the earlier place. -/
theorem pairwise_sorted_stable (score : Matcher) (word : List Char) :
    (sorted score word).Pairwise fun a b => b.2 < a.2 ∨
      b.2 = a.2 ∧ Operation.all.idxOf a.1 < Operation.all.idxOf b.1 := by
  rw [List.pairwise_iff_forall_sublist]
  intro a b hab
  have hle : b.2 ≤ a.2 := List.pairwise_iff_forall_sublist.mp (pairwise_sorted score word) hab
  rcases Int.lt_or_eq_of_le hle with hlt | heq
  · exact .inl hlt
  · have hpair : [a, b].Sublist ((sorted score word).filter (·.2 == a.2)) := by
      simpa [heq] using hab.filter (·.2 == a.2)
    rw [filter_sorted] at hpair
    exact .inr ⟨heq, List.pairwise_iff_forall_sublist.mp (pairwise_candidates score word)
      (hpair.trans List.filter_sublist)⟩

/-- All operations that match, best first. -/
def ranked (score : Matcher) (word : List Char) : List String := (sorted score word).map (·.1)

theorem suggestBy_eq (score : Matcher) (word : List Char) :
    suggestBy score word = (ranked score word).take 5 := by
  rw [ranked, ← List.map_take]
  rfl

theorem ranked_perm (h : score.Exact) (word : List Char) :
    (ranked score word).Perm (matching word) := by
  rw [← map_candidates h]
  exact (sorted_perm score word).map _

theorem pairwise_ranked (score : Matcher) (word : List Char) :
    (ranked score word).Pairwise (Outranks score word) := by
  rw [ranked, List.pairwise_map]
  refine (pairwise_sorted_stable score word).imp_of_mem fun ha hb hab => ?_
  rw [(sorted_perm score word).mem_iff, mem_candidates_iff] at ha hb
  exact ⟨_, _, ha.2, hb.2, hab⟩

/-- The suggestions by a score are the best matches, whatever the score of a match is. -/
theorem best_suggestBy (h : score.Exact) (word : List Char) :
    Best score word (suggestBy score word) := by
  have hperm := ranked_perm h word
  have hpairwise := pairwise_ranked score word
  have hmem (name : String) :
      name ∈ ranked score word ↔ name ∈ Operation.all ∧ word.Sublist name.toList := by
    rw [hperm.mem_iff, mem_matching_iff]
  rw [suggestBy_eq]
  exact {
    length := by rw [List.length_take, hperm.length_eq]
    distinct := by
      have hnodup : (ranked score word).Nodup :=
        hperm.nodup_iff.mpr (nodup_all.sublist List.filter_sublist)
      exact hnodup.sublist (List.take_sublist 5 _)
    known := fun name hname => (hmem name).mp (List.mem_of_mem_take hname)
    ordered := hpairwise.sublist (List.take_sublist 5 _)
    best := fun name hname other hother hmatch hnot => by
      -- A match that is not listed stands behind the first five.
      rw [← List.take_append_drop 5 (ranked score word), List.pairwise_append] at hpairwise
      have hranked := (hmem other).mpr ⟨hother, hmatch⟩
      rw [← List.take_append_drop 5 (ranked score word), List.mem_append] at hranked
      exact hpairwise.2.2 name hname other (hranked.resolve_left hnot) }

/-- There is nothing to suggest exactly if no operation matches. -/
theorem Best.eq_nil_iff {names : List String} (h : Best score word names) :
    names = [] ↔ ∀ name ∈ Operation.all, ¬ word.Sublist name.toList := by
  have hnone : names = [] ↔ matching word = [] := by
    rw [← List.length_eq_zero_iff, h.length, ← List.length_eq_zero_iff]
    omega
  rw [hnone, matching, List.filter_eq_nil_iff]
  simp only [List.isSublist_iff_sublist]

/-! ## Alignment scores -/

/-- The characters of a word are found if they can be found at all. -/
theorem isSome_leftmost?_iff (pos : Nat) (word name : List Char) :
    (leftmost? pos word name).isSome ↔ word.Sublist name := by
  induction name generalizing pos word with
  | nil => cases word <;> simp [leftmost?]
  | cons d name ih =>
    cases word with
    | nil => simp [leftmost?]
    | cons c word =>
      rw [leftmost?]
      split
      · next hc =>
        subst hc
        rw [Option.isSome_map, ih, List.cons_sublist_cons]
      · next hc =>
        rw [ih, List.sublist_cons_iff]
        simp [hc]

/-- There is a score for an operation exactly if it contains the characters of the word. -/
theorem isSome_score?_iff (name word : List Char) :
    (score? name word).isSome ↔ word.Sublist name := by
  rw [score?, Option.isSome_map, isSome_leftmost?_iff]

/-- The suggestions are the best matches by the score of their alignment. -/
theorem best_suggest (word : List Char) : Best score? word (suggest word) :=
  best_suggestBy isSome_score?_iff word

end Suggestion

/-! ## The error of a line -/

namespace SyntaxFault

variable {found : String} {names : List String}

/-- The message names what there is to suggest. -/
theorem message_of_ne_nil (h : names ≠ []) (found : String) :
    message (.unknownOperation found names) =
      "Invalid op " ++ found ++ ". Did you mean: " ++ ", ".intercalate names ++ "?" := by
  obtain ⟨name, names, rfl⟩ := List.exists_cons_of_ne_nil h
  rfl

/-- The message stops behind the operation if there is nothing to suggest. -/
theorem message_eq_iff :
    message (.unknownOperation found names) = "Invalid op " ++ found ++ "." ↔ names = [] := by
  constructor
  · intro h
    by_cases hne : names = []
    · exact hne
    · rw [message_of_ne_nil hne] at h
      have hlength := congrArg String.length h
      have hshort : ".".length = 1 := rfl
      have hlong : ". Did you mean: ".length = 16 := rfl
      simp only [String.length_append] at hlength
      omega
  · rintro rfl
    rfl

end SyntaxFault

open Text (byteSize)

variable {number operation : String} {arguments : List String} {line word : List Char}

theorem Operation.role?_eq_none (h : operation ∉ all) : role? operation = none := by
  rcases role?_cases operation with ⟨rfl, -⟩ | ⟨rfl, -⟩ | ⟨rfl, -⟩ | ⟨rfl, -⟩ | ⟨rfl, -⟩ |
    ⟨hknown, -, -⟩ | ⟨-, hrole⟩
  · exact (h (by decide)).elim
  · exact (h (by decide)).elim
  · exact (h (by decide)).elim
  · exact (h (by decide)).elim
  · exact (h (by decide)).elim
  · exact (h hknown).elim
  · exact hrole

/-- Behind an id an operation that does not exist is the fault of the line. -/
theorem Declaration.ofLine?_unknown (hwords : Line.words line = number :: operation :: arguments)
    (hid : Text.IsNumeral number) (hunknown : operation ∉ Operation.all) :
    ∃ left right, Line.Spans line left operation.toList right ∧ Line.words left = [number] ∧
      ofLine? line = .error
        ⟨.unknownOperation operation (Suggestion.suggest operation.toList), byteSize left,
          byteSize (left ++ operation.toList)⟩ := by
  have hstand := Token.stand_ofLine line
  rw [hstand.words_eq, List.map_eq_cons_iff] at hwords
  obtain ⟨t, _, htokens, rfl, hwords⟩ := hwords
  obtain ⟨u, ts, rfl, rfl, -⟩ := List.map_eq_cons_iff.mp hwords
  obtain ⟨id, hid⟩ := hid
  have hfault : ofLine? line = .error (u.fault
      (.unknownOperation u.name (Suggestion.suggest u.text))) := by
    rw [ofLine?, htokens, ofTokens?, Token.id?_eq_ok_iff.mpr hid]
    refine Fault.map_eq_error_iff.mpr ?_
    rw [ofOperation, Operation.role?_eq_none hunknown]
  rw [htokens] at hstand
  obtain ⟨left, part, right, hspans, hleft, hpart, hstart, hstop⟩ :=
    @Line.exists_spans 0 line [t] [] ts u hstand
  obtain rfl := hspans.eq_toList hpart
  have htext : u.name.toList = u.text := String.toList_ofList
  have hstart' : u.start = byteSize left := by simpa using hstart
  have hstop' : u.stop = byteSize (left ++ u.name.toList) := by simpa using hstop
  refine ⟨left, right, hspans, hleft, ?_⟩
  rw [hfault, Token.fault, hstart', hstop', htext]

/-! ## Shortened operations -/

/-- No digit separates words. -/
theorem Token.isSeparator_of_isDigit {c : Char} (h : c.isDigit = true) : isSeparator c = false := by
  rw [Bool.eq_false_iff]
  intro hseparator
  simp only [isSeparator, Bool.or_eq_true, beq_iff_eq] at hseparator
  rcases hseparator with (rfl | rfl) | rfl <;> cases h

theorem Text.IsNumeral.isWord (h : IsNumeral number) : Token.IsWord number.toList := by
  obtain ⟨n, digits, hsign, hne, hdigits, -⟩ := h
  have hword : ∀ c ∈ digits, Token.isSeparator c = false ∧ c ≠ ';' := by
    intro c hc
    refine ⟨Token.isSeparator_of_isDigit (hdigits c hc), ?_⟩
    rintro rfl
    cases hdigits _ hc
  rcases hsign with hsign | hsign <;> rw [hsign]
  · exact ⟨hne, hword⟩
  · have hplus : Token.isSeparator '+' = false ∧ '+' ≠ ';' := by decide
    exact ⟨List.cons_ne_nil _ _, List.forall_mem_cons.mpr ⟨hplus, hword⟩⟩

/-- What is left of an operation is a word. -/
theorem Operation.isWord_of_sublist (hname : name ∈ all) (hne : word ≠ [])
    (hsub : word.Sublist name.toList) : Token.IsWord word := by
  have hall : (all.flatMap String.toList).all (fun c => !Token.isSeparator c && c != ';') = true := by
    decide +kernel
  refine ⟨hne, fun c hc => ?_⟩
  have hmem : c ∈ all.flatMap String.toList :=
    List.mem_flatMap.mpr ⟨name, hname, hsub.subset hc⟩
  simpa using List.all_eq_true.mp hall c hmem

/-- A line of an id and a word. -/
theorem Line.words_pair (hnumber : Token.IsWord number.toList) (hword : Token.IsWord word) :
    words (number.toList ++ ' ' :: word) = [number, String.ofList word] := by
  have hspace : Token.isSeparator ' ' = true := by decide
  have hlast : words word = [String.ofList word] := by
    have hend := words_word_append hword Token.closes_nil
    rwa [List.append_nil] at hend
  rw [words_word_append hnumber (Token.closes_cons (.inl hspace)),
    words_cons_of_isSeparator hspace, hlast, String.ofList_toList]

/-! ## Lines -/

/-- An error about an operation that does not exist. Its message names the best matches of the
operation, or it stops there if nothing matches. -/
structure SyntaxError.Corrects (e : SyntaxError) (operation : String) (names : List String) :
    Prop where
  fault : e.fault = .unknownOperation operation names
  best : Suggestion.Best Suggestion.score? operation.toList names
  suggestion : names ≠ [] → e.fault.message =
    "Invalid op " ++ operation ++ ". Did you mean: " ++ ", ".intercalate names ++ "?"
  bare : e.fault.message = "Invalid op " ++ operation ++ "." ↔
    ∀ name ∈ Operation.all, ¬ operation.toList.Sublist name.toList

theorem SyntaxError.corrects_suggest {e : SyntaxError}
    (h : e.fault = .unknownOperation operation (Suggestion.suggest operation.toList)) :
    e.Corrects operation (Suggestion.suggest operation.toList) := by
  have hbest := Suggestion.best_suggest operation.toList
  refine ⟨h, hbest, fun hne => ?_, ?_⟩
  · rw [h]
    exact SyntaxFault.message_of_ne_nil hne operation
  · rw [h]
    exact SyntaxFault.message_eq_iff.trans hbest.eq_nil_iff

namespace Reading

/-- One more line is read, and it declares nothing: all that it adds is an error that covers the
operation behind its id. -/
structure Rejects (r : Reading) (line : List Char) (number operation : String) (e : SyntaxError) :
    Prop where
  errors : (r.line line).errors = r.errors.push e
  declarations : (r.line line).declarations = r.declarations
  place : e.line = r.lines + 1
  covers : ∃ left right, Line.Spans line left operation.toList right ∧
    Line.words left = [number] ∧ e.start = r.offset + byteSize left ∧
    e.stop = r.offset + byteSize (left ++ operation.toList)

theorem exists_rejects (r : Reading) (hwords : Line.words line = number :: operation :: arguments)
    (hid : Text.IsNumeral number) (hunknown : operation ∉ Operation.all) :
    ∃ e names, r.Rejects line number operation e ∧ e.Corrects operation names := by
  obtain ⟨left, right, hspans, hleft, hfault⟩ := Declaration.ofLine?_unknown hwords hid hunknown
  let e := r.place ⟨.unknownOperation operation (Suggestion.suggest operation.toList),
    byteSize left, byteSize (left ++ operation.toList)⟩
  have hline : r.line line = { r with errors := r.errors.push e }.pass line := by
    rw [Reading.line, hfault]
  have hrejects : r.Rejects line number operation e := {
    errors := by rw [hline, pass]
    declarations := by rw [hline, pass]
    place := rfl
    covers := ⟨left, right, hspans, hleft, rfl, rfl⟩ }
  exact ⟨e, _, hrejects, SyntaxError.corrects_suggest rfl⟩

/-- An operation that does not exist is one error more. The error covers the operation and suggests
the best matches, of which there are some if the operation is what is left of a known one. -/
theorem line_unknownOperation (r : Reading) :
    (∀ line number operation arguments, Line.words line = number :: operation :: arguments →
      Text.IsNumeral number → operation ∉ Operation.all →
      ∃ e names, r.Rejects line number operation e ∧ e.Corrects operation names) ∧
    ∀ number, Text.IsNumeral number → ∀ name ∈ Operation.all, ∀ word : List Char, word ≠ [] →
      word.Sublist name.toList → String.ofList word ∉ Operation.all →
      ∃ e names, r.Rejects (number.toList ++ ' ' :: word) number (String.ofList word) e ∧
        e.Corrects (String.ofList word) names ∧ names ≠ [] := by
  constructor
  · intro line number operation arguments hwords hid hunknown
    exact r.exists_rejects hwords hid hunknown
  · intro number hid name hname word hne hsub hunknown
    have hwords := Line.words_pair hid.isWord (Operation.isWord_of_sublist hname hne hsub)
    obtain ⟨e, names, hrejects, he⟩ := r.exists_rejects hwords hid hunknown
    refine ⟨e, names, hrejects, he, fun hnone => ?_⟩
    have hmatchless := he.best.eq_nil_iff.mp hnone name hname
    rw [String.toList_ofList] at hmatchless
    exact hmatchless hsub

/-- The suggestions for `stat` stand in the order of their scores. -/
theorem line_unknownOperation_stat :
    let e : SyntaxError := ⟨.unknownOperation "stat" ["state", "constraint"], 1, 2, 6⟩
    (Reading.line {} "2 stat 1".toList).errors = #[e] ∧
      e.Corrects "stat" ["state", "constraint"] := by
  intro e
  have hsuggest : Suggestion.suggest "stat".toList = ["state", "constraint"] := by
    have hscores : Suggestion.candidates Suggestion.score? "stat".toList =
        [("constraint", 58), ("state", 91)] := rfl
    rw [Suggestion.suggest, Suggestion.suggestBy, hscores]
    simp [List.mergeSort]
  have herrors : (Reading.line {} "2 stat 1".toList).errors = #[e] := by
    have hline : (Reading.line {} "2 stat 1".toList).errors =
        #[⟨.unknownOperation "stat" (Suggestion.suggest "stat".toList), 1, 2, 6⟩] := rfl
    rw [hline, hsuggest]
  have hnumeral : Text.IsNumeral "2" :=
    ⟨2, ['2'], .inl rfl, List.cons_ne_nil _ _, List.forall_mem_singleton.mpr rfl, rfl⟩
  have hwords : Line.words "2 stat 1".toList = ["2", "stat", "1"] := by decide
  obtain ⟨e', names, hrejects, he⟩ :=
    (line_unknownOperation {}).1 _ _ _ _ hwords hnumeral (by decide)
  obtain rfl : e = e' := by
    have hsame := hrejects.errors
    rw [herrors] at hsame
    simpa using hsame
  obtain rfl : _ = names := (SyntaxFault.unknownOperation.inj he.fault).2
  exact ⟨herrors, he⟩

end Reading

end WitnessLift
