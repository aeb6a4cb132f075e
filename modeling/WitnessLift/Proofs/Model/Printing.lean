-- SUMMARY: Printing and parsing of models are inverse to each other.
import WitnessLift.Model.Printer
import WitnessLift.Proofs.Model.Reading

/-!
# Written models

A model that is written is read back. What can be read is exactly what can be written, so that
writing and reading a model once more changes nothing.
-/

namespace WitnessLift

/-! ## What can be written -/

/-- A name that stays a word of its line: not empty, and free of the characters that end a word or a
line. -/
def Line.IsName (name : String) : Prop :=
  name ≠ "" ∧ ∀ c ∈ name.toList, c ∉ [' ', '\t', '\r', '\n', ';']

instance (name : String) : Decidable (Line.IsName name) :=
  have := name.toList.decidableBAll fun c => c ∉ [' ', '\t', '\r', '\n', ';']
  inferInstanceAs (Decidable (_ ∧ _))

/-- A declaration that a line can spell: a width is positive, and a name is a word. -/
def Declaration.Spellable : Declaration → Prop
  | .sort _ (.bitVec width) => width ≠ 0
  | .input _ _ name => ∀ word, name = some word → Line.IsName word
  | .state _ _ name => ∀ word, name = some word → Line.IsName word
  | _ => True

/-! ## Words that are written -/

theorem Text.toList_toString (n : UInt32) : (toString n).toList = Nat.toDigits 10 n.toNat := by
  rw [show toString n = toString n.toNat from rfl, Nat.toString_eq_ofList_toDigits,
    String.toList_ofList]

theorem Text.isDigit_of_mem_toDigits {n : Nat} {c : Char} (h : c ∈ Nat.toDigits 10 n) :
    c.isDigit = true :=
  Nat.isDigit_of_mem_toDigits (by decide) (by decide) h

/-- A number is written as a numeral that spells it. -/
theorem Text.numeral_toString (n : UInt32) : Numeral (toString n) n :=
  ⟨Nat.toDigits 10 n.toNat, .inl (toList_toString n), Nat.toDigits_ne_nil,
    fun _ => isDigit_of_mem_toDigits, Nat.ofDigitChars_ten_toDigits⟩

namespace Line

open Token Text

theorem isName_iff {name : String} : IsName name ↔ IsWord name.toList ∧ '\n' ∉ name.toList := by
  have hempty : name ≠ "" ↔ name.toList ≠ [] := by simp
  have hchar : ∀ c : Char, c ∉ [' ', '\t', '\r', '\n', ';'] ↔
      (isSeparator c = false ∧ c ≠ ';') ∧ c ≠ '\n' := by
    intro c
    simp only [isSeparator, List.mem_cons, List.not_mem_nil, Bool.or_eq_false_iff,
      beq_eq_false_iff_ne]
    tauto
  constructor
  · rintro ⟨hne, h⟩
    refine ⟨⟨hempty.mp hne, fun c hc => ((hchar c).mp (h c hc)).1⟩, fun hnewline => ?_⟩
    exact ((hchar _).mp (h _ hnewline)).2 rfl
  · rintro ⟨⟨hne, h⟩, hnewline⟩
    refine ⟨hempty.mpr hne, fun c hc => (hchar c).mpr ⟨h c hc, ?_⟩⟩
    rintro rfl
    exact hnewline hc

theorem isName_toString (n : UInt32) : IsName (toString n) := by
  have hdigits := toList_toString n
  constructor
  · intro hempty
    rw [hempty] at hdigits
    exact Nat.toDigits_ne_nil hdigits.symm
  · intro c hc hbreak
    rw [hdigits] at hc
    have hdigit := isDigit_of_mem_toDigits hc
    simp only [List.mem_cons, List.not_mem_nil, or_false] at hbreak
    rcases hbreak with rfl | rfl | rfl | rfl | rfl <;> cases hdigit

theorem intercalate_singleton (w : String) :
    [' '].intercalate ([w].map String.toList) = w.toList := by
  simp [List.intercalate]

theorem intercalate_cons (v w : String) (ws : List String) :
    [' '].intercalate ((v :: w :: ws).map String.toList) =
      v.toList ++ ' ' :: [' '].intercalate ((w :: ws).map String.toList) := by
  simp [List.intercalate]

/-- Words with single spaces between them are the words of their line. -/
theorem words_intercalate {ws : List String} (h : ∀ w ∈ ws, IsName w) :
    words ([' '].intercalate (ws.map String.toList)) = ws := by
  induction ws with
  | nil => rfl
  | cons v ws ih =>
    obtain ⟨hv, hws⟩ := List.forall_mem_cons.mp h
    have hword := (isName_iff.mp hv).1
    cases ws with
    | nil =>
      have hwords := words_word_append hword closes_nil
      rw [List.append_nil, String.ofList_toList] at hwords
      rw [intercalate_singleton, hwords]
      rfl
    | cons w ws =>
      -- The space behind the first word closes it, and does not count for the others.
      have hspace : isSeparator ' ' = true := rfl
      rw [intercalate_cons, words_word_append hword (closes_cons (.inl hspace)),
        words_cons_of_isSeparator hspace, ih hws, String.ofList_toList]

theorem newline_notMem_intercalate {ws : List String} (h : ∀ w ∈ ws, IsName w) :
    '\n' ∉ [' '].intercalate (ws.map String.toList) := by
  induction ws with
  | nil => exact List.not_mem_nil
  | cons v ws ih =>
    obtain ⟨hv, hws⟩ := List.forall_mem_cons.mp h
    have hnone := (isName_iff.mp hv).2
    cases ws with
    | nil => rwa [intercalate_singleton]
    | cons w ws =>
      rw [intercalate_cons, List.mem_append, List.mem_cons]
      rintro (hmem | hmem | hmem)
      · exact hnone hmem
      · cases hmem
      · exact ih hws hmem

end Line

/-! ## Declarations that are written -/

/-- The words of the line that a declaration is written on. -/
def Declaration.words : Declaration → List String
  | .sort id (.bitVec width) => [toString id, "sort", "bitvec", toString width]
  | .sort id .array => [toString id, "sort", "array", "1", "1"]
  | .input id sortId name => [toString id, "input", toString sortId] ++ name.toList
  | .state id sortId name => [toString id, "state", toString sortId] ++ name.toList
  | .init id target => [toString id, "init", "1", toString target, "1"]
  | .next id target => [toString id, "next", "1", toString target, "1"]
  | .other id => [toString id, "zero", "1"]

namespace Declaration

variable {d : Declaration} {line : List Char}

theorem toList_render (d : Declaration) :
    d.render.toList = [' '].intercalate (d.words.map String.toList) := by
  have htext : ∀ s : String, toString s = s := fun _ => rfl
  rcases d with ⟨id, width | _⟩ | ⟨id, s, _ | name⟩ | ⟨id, s, _ | name⟩ | ⟨id, t⟩ | ⟨id, t⟩ | id
  all_goals simp [render, words, nameSuffix, List.intercalate, htext]

theorem Spellable.isName (h : d.Spellable) : ∀ w ∈ d.words, Line.IsName w := by
  have hfixed : ∀ w ∈ ["sort", "bitvec", "array", "input", "state", "init", "next", "zero", "1"],
      Line.IsName w := by
    decide
  rcases d with ⟨id, width | _⟩ | ⟨id, s, _ | name⟩ | ⟨id, s, _ | name⟩ | ⟨id, t⟩ | ⟨id, t⟩ | id
  all_goals simp_all [words, Line.isName_toString, Spellable]

/-- The words of a declaration declare it. -/
theorem Spellable.says (h : d.Spellable) : Line.Says d.words (some d) := by
  have hone : Text.IsNumeral "1" := ⟨1, Text.numeral_toString 1⟩
  rcases d with ⟨id, width | _⟩ | ⟨id, s, name⟩ | ⟨id, s, name⟩ | ⟨id, t⟩ | ⟨id, t⟩ | id
  · exact .declare (Text.numeral_toString id) (.bitVec (Text.numeral_toString width) h)
  · exact .declare (Text.numeral_toString id) (.array hone hone)
  · have hname : name.toList.head? = name := by cases name <;> rfl
    have hmakes : Line.Makes id ("input" :: toString s :: name.toList)
        (.input id s name.toList.head?) := .input (Text.numeral_toString s)
    rw [hname] at hmakes
    exact .declare (Text.numeral_toString id) hmakes
  · have hname : name.toList.head? = name := by cases name <;> rfl
    have hmakes : Line.Makes id ("state" :: toString s :: name.toList)
        (.state id s name.toList.head?) := .state (Text.numeral_toString s)
    rw [hname] at hmakes
    exact .declare (Text.numeral_toString id) hmakes
  · exact .declare (Text.numeral_toString id) (.init hone (Text.numeral_toString t))
  · exact .declare (Text.numeral_toString id) (.next hone (Text.numeral_toString t))
  · exact .declare (Text.numeral_toString id) (.other (by decide) (by decide))

/-- What a line declares can be spelled. -/
theorem spellable_of_says (hline : '\n' ∉ line) (h : Line.Says (Line.words line) (some d)) :
    d.Spellable := by
  have hname : ∀ word, d.name? = some word → Line.IsName word := by
    intro word hword
    obtain ⟨hisWord, hmem⟩ := Line.isWord_of_mem_words (h.mem_words hword)
    exact Line.isName_iff.mpr ⟨hisWord, fun hnewline => hline (hmem _ hnewline)⟩
  generalize Line.words line = words at h
  cases h with
  | declare _ hmakes =>
    cases hmakes with
    | bitVec _ hpositive => exact hpositive
    | input | state => exact hname
    | _ => trivial

end Declaration

/-! ## Models that are written -/

namespace Model

variable {text : List Char} {ds : List Declaration}

theorem toList_renderModel_cons (d : Declaration) (ds : List Declaration) :
    (renderModel (d :: ds)).toList = d.render.toList ++ '\n' :: (renderModel ds).toList := by
  simp [renderModel, String.toList_join]

/-- The lines of a written model are read one by one, each as the declaration on it. -/
theorem read_renderModel (h : ∀ d ∈ ds, d.Spellable) :
    faults (renderModel ds).toList = [] ∧ declared (renderModel ds).toList = ds := by
  induction ds with
  | nil => exact ⟨rfl, rfl⟩
  | cons d ds ih =>
    obtain ⟨hd, hds⟩ := List.forall_mem_cons.mp h
    obtain ⟨hgood, hdeclared⟩ := ih hds
    have hline : '\n' ∉ d.render.toList := by
      rw [d.toList_render]
      exact Line.newline_notMem_intercalate hd.isName
    have hsaid : Line.Says (Line.words d.render.toList) (some d) := by
      rw [d.toList_render, Line.words_intercalate hd.isName]
      exact hd.says
    rw [toList_renderModel_cons]
    constructor
    · rw [faults_line hline, (faults_last_eq_nil_iff hline).mpr ⟨_, hsaid⟩, hgood]
      rfl
    · rw [declared_line hline, declared_of_said hline hsaid, hdeclared]
      rfl

theorem parse_of_spellable (h : ∀ d ∈ ds, d.Spellable) :
    parseModel (renderModel ds).toList = .ok ds := by
  obtain ⟨hgood, hdeclared⟩ := read_renderModel h
  rw [parseModel_eq, if_pos hgood, hdeclared]

theorem spellable_of_parseModel (h : parseModel text = .ok ds) : ∀ d ∈ ds, d.Spellable := by
  intro d hd
  rw [← declared_of_parseModel h] at hd
  obtain ⟨line, hline, hsaid⟩ := exists_says_of_mem_declared hd
  exact Declaration.spellable_of_says hline hsaid

/-- Written models are read back exactly if their declarations can be spelled. Whatever is read from
a text can be, so that it is still the same once it is written and read again. -/
theorem parseModel_renderModel :
    (∀ ds, parseModel (renderModel ds).toList = .ok ds ↔ ∀ d ∈ ds, d.Spellable) ∧
    ∀ text ds, parseModel text = .ok ds →
      (∀ d ∈ ds, d.Spellable) ∧ parseModel (renderModel ds).toList = .ok ds := by
  refine ⟨fun ds => ⟨spellable_of_parseModel, parse_of_spellable⟩, fun text ds h => ?_⟩
  have hspellable := spellable_of_parseModel h
  exact ⟨hspellable, parse_of_spellable hspellable⟩

/-- A text in many forms: signs and leading zeros, tabs and comments, names that look like something
else. -/
def oddText : List Char :=
  "03\tinput +1 sort more ; x\n\n2 sort bitvec 007\r\n".toList ++
    "4 state 1 bit\u00a0vec\n 9 next 2 3 -1".toList

/-- What the lines of that text declare. -/
def odd : List Declaration :=
  [.input 3 1 (some "sort"), .sort 2 (.bitVec 7), .state 4 1 (some "bit\u00a0vec"), .next 9 3]

theorem parse_oddText : parseModel oddText = .ok odd := by rfl

theorem parseModel_renderModel_odd :
    parseModel oddText = .ok odd ∧
      renderModel odd = "3 input 1 sort\n2 sort bitvec 7\n4 state 1 bit\u00a0vec\n9 next 1 3 1\n" ∧
      parseModel (renderModel odd).toList = .ok odd :=
  ⟨parse_oddText, by decide, (parseModel_renderModel.2 oddText odd parse_oddText).2⟩

end Model

end WitnessLift
