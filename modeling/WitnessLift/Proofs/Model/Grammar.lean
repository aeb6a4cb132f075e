-- SUMMARY: A declarative grammar of lines, and the parser as its decision procedure.
import Mathlib.Tactic.SplitIfs
import WitnessLift.Proofs.Fault
import WitnessLift.Proofs.Model.Words

/-!
# The grammar of a line

What the words of a line declare, and what is wrong with them if they declare nothing. Both are said
without reading the words one after the other, and reading them comes to the same.
-/

namespace WitnessLift

/-! ## Numerals -/

/-- A word that spells a 32-bit number: decimal digits, with at most one `+` before them. -/
def Text.Numeral (word : String) (n : UInt32) : Prop :=
  ∃ digits : List Char, (word.toList = digits ∨ word.toList = '+' :: digits) ∧ digits ≠ [] ∧
    (∀ c ∈ digits, c.isDigit = true) ∧ Nat.ofDigitChars 10 digits 0 = n.toNat

/-- A word that spells some 32-bit number. -/
def Text.IsNumeral (word : String) : Prop := ∃ n, Numeral word n

namespace Text

variable {s digits : List Char} {n : UInt32} {value : Nat}

theorem digits?_eq_some_iff :
    digits? digits = some value ↔
      digits ≠ [] ∧ (∀ c ∈ digits, c.isDigit = true) ∧ Nat.ofDigitChars 10 digits 0 = value := by
  simp [digits?, and_assoc]

/-- A sign is no digit, so it is known which characters are the digits. -/
theorem digits?_unsigned_eq_some_iff :
    digits? (unsigned s) = some value ↔
      ∃ digits, (s = digits ∨ s = '+' :: digits) ∧ digits? digits = some value := by
  constructor
  · intro h
    unfold unsigned at h
    split at h
    · next digits => exact ⟨digits, .inr rfl, h⟩
    · exact ⟨s, .inl rfl, h⟩
  · rintro ⟨digits, rfl | rfl, h⟩
    · have hsign : unsigned s = s := by
        unfold unsigned
        split
        · have hsign := (digits?_eq_some_iff.mp h).2.1 '+' List.mem_cons_self
          cases hsign
        · rfl
      rwa [hsign]
    · exact h

/-- A word is read as a number exactly if it spells it. -/
theorem word?_eq_some_iff : word? s = some n ↔ Numeral (String.ofList s) n := by
  have hread : word? s = some n ↔ digits? (unsigned s) = some n.toNat := by
    unfold word?
    cases digits? (unsigned s) with
    | none => simp
    | some value =>
      simp only [Option.bind_some, Option.some.injEq]
      split
      · next hvalue =>
        rw [Option.some.injEq, ← UInt32.toNat_inj, UInt32.toNat_ofNat_of_lt' hvalue]
      · next hvalue =>
        have hne : value ≠ n.toNat := fun heq => hvalue (heq ▸ n.toNat_lt)
        simp [hne]
  rw [hread, digits?_unsigned_eq_some_iff, Numeral, String.toList_ofList]
  simp only [digits?_eq_some_iff]

end Text

namespace Token

open Text

variable {t : Token} {n : UInt32} {e : LineFault}

theorem id?_eq_ok_iff : t.id? = .ok n ↔ Numeral t.name n := by
  rw [name, ← word?_eq_some_iff, id?]
  cases word? t.text <;> simp

theorem id?_eq_error_iff : t.id? = .error e ↔ ¬ IsNumeral t.name ∧ e = t.fault .idExpected := by
  simp only [IsNumeral, name, ← word?_eq_some_iff, id?]
  cases word? t.text <;> simp [eq_comm]

theorem width?_eq_ok_iff : t.width? = .ok n ↔ Numeral t.name n ∧ n ≠ 0 := by
  rw [name, ← word?_eq_some_iff, width?]
  cases word? t.text with
  | none => simp
  | some width =>
    by_cases hzero : width = 0
    · simpa [hzero] using fun h : 0 = n => h.symm
    · simpa [hzero] using fun h : width = n => h ▸ hzero

theorem width?_eq_error_iff :
    t.width? = .error e ↔ (∀ w, Numeral t.name w → w = 0) ∧ e = t.fault .widthExpected := by
  simp only [name, ← word?_eq_some_iff, width?]
  cases word? t.text with
  | none => simp [eq_comm]
  | some width => by_cases hzero : width = 0 <;> simp_all [eq_comm]

end Token

/-! ## Lines that declare something -/

/-- An operation plays one of six roles, or there is none of this name. -/
theorem Operation.role?_cases (name : String) :
    (name = "sort" ∧ role? name = some .sort) ∨ (name = "input" ∧ role? name = some .input) ∨
    (name = "state" ∧ role? name = some .state) ∨ (name = "init" ∧ role? name = some .init) ∨
    (name = "next" ∧ role? name = some .next) ∨
    (name ∈ all ∧ name ∉ ["sort", "input", "state", "init", "next"] ∧
      role? name = some .other) ∨
    (name ∉ all ∧ role? name = none) := by
  unfold role?
  split_ifs <;> simp_all

/-- The name that a declaration gives its variable. -/
def Declaration.name? : Declaration → Option String
  | .input _ _ name => name
  | .state _ _ name => name
  | _ => none

namespace Line

open Text

/-- What an operation and the words behind it declare with an id. Words beyond those that the
operation asks for do not matter. -/
inductive Makes (id : Id) : List String → Declaration → Prop
  | bitVec {width : String} {w : UInt32} {more : List String} :
    Numeral width w → w ≠ 0 → Makes id ("sort" :: "bitvec" :: width :: more) (.sort id (.bitVec w))
  | array {index element : String} {more : List String} :
    IsNumeral index → IsNumeral element →
    Makes id ("sort" :: "array" :: index :: element :: more) (.sort id .array)
  | input {sort : String} {s : Id} {more : List String} :
    Numeral sort s → Makes id ("input" :: sort :: more) (.input id s more.head?)
  | state {sort : String} {s : Id} {more : List String} :
    Numeral sort s → Makes id ("state" :: sort :: more) (.state id s more.head?)
  | init {sort target value : String} {t : Id} {more : List String} :
    IsNumeral sort → Numeral target t →
    Makes id ("init" :: sort :: target :: value :: more) (.init id t)
  | next {sort target value : String} {t : Id} {more : List String} :
    IsNumeral sort → Numeral target t →
    Makes id ("next" :: sort :: target :: value :: more) (.next id t)
  | other {operation : String} {more : List String} :
    operation ∈ Operation.all → operation ∉ ["sort", "input", "state", "init", "next"] →
    Makes id (operation :: more) (.other id)

/-- What the words of a line declare: nothing if there are none, and else what the operation behind
the id makes of it. -/
inductive Says : List String → Option Declaration → Prop
  | blank : Says [] none
  | declare {number : String} {id : Id} {operation : List String} {d : Declaration} :
    Numeral number id → Makes id operation d → Says (number :: operation) (some d)

theorem Says.mem_words {words : List String} {name : String} {d : Declaration}
    (h : Says words (some d)) (hname : d.name? = some name) :
    name ∈ words := by
  cases h with
  | declare _ hmakes =>
    cases hmakes with
    | input | state =>
      have hmem := List.mem_of_mem_head? hname
      simp [hmem]
    | _ => cases hname

section Declaring

variable {id : Id} {operation : Token} {arguments : List Token}

theorem ofTokens_sort_eq_ok_iff (id : Id) {kind : SortKind} :
    SortKind.ofTokens operation arguments = .ok kind ↔
      Makes id ("sort" :: arguments.map Token.name) (.sort id kind) := by
  constructor
  · intro h
    unfold SortKind.ofTokens at h
    split at h
    · cases h
    · next first more =>
      split at h
      · next hkind =>
        split at h
        · cases h
        · next width more =>
          obtain ⟨w, hwidth, rfl⟩ := Fault.map_eq_ok_iff.mp h
          obtain ⟨hnumeral, hpositive⟩ := Token.width?_eq_ok_iff.mp hwidth
          simpa [hkind] using Makes.bitVec hnumeral hpositive
      · split at h
        · next hkind =>
          split at h
          · next index element more =>
            obtain ⟨i, hindex, h⟩ := Fault.bind_eq_ok_iff.mp h
            obtain ⟨j, helement, h⟩ := Fault.bind_eq_ok_iff.mp h
            cases h
            simpa [hkind] using Makes.array ⟨i, Token.id?_eq_ok_iff.mp hindex⟩
              ⟨j, Token.id?_eq_ok_iff.mp helement⟩
          · cases h
        · cases h
  · intro h
    -- The words are named, since cases cannot tell the names of operations apart.
    generalize hwords : "sort" :: arguments.map Token.name = words at h
    cases h with
    | bitVec hwidth hpositive =>
      simp only [List.cons.injEq, true_and, List.map_eq_cons_iff] at hwords
      obtain ⟨first, _, rfl, hkind, width, more, rfl, rfl, -⟩ := hwords
      have hread := Token.width?_eq_ok_iff.mpr ⟨hwidth, hpositive⟩
      simp only [SortKind.ofTokens, hkind, hread, if_true]
      rfl
    | array hindex helement =>
      simp only [List.cons.injEq, true_and, List.map_eq_cons_iff] at hwords
      obtain ⟨first, _, rfl, hkind, index, _, rfl, rfl, element, more, rfl, rfl, -⟩ := hwords
      obtain ⟨i, hindex⟩ := hindex
      obtain ⟨j, helement⟩ := helement
      simp only [SortKind.ofTokens, hkind, Token.id?_eq_ok_iff.mpr hindex,
        Token.id?_eq_ok_iff.mpr helement]
      rfl

theorem variableOfTokens_eq_ok_iff {sort : Id} {name : Option String} :
    Declaration.variableOfTokens operation arguments = .ok (sort, name) ↔
      ∃ reference more, arguments.map Token.name = reference :: more ∧
        Numeral reference sort ∧ name = more.head? := by
  unfold Declaration.variableOfTokens
  cases arguments with
  | nil => simp
  | cons reference more =>
    simp only [Fault.bind_eq_ok_iff, Token.id?_eq_ok_iff]
    constructor
    · rintro ⟨n, hn, h⟩
      cases h
      exact ⟨_, _, rfl, hn, by simp⟩
    · rintro ⟨_, _, hwords, hn, rfl⟩
      obtain ⟨rfl, rfl⟩ := List.cons.inj hwords
      refine ⟨sort, hn, ?_⟩
      rw [List.head?_map]
      rfl

theorem targetOfTokens_eq_ok_iff {target : Id} :
    Declaration.targetOfTokens operation arguments = .ok target ↔
      ∃ sort reference value more,
        arguments.map Token.name = sort :: reference :: value :: more ∧ IsNumeral sort ∧
          Numeral reference target := by
  constructor
  · intro h
    unfold Declaration.targetOfTokens at h
    split at h
    · next sort reference value more =>
      obtain ⟨n, hsort, h⟩ := Fault.bind_eq_ok_iff.mp h
      exact ⟨_, _, _, _, rfl, ⟨n, Token.id?_eq_ok_iff.mp hsort⟩, Token.id?_eq_ok_iff.mp h⟩
    · cases h
  · rintro ⟨_, _, _, _, hwords, ⟨n, hsort⟩, htarget⟩
    simp only [List.map_eq_cons_iff] at hwords
    obtain ⟨sort, _, rfl, rfl, reference, _, rfl, rfl, value, more, rfl, -, -⟩ := hwords
    have hread := Token.id?_eq_ok_iff.mpr hsort
    exact Fault.bind_eq_ok_iff.mpr ⟨n, hread, Token.id?_eq_ok_iff.mpr htarget⟩

theorem makes_of_ofOperation {d : Declaration}
    (h : Declaration.ofOperation id operation arguments = .ok d) :
    Makes id (operation.name :: arguments.map Token.name) d := by
  unfold Declaration.ofOperation at h
  rcases Operation.role?_cases operation.name with
    ⟨hname, hrole⟩ | ⟨hname, hrole⟩ | ⟨hname, hrole⟩ | ⟨hname, hrole⟩ | ⟨hname, hrole⟩ |
    ⟨hname, hplain, hrole⟩ | ⟨hname, hrole⟩
  all_goals simp only [hrole] at h
  -- One case for each role, in the order of the roles, and one for a name without a role.
  · obtain ⟨kind, hkind, rfl⟩ := Fault.map_eq_ok_iff.mp h
    rw [hname]
    exact (ofTokens_sort_eq_ok_iff id).mp hkind
  · obtain ⟨_, hread, rfl⟩ := Fault.map_eq_ok_iff.mp h
    obtain ⟨_, _, hwords, hsort, hgiven⟩ := variableOfTokens_eq_ok_iff.mp hread
    rw [hname, hwords, hgiven]
    exact .input hsort
  · obtain ⟨_, hread, rfl⟩ := Fault.map_eq_ok_iff.mp h
    obtain ⟨_, _, hwords, hsort, hgiven⟩ := variableOfTokens_eq_ok_iff.mp hread
    rw [hname, hwords, hgiven]
    exact .state hsort
  · obtain ⟨_, hread, rfl⟩ := Fault.map_eq_ok_iff.mp h
    obtain ⟨_, _, _, _, hwords, hsort, htarget⟩ := targetOfTokens_eq_ok_iff.mp hread
    rw [hname, hwords]
    exact .init hsort htarget
  · obtain ⟨_, hread, rfl⟩ := Fault.map_eq_ok_iff.mp h
    obtain ⟨_, _, _, _, hwords, hsort, htarget⟩ := targetOfTokens_eq_ok_iff.mp hread
    rw [hname, hwords]
    exact .next hsort htarget
  · cases h
    exact .other hname hplain
  · cases h

theorem ofOperation_of_makes {d : Declaration} {words : List String} (h : Makes id words d)
    (hwords : words = operation.name :: arguments.map Token.name) :
    Declaration.ofOperation id operation arguments = .ok d := by
  unfold Declaration.ofOperation
  -- In each form but the last the operation has its name, and this decides which reader is used.
  cases h with
  | bitVec hwidth hpositive =>
    obtain ⟨hname, harguments⟩ := List.cons.inj hwords
    rw [← hname]
    exact Fault.map_eq_ok_iff.mpr
      ⟨_, (ofTokens_sort_eq_ok_iff id).mpr (harguments ▸ .bitVec hwidth hpositive), rfl⟩
  | array hindex helement =>
    obtain ⟨hname, harguments⟩ := List.cons.inj hwords
    rw [← hname]
    exact Fault.map_eq_ok_iff.mpr
      ⟨_, (ofTokens_sort_eq_ok_iff id).mpr (harguments ▸ .array hindex helement), rfl⟩
  | input hsort | state hsort =>
    obtain ⟨hname, harguments⟩ := List.cons.inj hwords
    rw [← hname]
    exact Fault.map_eq_ok_iff.mpr
      ⟨_, variableOfTokens_eq_ok_iff.mpr ⟨_, _, harguments.symm, hsort, rfl⟩, rfl⟩
  | init hsort htarget | next hsort htarget =>
    obtain ⟨hname, harguments⟩ := List.cons.inj hwords
    rw [← hname]
    exact Fault.map_eq_ok_iff.mpr
      ⟨_, targetOfTokens_eq_ok_iff.mpr ⟨_, _, _, _, harguments.symm, hsort, htarget⟩, rfl⟩
  | other hknown hplain =>
    obtain ⟨hname, -⟩ := List.cons.inj hwords
    have hrole : Operation.role? operation.name = some .other := by
      rw [← hname]
      simp_all [Operation.role?]
    rw [hrole]

/-- The tokens of a line are read as a declaration exactly if their words declare it. -/
theorem ofTokens?_eq_ok_iff {ts : List Token} {d : Option Declaration} :
    Declaration.ofTokens? ts = .ok d ↔ Says (ts.map Token.name) d := by
  rcases ts with _ | ⟨number, _ | ⟨operation, arguments⟩⟩
  · constructor
    · intro h
      cases h
      exact .blank
    · intro h
      cases h
      rfl
  · constructor
    · intro h
      obtain ⟨id, -, h⟩ := Fault.bind_eq_ok_iff.mp h
      cases h
    · intro h
      cases h with
      | declare _ hmakes => cases hmakes
  · constructor
    · intro h
      obtain ⟨id, hid, h⟩ := Fault.bind_eq_ok_iff.mp h
      obtain ⟨d, hmakes, rfl⟩ := Fault.map_eq_ok_iff.mp h
      exact .declare (Token.id?_eq_ok_iff.mp hid) (makes_of_ofOperation hmakes)
    · intro h
      cases h with
      | declare hid hmakes =>
        refine Fault.bind_eq_ok_iff.mpr ⟨_, Token.id?_eq_ok_iff.mpr hid, ?_⟩
        exact Fault.map_eq_ok_iff.mpr ⟨_, ofOperation_of_makes hmakes rfl, rfl⟩

end Declaring

/-! ## Lines that are faulty -/

/-- The number of words that a line with this operation and these words behind it has to have. -/
def needed (operation : String) (arguments : List String) : Nat :=
  if operation = "sort" then
    if arguments.head? = some "bitvec" then 4 else if arguments.head? = some "array" then 5 else 3
  else if operation = "input" ∨ operation = "state" then 3
  else if operation = "init" ∨ operation = "next" then 5
  else 2

/-- The positions behind the operation at which other lines are named. -/
def references (operation : String) (arguments : List String) : List Nat :=
  if operation = "sort" then if arguments.head? = some "array" then [1, 2] else []
  else if operation = "input" ∨ operation = "state" then [0]
  else if operation = "init" ∨ operation = "next" then [0, 1]
  else []

/-- What is wrong with a line of these words, the words before those to blame, and the words to
blame. -/
inductive Faulty : List String → SyntaxFault → List String → List String → Prop
  | noId {number : String} {more : List String} :
    ¬ IsNumeral number → Faulty (number :: more) .idExpected [] [number]
  | alone {number : String} :
    IsNumeral number → Faulty [number] .operationExpected [] [number]
  | unknown {number operation : String} {arguments : List String} :
    IsNumeral number → operation ∉ Operation.all →
    Faulty (number :: operation :: arguments)
      (.unknownOperation operation (Suggestion.suggest operation.toList)) [number] [operation]
  | tooFew {number operation : String} {arguments : List String} :
    IsNumeral number → arguments.length + 2 < needed operation arguments →
    Faulty (number :: operation :: arguments)
      (.tooFewTokens operation (needed operation arguments) (arguments.length + 2))
      [number] (operation :: arguments)
  | kind {number kind : String} {more : List String} :
    IsNumeral number → kind ≠ "bitvec" → kind ≠ "array" →
    Faulty (number :: "sort" :: kind :: more) (.sortKindExpected kind) [number, "sort"] [kind]
  | width {number width : String} {more : List String} :
    IsNumeral number → (∀ w, Numeral width w → w = 0) →
    Faulty (number :: "sort" :: "bitvec" :: width :: more) .widthExpected
      [number, "sort", "bitvec"] [width]
  | reference {number operation word : String} {arguments before after : List String} :
    IsNumeral number → needed operation arguments ≤ arguments.length + 2 →
    arguments = before ++ word :: after → before.length ∈ references operation arguments →
    (∀ i ∈ references operation arguments, ∀ earlier,
      before[i]? = some earlier → IsNumeral earlier) →
    ¬ IsNumeral word →
    Faulty (number :: operation :: arguments) .idExpected (number :: operation :: before) [word]

section Exclusive

variable {id : Id} {operation : String} {arguments words before blamed : List String}
  {d : Declaration} {f : SyntaxFault}

theorem Makes.mem_all (h : Makes id (operation :: arguments) d) : operation ∈ Operation.all := by
  cases h with
  | other hknown => exact hknown
  | _ => decide

theorem Makes.needed_le (h : Makes id (operation :: arguments) d) :
    needed operation arguments ≤ arguments.length + 2 := by
  cases h with
  | other _ hplain => simp_all [needed]
  | _ => simp [needed]

theorem Makes.isNumeral (h : Makes id (operation :: arguments) d) {i : Nat} {word : String}
    (hi : i ∈ references operation arguments) (hword : arguments[i]? = some word) :
    IsNumeral word := by
  cases h with
  | bitVec => simp [references] at hi
  | array hindex helement =>
    have hcases : i = 1 ∨ i = 2 := by simpa [references] using hi
    rcases hcases with rfl | rfl
    · exact Option.some.inj hword ▸ hindex
    · exact Option.some.inj hword ▸ helement
  | input hsort | state hsort =>
    obtain rfl : i = 0 := by simpa [references] using hi
    exact Option.some.inj hword ▸ ⟨_, hsort⟩
  | init hsort htarget | next hsort htarget =>
    have hcases : i = 0 ∨ i = 1 := by simpa [references] using hi
    rcases hcases with rfl | rfl
    · exact Option.some.inj hword ▸ hsort
    · exact Option.some.inj hword ▸ ⟨_, htarget⟩
  | other _ hplain => simp_all [references]

/-- No faulty line declares anything. -/
theorem Faulty.not_said (h : Faulty words f before blamed) (said : Option Declaration) :
    ¬ Says words said := by
  intro hsaid
  cases hsaid with
  | blank => cases h
  | declare hid hmakes =>
    cases h with
    | noId hbad => exact hbad ⟨_, hid⟩
    | alone => cases hmakes
    | unknown _ hunknown => exact hunknown hmakes.mem_all
    | tooFew _ hfew => exact absurd hmakes.needed_le (by omega)
    -- The words begin with `sort`, so only the forms of a sort can be meant.
    | kind _ hbitvec harray =>
      generalize hwords : "sort" :: _ = words at hmakes
      cases hmakes with
      | bitVec => simp_all
      | array => simp_all
      | other _ hplain => simp_all
      | _ => simp at hwords
    | width _ hzero =>
      generalize hwords : "sort" :: _ = words at hmakes
      cases hmakes with
      | bitVec hwidth hpositive =>
        obtain ⟨rfl, rfl⟩ : _ ∧ _ := by simpa using hwords
        exact hpositive (hzero _ hwidth)
      | other _ hplain => simp_all
      | _ => simp at hwords
    | reference _ _ harguments hreference _ hbad =>
      exact hbad (hmakes.isNumeral hreference (by simp [harguments]))

end Exclusive

/-- The fault of a line is about some of its tokens, and reaches from the first to the last one. -/
def Blames (ts : List Token) (e : LineFault) : Prop :=
  ∃ before t among after, ts = before ++ t :: (among ++ after) ∧
    Faulty (ts.map Token.name) e.fault (before.map Token.name) ((t :: among).map Token.name) ∧
    e.start = t.start ∧ e.stop = (among.getLastD t).stop

section Blaming

variable {number operation t : Token} {arguments before after : List Token} {e : LineFault}

theorem blames_fault (before after : List Token) {f : SyntaxFault}
    (h : Faulty ((before ++ t :: after).map Token.name) f (before.map Token.name) [t.name]) :
    Blames (before ++ t :: after) (t.fault f) :=
  ⟨before, t, [], after, rfl, h, rfl, rfl⟩

theorem blames_tooFew {n : Nat} (hid : IsNumeral number.name)
    (hneeded : needed operation.name (arguments.map Token.name) = n)
    (hfew : arguments.length + 2 < n) :
    Blames (number :: operation :: arguments) (WitnessLift.tooFew operation arguments n) := by
  subst hneeded
  have hlength : (arguments.map Token.name).length = arguments.length := List.length_map ..
  have hfaulty := Faulty.tooFew hid (hlength.symm ▸ hfew)
  rw [hlength, Nat.add_comm] at hfaulty
  exact ⟨[number], operation, arguments, [], by simp, hfaulty, rfl, rfl⟩

/-- The first reference that is not an id is to blame. -/
theorem blames_reference (hid : IsNumeral number.name) (before after : List Token)
    (hneeded : needed operation.name ((before ++ t :: after).map Token.name) ≤
      (before ++ t :: after).length + 2)
    (hreference : before.length ∈
      references operation.name ((before ++ t :: after).map Token.name))
    (hearlier : ∀ i ∈ references operation.name ((before ++ t :: after).map Token.name),
      ∀ u, before[i]? = some u → IsNumeral u.name)
    (h : t.id? = .error e) :
    Blames (number :: operation :: (before ++ t :: after)) e := by
  obtain ⟨hbad, rfl⟩ := Token.id?_eq_error_iff.mp h
  apply blames_fault (number :: operation :: before) after
  simp only [List.cons_append, List.map_cons, List.map_append] at *
  refine .reference hid ?_ rfl ?_ ?_ hbad
  · simpa using hneeded
  · simpa using hreference
  · intro i hi word hword
    rw [List.getElem?_map, Option.map_eq_some_iff] at hword
    obtain ⟨u, hu, rfl⟩ := hword
    exact hearlier i hi u hu

/-- A line whose sort is faulty. -/
theorem blames_sort (hid : IsNumeral number.name) (hsort : operation.name = "sort")
    (h : SortKind.ofTokens operation arguments = .error e) :
    Blames (number :: operation :: arguments) e := by
  unfold SortKind.ofTokens at h
  split at h
  · cases h
    exact blames_tooFew hid (by simp [needed, hsort]) (by simp)
  · next kind more =>
    split at h
    · next hkind =>
      split at h
      · cases h
        exact blames_tooFew hid (by simp [needed, hsort, hkind]) (by simp)
      · next width more =>
        obtain ⟨hbad, rfl⟩ := Token.width?_eq_error_iff.mp (Fault.map_eq_error_iff.mp h)
        apply blames_fault [number, operation, kind] _
        simpa [hsort, hkind] using Faulty.width hid hbad
    · next hbitvec =>
      split at h
      · next hkind =>
        have hreferences (arguments) :
            references operation.name (kind.name :: arguments) = [1, 2] := by
          simp [references, hsort, hkind]
        have hneeded (arguments) : needed operation.name (kind.name :: arguments) = 5 := by
          simp [needed, hsort, hkind]
        split at h
        -- The sort of the index is read first, so its fault counts if both are wrong.
        · next index element more =>
          rcases Fault.bind_eq_error_iff.mp h with hindex | ⟨i, hindex, h⟩
          · exact blames_reference hid [kind] (element :: more) (by simp [hneeded])
              (by simp [hreferences]) (by simp [hreferences]) hindex
          · rcases Fault.bind_eq_error_iff.mp h with helement | ⟨j, helement, h⟩
            · have hnumeral : IsNumeral index.name := ⟨i, Token.id?_eq_ok_iff.mp hindex⟩
              exact blames_reference hid [kind, index] more (by simp [hneeded])
                (by simp [hreferences]) (by simpa [hreferences] using hnumeral) helement
            · cases h
        · next hfew =>
          cases h
          refine blames_tooFew hid (hneeded _) ?_
          match more, hfew with
          | [], _ => simp
          | [_], _ => simp
          | index :: element :: more, hfew => exact (hfew index element more rfl).elim
      · next harray =>
        cases h
        apply blames_fault [number, operation] more
        simpa [hsort] using Faulty.kind hid hbitvec harray

/-- A line whose variable is faulty. -/
theorem blames_variable (hid : IsNumeral number.name)
    (hvariable : operation.name = "input" ∨ operation.name = "state")
    (h : Declaration.variableOfTokens operation arguments = .error e) :
    Blames (number :: operation :: arguments) e := by
  have hsort : operation.name ≠ "sort" := by
    rintro hsort
    simp [hsort] at hvariable
  have hneeded (arguments) : needed operation.name arguments = 3 := by
    simp [needed, hsort, hvariable]
  unfold Declaration.variableOfTokens at h
  split at h
  · cases h
    exact blames_tooFew hid (hneeded _) (by simp)
  · next reference more =>
    rcases Fault.bind_eq_error_iff.mp h with hreference | ⟨s, -, h⟩
    · have hreferences (arguments) : references operation.name arguments = [0] := by
        simp [references, hsort, hvariable]
      exact blames_reference hid [] more (by simp [hneeded]) (by simp [hreferences]) (by simp)
        hreference
    · cases h

/-- A line whose first or next value is faulty. -/
theorem blames_target (hid : IsNumeral number.name)
    (htarget : operation.name = "init" ∨ operation.name = "next")
    (h : Declaration.targetOfTokens operation arguments = .error e) :
    Blames (number :: operation :: arguments) e := by
  have hsort : operation.name ≠ "sort" := by
    rintro hsort
    simp [hsort] at htarget
  have hvariable : ¬ (operation.name = "input" ∨ operation.name = "state") := by
    rintro (hvariable | hvariable) <;> simp [hvariable] at htarget
  have hneeded (arguments) : needed operation.name arguments = 5 := by
    simp [needed, hsort, hvariable, htarget]
  have hreferences (arguments) : references operation.name arguments = [0, 1] := by
    simp [references, hsort, hvariable, htarget]
  unfold Declaration.targetOfTokens at h
  split at h
  · next sort reference value more =>
    rcases Fault.bind_eq_error_iff.mp h with hbad | ⟨s, hgood, hbad⟩
    · exact blames_reference hid [] (reference :: value :: more) (by simp [hneeded])
        (by simp [hreferences]) (by simp) hbad
    · have hnumeral : IsNumeral sort.name := ⟨s, Token.id?_eq_ok_iff.mp hgood⟩
      exact blames_reference hid [sort] (value :: more) (by simp [hneeded])
        (by simp [hreferences]) (by simpa [hreferences] using hnumeral) hbad
  · next hfew =>
    cases h
    refine blames_tooFew hid (hneeded _) ?_
    match arguments, hfew with
    | [], _ => simp
    | [_], _ => simp
    | [_, _], _ => simp
    | sort :: reference :: value :: more, hfew => exact (hfew sort reference value more rfl).elim

theorem blames_operation {id : Id} (hid : Numeral number.name id)
    (h : Declaration.ofOperation id operation arguments = .error e) :
    Blames (number :: operation :: arguments) e := by
  have hnumeral : IsNumeral number.name := ⟨id, hid⟩
  unfold Declaration.ofOperation at h
  rcases Operation.role?_cases operation.name with
    ⟨hname, hrole⟩ | ⟨hname, hrole⟩ | ⟨hname, hrole⟩ | ⟨hname, hrole⟩ | ⟨hname, hrole⟩ |
    ⟨hname, hplain, hrole⟩ | ⟨hname, hrole⟩
  all_goals simp only [hrole] at h
  · exact blames_sort hnumeral hname (Fault.map_eq_error_iff.mp h)
  · exact blames_variable hnumeral (.inl hname) (Fault.map_eq_error_iff.mp h)
  · exact blames_variable hnumeral (.inr hname) (Fault.map_eq_error_iff.mp h)
  · exact blames_target hnumeral (.inl hname) (Fault.map_eq_error_iff.mp h)
  · exact blames_target hnumeral (.inr hname) (Fault.map_eq_error_iff.mp h)
  · cases h
  · cases h
    apply blames_fault [number] arguments
    simpa [Token.name] using Faulty.unknown hnumeral hname

/-- If reading the tokens of a line fails, then its words are faulty, and the fault is about the
words to blame. -/
theorem blames_ofTokens? {ts : List Token} (h : Declaration.ofTokens? ts = .error e) :
    Blames ts e := by
  rcases ts with _ | ⟨number, rest⟩
  · cases h
  · rcases Fault.bind_eq_error_iff.mp h with hread | ⟨id, hread, h⟩
    · obtain ⟨hbad, rfl⟩ := Token.id?_eq_error_iff.mp hread
      exact blames_fault [] rest (.noId hbad)
    · have hid := Token.id?_eq_ok_iff.mp hread
      cases rest with
      | nil =>
        cases h
        exact blames_fault [] [] (.alone ⟨id, hid⟩)
      | cons operation arguments => exact blames_operation hid (Fault.map_eq_error_iff.mp h)

end Blaming

end Line

end WitnessLift
