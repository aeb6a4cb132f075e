-- SUMMARY: Names only decorate a witness: cutting lines at the second space removes them.
import WitnessLift.Proofs.Lift.Delivery
import WitnessLift.Proofs.Model.Reading
import WitnessLift.Proofs.Witness.Reader
import WitnessLift.Proofs.Witness.Sections

/-!
# Names in a witness

Names only decorate a witness. With and without them a trace ends alike, and the text without them
is the text with them, each line of it cut at its second space. This relies on the names of a model
being words of its lines.
-/

namespace WitnessLift

/-! ## Texts without a break -/

namespace Text

/-- Neither a space nor a line feed occurs. -/
def IsUnbroken (s : List Char) : Prop := ∀ c ∈ s, c ≠ ' ' ∧ c ≠ '\n'

/-- A line up to its second space. -/
def beforeSecondSpace (line : List Char) : List Char :=
  [' '].intercalate ((line.splitOn ' ').take 2)

variable {s t : List Char}

theorem IsUnbroken.space_notMem (h : IsUnbroken s) : ' ' ∉ s := fun hmem => (h _ hmem).1 rfl

theorem IsUnbroken.newline_notMem (h : IsUnbroken s) : '\n' ∉ s := fun hmem => (h _ hmem).2 rfl

theorem isUnbroken_toString (n : Nat) : IsUnbroken (toString n).toList := by
  intro c hc
  have hdigit := isDigit_of_mem_toString hc
  constructor <;> rintro rfl <;> cases hdigit

theorem isUnbroken_render (bits : Bits) : IsUnbroken bits.render.toList := by
  intro c hc
  rw [Bits.render, String.toList_ofList] at hc
  obtain ⟨bit, -, rfl⟩ := List.mem_map.mp hc
  cases bit <;> decide

theorem beforeSecondSpace_unbroken (h : IsUnbroken s) : beforeSecondSpace s = s := by
  rw [beforeSecondSpace, List.splitOn_eq_singleton h.space_notMem]
  simp

theorem beforeSecondSpace_pair (hs : IsUnbroken s) (ht : IsUnbroken t) :
    beforeSecondSpace (s ++ ' ' :: t) = s ++ ' ' :: t := by
  rw [beforeSecondSpace, List.splitOn_append_cons_self_of_not_mem hs.space_notMem,
    List.splitOn_eq_singleton ht.space_notMem]
  simp

theorem beforeSecondSpace_triple (hs : IsUnbroken s) (ht : IsUnbroken t) (rest : List Char) :
    beforeSecondSpace (s ++ ' ' :: (t ++ ' ' :: rest)) = s ++ ' ' :: t := by
  rw [beforeSecondSpace, List.splitOn_append_cons_self_of_not_mem hs.space_notMem,
    List.splitOn_append_cons_self_of_not_mem ht.space_notMem]
  simp

example : beforeSecondSpace "0 11 c#0".toList = "0 11".toList := by decide

/-- Lines with a line feed behind each are found again, and behind the last line feed is nothing. -/
theorem splitOn_unlines {l : List (List Char)} (h : ∀ s ∈ l, '\n' ∉ s) :
    (unlines l).splitOn '\n' = l ++ [[]] := by
  induction l with
  | nil => rfl
  | cons s l ih =>
    obtain ⟨hs, hl⟩ := List.forall_mem_cons.mp h
    have hparts : unlines (s :: l) = s ++ '\n' :: unlines l := by simp [unlines]
    rw [hparts, List.splitOn_append_cons_self_of_not_mem hs, ih hl, List.cons_append]

end Text

/-! ## Names of a model -/

theorem Declaration.name?_of_input? {width : Id → UInt32} {d : Declaration} {v : DeclaredVar}
    (h : d.input? width = some v) : d.name? = v.name := by
  cases d with
  | input =>
    cases h
    rfl
  | _ => cases h

theorem Declaration.name?_of_state? {width : Id → UInt32} {d : Declaration} {v : DeclaredVar}
    (h : d.state? width = some v) : d.name? = v.name := by
  cases d with
  | state =>
    cases h
    rfl
  | _ => cases h

namespace Model

variable {text : List Char} {ds : List Declaration} {d : Declaration} {name : String}

/-- The names of a model that is read are words of its lines. -/
theorem isUnbroken_of_parseModel (h : parseModel text = .ok ds) (hd : d ∈ ds)
    (hname : d.name? = some name) : Text.IsUnbroken name.toList := by
  rw [← declared_of_parseModel h] at hd
  obtain ⟨line, hline, hsaid⟩ := exists_says_of_mem_declared hd
  obtain ⟨hword, hmem⟩ := Line.isWord_of_mem_words (hsaid.mem_words hname)
  intro c hc
  refine ⟨?_, fun heq => hline (heq ▸ hmem c hc)⟩
  rintro rfl
  cases (hword.2 _ hc).1

end Model

namespace Layout

variable {ds : List Declaration} {layout : Layout} {space : BitSpace}

/-- Entries that are read from a model have the names that it declares. -/
theorem exists_of_entry {read : Declaration → Option DeclaredVar}
    {entries : List (Id × Nat × Option String)}
    (hentries : entries = (ds.filterMap read).map DeclaredVar.entry)
    (hread : ∀ d v, read d = some v → d.name? = v.name) {e : Id × Nat × Option String}
    (he : e ∈ entries) : ∃ d ∈ ds, d.name? = e.2.2 := by
  rw [hentries, List.mem_map] at he
  obtain ⟨v, hv, rfl⟩ := he
  obtain ⟨d, hd, hd'⟩ := List.mem_filterMap.mp hv
  exact ⟨d, hd, hread d v hd'⟩

/-- The names in a section are names of the model. -/
theorem Of.exists_of_mem_shown (h : Of ds layout) {v : Nat × Option String}
    (hv : v ∈ layout.shown space) : ∃ d ∈ ds, d.name? = v.2 := by
  have hinput : ∀ u ∈ layout.inputs, ∃ d ∈ ds, d.name? = u.name := fun u hu =>
    exists_of_entry h.inputs (fun _ _ => Declaration.name?_of_input?) (List.mem_map_of_mem hu)
  have hstate : ∀ u ∈ layout.states, ∃ d ∈ ds, d.name? = u.name := fun u hu =>
    exists_of_entry h.states (fun _ _ => Declaration.name?_of_state?) (List.mem_map_of_mem hu)
  cases space with
  | state =>
    obtain ⟨u, hu, rfl⟩ := List.mem_map.mp hv
    exact hstate u (mem_latches.mp hu).1
  | input =>
    rcases List.mem_append.mp hv with hv | hv
    · obtain ⟨u, hu, rfl⟩ := List.mem_map.mp hv
      exact hinput u hu
    · obtain ⟨u, hu, rfl⟩ := List.mem_map.mp hv
      exact hstate u (List.mem_of_mem_filter hu)

end Layout

/-! ## Lines with and without names -/

namespace WitnessLine

open Text

variable {space : BitSpace} {k index : Nat} {value : Bits} {name : Option String}

/-- What a record has behind its value: the name of its variable if it has one, with the mark of the
section. -/
def suffix (space : BitSpace) (k : Nat) : Option String → List Char
  | some name => ' ' :: (name.toList ++ (mark space k).toList)
  | none => []

/-- The sign that a mark begins with. -/
def sign : BitSpace → Char
  | .state => '#'
  | .input => '@'

theorem toList_mark (space : BitSpace) (k : Nat) :
    (mark space k).toList = sign space :: (toString k).toList := by
  have hmark : mark space k = String.singleton (sign space) ++ toString k := by cases space <;> rfl
  rw [hmark, String.toList_append, String.toList_singleton]
  rfl

theorem isUnbroken_mark (space : BitSpace) (k : Nat) : IsUnbroken (mark space k).toList := by
  have hsign : sign space ≠ ' ' ∧ sign space ≠ '\n' := by cases space <;> decide
  rw [toList_mark]
  intro c hc
  rcases List.mem_cons.mp hc with rfl | hc
  · exact hsign
  · exact isUnbroken_toString k c hc

theorem toList_record (names : Bool) :
    ((assignment space k index value name).render names).toList =
      (toString index).toList ++ ' ' :: (value.render.toList ++
        (label names space k name).toList) := by
  have hrender : (assignment space k index value name).render names =
      toString index ++ " " ++ value.render ++ label names space k name := rfl
  rw [hrender]
  simp

theorem toList_label_true : (label true space k name).toList = suffix space k name := by
  cases name <;> simp [label, suffix]

theorem toList_label_false : (label false space k name).toList = [] := by
  cases name <;> simp [label]

/-- A number is read off its digits. -/
theorem number_injective {m n : Nat} (h : (toString m).toList = (toString n).toList) : m = n := by
  simp only [Nat.toString_eq_ofList_toDigits, String.toList_ofList] at h
  rw [← Nat.ofDigitChars_ten_toDigits (n := m), h, Nat.ofDigitChars_ten_toDigits]

theorem sign_injective {space space' : BitSpace} (h : sign space = sign space') :
    space = space' := by
  cases space <;> cases space' <;> first | rfl | cases h

/-- A mark is the text of its heading, and of no other line. -/
theorem eq_heading_of_render {line : WitnessLine} {names : Bool}
    (h : (line.render names).toList = (mark space k).toList) : line = .heading space k := by
  -- The first letters of the other lines are no signs of a mark.
  have hhead : (line.render names).toList.head? = some (sign space) := by
    rw [h, toList_mark]
    rfl
  cases line with
  | status | property | stop =>
    rw [render] at hhead
    cases space <;> cases hhead
  | assignment =>
    refine absurd ?_ (isUnbroken_mark space k).space_notMem
    rw [← h, toList_record]
    simp
  | heading space' k' =>
    have htext : (mark space' k').toList = (mark space k).toList := h
    rw [toList_mark, toList_mark] at htext
    obtain ⟨hsign, hnumber⟩ := List.cons.inj htext
    rw [sign_injective hsign, number_injective hnumber]

/-- Without names a line is what stands before the second space of the line with names. -/
theorem beforeSecondSpace_render (line : WitnessLine) :
    beforeSecondSpace (line.render true).toList = (line.render false).toList := by
  cases line with
  | status | property | stop => decide
  | heading space k => exact beforeSecondSpace_unbroken (isUnbroken_mark space k)
  | assignment space k index value name =>
    rw [toList_record, toList_record, toList_label_true, toList_label_false, List.append_nil]
    cases name with
    | none =>
      rw [suffix, List.append_nil]
      exact beforeSecondSpace_pair (isUnbroken_toString index) (isUnbroken_render value)
    | some name =>
      exact beforeSecondSpace_triple (isUnbroken_toString index) (isUnbroken_render value) _

/-- The name that a record knows. -/
def name? : WitnessLine → Option String
  | .assignment _ _ _ _ name => name
  | _ => none

theorem newline_notMem_render {line : WitnessLine}
    (h : ∀ name, line.name? = some name → '\n' ∉ name.toList) (names : Bool) :
    '\n' ∉ (line.render names).toList := by
  cases line with
  | status | property | stop =>
    rw [render]
    decide
  | heading space k => exact (isUnbroken_mark space k).newline_notMem
  | assignment space k index value name =>
    -- Only the name is not made of digits and signs.
    have hlabel : '\n' ∉ (label names space k name).toList := by
      cases names with
      | false => simp [toList_label_false]
      | true =>
        rw [toList_label_true]
        cases name with
        | none => simp [suffix]
        | some name =>
          simp [suffix, h name rfl, (isUnbroken_mark space k).newline_notMem]
    have hindex := (isUnbroken_toString index).newline_notMem
    rw [toList_record]
    simp only [List.mem_append, List.mem_cons, hindex, (isUnbroken_render value).newline_notMem,
      hlabel, or_self, or_false]
    decide

end WitnessLine

/-! ## Witnesses with and without names -/

/-- A sink that takes the bytes of all lines and never fails. -/
def Sink.unlimited (names : Bool) : Sink Text.Bytes where
  put bytes line := (bytes ++ line.bytes names, none)

theorem Sink.putAll_unlimited (names : Bool) (bytes : Text.Bytes) (lines : List WitnessLine) :
    (unlimited names).putAll bytes lines =
      (bytes ++ lines.flatMap (WitnessLine.bytes names), none) := by
  induction lines generalizing bytes with
  | nil => simp [putAll]
  | cons line lines ih =>
    rw [putAll, unlimited]
    change (unlimited names).putAll (bytes ++ line.bytes names) lines = _
    rw [ih, List.flatMap_cons, List.append_assoc]

namespace WitnessLine

/-- The lines of the text of a witness. Nothing stands behind the last line feed. -/
def rows (names : Bool) (lines : List WitnessLine) : List (List Char) :=
  lines.map (fun line => (line.render names).toList) ++ [[]]

variable {lines : List WitnessLine} {line : WitnessLine} {space : BitSpace} {k p : Nat}

theorem splitOn_text (h : ∀ line ∈ lines, ∀ name, line.name? = some name → '\n' ∉ name.toList)
    (names : Bool) : (text names lines).toList.splitOn '\n' = rows names lines := by
  have htext : (text names lines).toList =
      Text.unlines (lines.map fun line => (line.render names).toList) := by
    have hlines := Text.toList_ofLines (lines.map (render names))
    rw [Text.ofLines, List.map_map, List.map_map] at hlines
    exact hlines
  rw [htext, Text.splitOn_unlines, rows]
  intro s hs
  obtain ⟨line, hline, rfl⟩ := List.mem_map.mp hs
  exact newline_notMem_render (h line hline) names

theorem map_beforeSecondSpace_rows (lines : List WitnessLine) :
    (rows true lines).map Text.beforeSecondSpace = rows false lines := by
  rw [rows, rows, List.map_append, List.map_map]
  exact congrArg₂ (· ++ ·) (List.map_congr_left fun line _ => beforeSecondSpace_render line) rfl

theorem getElem?_rows (h : lines[p]? = some line) (names : Bool) :
    (rows names lines)[p]? = some (line.render names).toList := by
  have hlt := (List.getElem?_eq_some_iff.mp h).1
  rw [rows, List.getElem?_append_left (by simpa using hlt), List.getElem?_map, h]
  rfl

theorem getElem?_rows_of_none (h : lines[p]? = none) (names : Bool) :
    (rows names lines)[p]? = ([[]] : List (List Char))[p - lines.length]? := by
  have hle := List.getElem?_eq_none_iff.mp h
  rw [rows, List.getElem?_append_right (by simpa using hle), List.length_map]

/-- A row that is a mark belongs to a heading. -/
theorem heading_of_rows {names : Bool} (h : (rows names lines)[p]? = some (mark space k).toList) :
    lines[p]? = some (.heading space k) := by
  cases hline : lines[p]? with
  | none =>
    rw [getElem?_rows_of_none hline] at h
    have hempty := List.mem_singleton.mp (List.mem_of_getElem? h)
    rw [toList_mark] at hempty
    cases hempty
  | some line =>
    rw [getElem?_rows hline] at h
    rw [eq_heading_of_render (Option.some.inj h)]

/-- Only the row of a variable with a name differs from the one without. -/
theorem record_of_rows (h : (rows true lines)[p]? ≠ (rows false lines)[p]?) :
    ∃ space k index value name,
      lines[p]? = some (.assignment space k index value (some name)) := by
  cases hline : lines[p]? with
  | none => exact absurd (by rw [getElem?_rows_of_none hline, getElem?_rows_of_none hline]) h
  | some line =>
    rw [getElem?_rows hline, getElem?_rows hline] at h
    rcases line with _ | _ | _ | ⟨space, k, index, value, _ | name⟩ | _
    · exact absurd rfl h
    · exact absurd rfl h
    · exact absurd rfl h
    · exact absurd rfl h
    · exact ⟨space, k, index, value, name, rfl⟩
    · exact absurd rfl h

end WitnessLine

namespace Layout

open WitnessLine

variable {ds : List Declaration} {layout : Layout}

theorem liftInto_unlimited (layout : Layout) (names : Bool) (trace : Text.Bytes) :
    (layout.liftInto (Sink.unlimited names) [] trace).result = (layout.lift trace).result ∧
      (layout.liftInto (Sink.unlimited names) [] trace).sink = layout.output names trace := by
  have hdeliver := layout.liftInto_eq_deliver (Sink.unlimited names) [] trace
  rw [Sink.deliver, Sink.putAll_unlimited, ← output_eq_flatMap, List.nil_append] at hdeliver
  exact Prod.mk.inj hdeliver

/-- The records of a witness of a model that is read have names of a single line. -/
theorem Of.newline_notMem_name {text : List Char} (hparse : parseModel text = .ok ds)
    (h : Of ds layout) (trace : Text.Bytes) :
    ∀ line ∈ (layout.lift trace).sink.toList, ∀ name, line.name? = some name →
      '\n' ∉ name.toList := by
  intro line hline name hname
  cases line with
  | assignment space k index value known =>
    obtain ⟨p, hp⟩ := List.mem_iff_getElem?.mp hline
    obtain ⟨i, j, -, -, hshown⟩ := (h.sectioned_lift trace).headed hp
    obtain ⟨d, hd, hgiven⟩ := h.exists_of_mem_shown (List.mem_of_getElem? hshown)
    exact (Model.isUnbroken_of_parseModel hparse hd (hgiven.trans hname)).newline_notMem
  | _ => cases hname

/-- Names only decorate a witness. A trace is lifted with the same result with and without them, and
the text without them has the lines of the text with them, cut at their second space. Behind a
heading stands a record for each variable of the section, which ends with the name of its variable
and the mark of the section if there is a name, and no other lines differ. -/
theorem names_decorate {text : List Char} (hparse : parseModel text = .ok ds)
    (hbuild : build ds = .ok layout) (trace : Text.Bytes) :
    (layout.liftInto (Sink.unlimited true) [] trace).result =
        (layout.liftInto (Sink.unlimited false) [] trace).result ∧
      ∃ named plain : List Char,
        (layout.liftInto (Sink.unlimited true) [] trace).sink = Text.encode named ∧
        (layout.liftInto (Sink.unlimited false) [] trace).sink = Text.encode plain ∧
        plain = ['\n'].intercalate ((named.splitOn '\n').map Text.beforeSecondSpace) ∧
        (∀ i space k, (named.splitOn '\n')[i]? = some (mark space k).toList →
          ∀ j v, (layout.shown space)[j]? = some v →
            ∃ value : List Char, ' ' ∉ value ∧
              (plain.splitOn '\n')[i + 1 + j]? = some ((toString v.1).toList ++ ' ' :: value) ∧
              (named.splitOn '\n')[i + 1 + j]? =
                some ((toString v.1).toList ++ ' ' :: (value ++ suffix space k v.2))) ∧
        ∀ p, (named.splitOn '\n')[p]? ≠ (plain.splitOn '\n')[p]? →
          ∃ i space k j v name, p = i + 1 + j ∧
            (named.splitOn '\n')[i]? = some (mark space k).toList ∧
            (layout.shown space)[j]? = some v ∧ v.2 = some name := by
  have hof := Of.of_build hbuild
  have hsections := hof.sectioned_lift trace
  have hnames := hof.newline_notMem_name hparse trace
  obtain ⟨hnamed, hnamed'⟩ := layout.liftInto_unlimited true trace
  obtain ⟨hplain, hplain'⟩ := layout.liftInto_unlimited false trace
  refine ⟨hnamed.trans hplain.symm, _, _, hnamed', hplain', ?_, ?_, ?_⟩
  · rw [splitOn_text hnames, map_beforeSecondSpace_rows, ← splitOn_text hnames,
      List.intercalate_splitOn]
  · intro i space k hi j v hv
    rw [splitOn_text hnames] at hi
    -- A row that is a mark belongs to a heading, and behind that stand the records.
    obtain ⟨value, hrecord⟩ := hsections.whole (heading_of_rows hi) hv
    refine ⟨value.render.toList, (Text.isUnbroken_render value).space_notMem, ?_, ?_⟩
    · rw [splitOn_text hnames, getElem?_rows hrecord, toList_record, toList_label_false,
        List.append_nil]
    · rw [splitOn_text hnames, getElem?_rows hrecord, toList_record, toList_label_true]
  · intro p hp
    rw [splitOn_text hnames, splitOn_text hnames] at hp
    obtain ⟨space, k, index, value, name, hrecord⟩ := record_of_rows hp
    obtain ⟨i, j, hplace, hi, hv⟩ := hsections.headed hrecord
    refine ⟨i, space, k, j, _, name, hplace, ?_, hv, rfl⟩
    rw [splitOn_text hnames, getElem?_rows hi]
    rfl

/-- A text of the mixed model. -/
def mixedText : List Char :=
  "1 sort bitvec 2\n2 sort bitvec 3 ; three bits\n9 state 1 c\n4 input 1 a\n".toList ++
    "6 next 2 5 5\n3 state 2 free\n5 state 2\r\n7 input 2\n\n".toList ++
    "8 init 1 9 1\n10 next 1 9 4\n".toList

theorem parse_mixedText : parseModel mixedText = .ok Model.mixed := by rfl

theorem names_decorate_mixed :
    parseModel mixedText = .ok Model.mixed ∧ build Model.mixed = .ok mixed ∧
      ∃ named plain : List Char,
        (mixed.liftInto (Sink.unlimited true) [] mixedTrace).sink = Text.encode named ∧
        (mixed.liftInto (Sink.unlimited false) [] mixedTrace).sink = Text.encode plain ∧
        plain = ['\n'].intercalate ((named.splitOn '\n').map Text.beforeSecondSpace) := by
  obtain ⟨-, named, plain, hnamed, hplain, hcut, -, -⟩ :=
    names_decorate parse_mixedText build_mixed mixedTrace
  exact ⟨parse_mixedText, build_mixed, named, plain, hnamed, hplain, hcut⟩

end Layout

end WitnessLift
