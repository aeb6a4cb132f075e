-- SUMMARY: Parsing distributes over texts that follow each other.
import Mathlib.Data.List.ReduceOption
import WitnessLift.Proofs.Model.Grammar
import WitnessLift.Proofs.Text.Lines

/-!
# Reading line by line

A model is read line by line, and no line has a say in how another one is read: what two texts
declare and what is wrong with them is found just so when one of them follows the other.
-/

namespace WitnessLift

open Text (dropReturn crlfs byteSize)

/-! ## Carriage returns -/

namespace LineTokens

/-- A carriage return at the end of a line only ends a token that ends there anyway. -/
theorem tokens_scan_return (offset : Nat) (run line : List Char) :
    (scan offset run (line ++ ['\r'])).tokens = (scan offset run line).tokens := by
  -- Induction on the line: only at its end is the carriage return met.
  induction line generalizing offset run with
  | nil => simp [scan, Token.isSeparator, Token.ofRun]
  | cons c line ih =>
    rw [List.cons_append, scan, scan]
    split
    · rfl
    · split
      · simp only [ih]
      · exact ih _ _

theorem tokens_dropReturn (line : List Char) :
    (ofLine (dropReturn line)).tokens = (ofLine line).tokens := by
  unfold dropReturn
  split
  · next hlast =>
    obtain ⟨line, rfl⟩ := List.getLast?_eq_some_iff.mp hlast
    rw [List.dropLast_concat]
    exact (tokens_scan_return 0 [] line).symm
  · rfl

end LineTokens

theorem Declaration.ofLine?_dropReturn (line : List Char) :
    ofLine? (dropReturn line) = ofLine? line := by
  rw [ofLine?, LineTokens.tokens_dropReturn, ofLine?]

/-! ## Readings in a row -/

/-- An error of a text that more lines are put before. -/
def SyntaxError.shift (e : SyntaxError) (lines bytes : Nat) : SyntaxError :=
  { e with line := lines + e.line, start := bytes + e.start, stop := bytes + e.stop }

@[simp] theorem SyntaxError.shift_shift (e : SyntaxError) (m n i j : Nat) :
    (e.shift m n).shift i j = e.shift (i + m) (j + n) := by
  simp [shift, Nat.add_assoc]

namespace Reading

/-- What is read first, and then what is read behind it. -/
def followedBy (r q : Reading) : Reading where
  lines := r.lines + q.lines
  offset := r.offset + q.offset
  declarations := r.declarations ++ q.declarations
  errors := r.errors ++ q.errors.map (·.shift r.lines r.offset)

variable {line rest : List Char}

theorem followedBy_empty (r : Reading) : r.followedBy {} = r := by
  simp [followedBy]

theorem line_followedBy (r q : Reading) (line : List Char) :
    (r.followedBy q).line line = r.followedBy (q.line line) := by
  unfold Reading.line
  split <;> simp [followedBy, pass, place, SyntaxError.shift, Nat.add_assoc]

theorem foldl_line_followedBy (r q : Reading) (lines : List (List Char)) :
    lines.foldl Reading.line (r.followedBy q) = r.followedBy (lines.foldl Reading.line q) := by
  induction lines generalizing q with
  | nil => rfl
  | cons line lines ih => rw [List.foldl_cons, line_followedBy, ih, List.foldl_cons]

/-- The first line is read, and then the rest as if it was the whole text. -/
theorem ofText_line (h : '\n' ∉ line) (rest : List Char) :
    ofText (line ++ '\n' :: rest) =
      (Reading.line {} (dropReturn line)).followedBy (ofText rest) := by
  rw [ofText, Text.lines_line h, List.foldl_cons, ofText, ← foldl_line_followedBy, followedBy_empty]

theorem ofText_last (h : '\n' ∉ line) (hne : line ≠ []) :
    ofText line = Reading.line {} line := by
  rw [ofText, Text.lines_last h hne]
  rfl

theorem lines_line (r : Reading) (line : List Char) : (r.line line).lines = r.lines + 1 := by
  unfold Reading.line
  split <;> rfl

theorem offset_line (r : Reading) (line : List Char) :
    (r.line line).offset = r.offset + byteSize line + 1 := by
  unfold Reading.line
  split <;> rfl

end Reading

/-! ## Declarations and errors of a text -/

namespace Model

/-- The declarations of all lines without a fault. -/
def declared (text : List Char) : List Declaration := (Reading.ofText text).declarations.toList

/-- The errors of all faulty lines. -/
def faults (text : List Char) : List SyntaxError := (Reading.ofText text).errors.toList

variable {line text : List Char}

theorem declared_last (h : '\n' ∉ line) :
    declared line = (Declaration.ofLine? line).toOption.join.toList := by
  by_cases hne : line = []
  · subst hne
    rfl
  · rw [declared, Reading.ofText_last h hne, Reading.line]
    rcases Declaration.ofLine? line with e | _ | d <;> rfl

theorem faults_last (h : '\n' ∉ line) :
    faults line = match Declaration.ofLine? line with
      | .error e => [⟨e.fault, 1, e.start, e.stop⟩]
      | .ok _ => [] := by
  by_cases hne : line = []
  · subst hne
    rfl
  · rw [faults, Reading.ofText_last h hne, Reading.line]
    rcases Declaration.ofLine? line with e | _ | d
    · simp [Reading.place, Reading.pass]
    · rfl
    · rfl

theorem declared_line (h : '\n' ∉ line) (rest : List Char) :
    declared (line ++ '\n' :: rest) = declared line ++ declared rest := by
  have hline : (Reading.line {} (dropReturn line)).declarations.toList = declared line := by
    rw [declared_last h, Reading.line, Declaration.ofLine?_dropReturn]
    rcases Declaration.ofLine? line with e | _ | d <;> rfl
  rw [declared, Reading.ofText_line h, Reading.followedBy, Array.toList_append, hline]
  rfl

/-- What is wrong with the first line, and then what is wrong behind it. -/
theorem faults_line (h : '\n' ∉ line) (rest : List Char) :
    faults (line ++ '\n' :: rest) =
      faults line ++ (faults rest).map (·.shift 1 (byteSize (dropReturn line) + 1)) := by
  have hline : (Reading.line {} (dropReturn line)).errors.toList = faults line := by
    rw [faults_last h, Reading.line, Declaration.ofLine?_dropReturn]
    rcases Declaration.ofLine? line with e | _ | d
    · simp [Reading.place, Reading.pass]
    · rfl
    · rfl
  have hlines := Reading.lines_line {} (dropReturn line)
  have hoffset := Reading.offset_line {} (dropReturn line)
  simp only [Nat.zero_add] at hlines hoffset
  rw [faults, Reading.ofText_line h, Reading.followedBy, Array.toList_append, hline,
    Array.toList_map, hlines, hoffset]
  rfl

theorem parseModel_eq (text : List Char) :
    parseModel text =
      if faults text = [] then .ok (declared text) else .error (.malformed (faults text)) := by
  simp [parseModel, faults, declared]

theorem declared_of_parseModel {ds : List Declaration} (h : parseModel text = .ok ds) :
    declared text = ds := by
  rw [parseModel_eq] at h
  split at h
  · exact Except.ok.inj h
  · cases h

/-! ## Accepted texts -/

theorem splitOn_line (h : '\n' ∉ line) (rest : List Char) :
    (line ++ '\n' :: rest).splitOn '\n' = line :: rest.splitOn '\n' :=
  List.splitOn_append_cons_self_of_not_mem h rest

theorem ofLine?_eq_ok_iff {d : Option Declaration} :
    Declaration.ofLine? line = .ok d ↔ Line.Says (Line.words line) d := by
  rw [Declaration.ofLine?, Line.ofTokens?_eq_ok_iff, (Token.stand_ofLine line).words_eq]

theorem faults_last_eq_nil_iff (h : '\n' ∉ line) :
    faults line = [] ↔ ∃ d, Line.Says (Line.words line) d := by
  rw [faults_last h]
  simp only [← ofLine?_eq_ok_iff]
  cases Declaration.ofLine? line <;> simp

theorem declared_of_said (h : '\n' ∉ line) {d : Option Declaration}
    (hsaid : Line.Says (Line.words line) d) : declared line = d.toList := by
  rw [declared_last h, ofLine?_eq_ok_iff.mpr hsaid]
  rfl

theorem mem_declared_last_iff (h : '\n' ∉ line) {d : Declaration} :
    d ∈ declared line ↔ Line.Says (Line.words line) (some d) := by
  rw [declared_last h, ← ofLine?_eq_ok_iff]
  rcases Declaration.ofLine? line with e | _ | found <;> simp [Except.toOption, eq_comm]

/-- Each declaration is what some line says. -/
theorem exists_says_of_mem_declared {d : Declaration} (h : d ∈ declared text) :
    ∃ line, '\n' ∉ line ∧ Line.Says (Line.words line) (some d) := by
  induction text using Text.line_induction with
  | last line hline => exact ⟨line, hline, (mem_declared_last_iff hline).mp h⟩
  | line line rest hline ih =>
    rw [declared_line hline, List.mem_append] at h
    rcases h with h | h
    · exact ⟨line, hline, (mem_declared_last_iff hline).mp h⟩
    · exact ih h

theorem faults_eq_nil_iff (text : List Char) :
    faults text = [] ↔ ∀ line ∈ text.splitOn '\n', ∃ d, Line.Says (Line.words line) d := by
  induction text using Text.line_induction with
  | last line h =>
    rw [faults_last_eq_nil_iff h, List.splitOn_eq_singleton h, List.forall_mem_singleton]
  | line line rest h ih =>
    rw [faults_line h, List.append_eq_nil_iff, List.map_eq_nil_iff, splitOn_line h,
      List.forall_mem_cons, ih, faults_last_eq_nil_iff h]

/-- What the lines say is what is read. -/
theorem declared_of_forall₂ {said : List (Option Declaration)}
    (h : (text.splitOn '\n').Forall₂ (fun line d => Line.Says (Line.words line) d) said) :
    faults text = [] ∧ declared text = said.reduceOption := by
  induction text using Text.line_induction generalizing said with
  | last line hline =>
    rw [List.splitOn_eq_singleton hline] at h
    obtain ⟨d, _, hsaid, hnil, rfl⟩ := List.forall₂_cons_left_iff.mp h
    obtain rfl := List.forall₂_nil_left_iff.mp hnil
    refine ⟨(faults_last_eq_nil_iff hline).mpr ⟨d, hsaid⟩, ?_⟩
    rw [declared_of_said hline hsaid]
    cases d <;> rfl
  | line line rest hline ih =>
    rw [splitOn_line hline] at h
    obtain ⟨d, said, hsaid, hrest, rfl⟩ := List.forall₂_cons_left_iff.mp h
    obtain ⟨hgood, hdeclared⟩ := ih hrest
    constructor
    · rw [faults_line hline, (faults_last_eq_nil_iff hline).mpr ⟨d, hsaid⟩, hgood]
      rfl
    · rw [declared_line hline, declared_of_said hline hsaid, hdeclared]
      cases d <;> rfl

/-- Lines of which each says something say something together. -/
theorem exists_forall₂ {α β : Type} {R : α → β → Prop} {l : List α} (h : ∀ a ∈ l, ∃ b, R a b) :
    ∃ l', l.Forall₂ R l' := by
  induction l with
  | nil => exact ⟨[], .nil⟩
  | cons a l ih =>
    obtain ⟨⟨b, hb⟩, hl⟩ := List.forall_mem_cons.mp h
    obtain ⟨l', hl'⟩ := ih hl
    exact ⟨b :: l', .cons hb hl'⟩

/-- A text is a model exactly if each of its lines is blank or declares something, and then it is
what these lines declare, one after the other. -/
theorem parseModel_eq_ok_iff (text : List Char) :
    ((∃ ds, parseModel text = .ok ds) ↔
      ∀ line ∈ text.splitOn '\n', ∃ d, Line.Says (Line.words line) d) ∧
    ∀ ds, parseModel text = .ok ds ↔
      ∃ said, (text.splitOn '\n').Forall₂ (fun line d => Line.Says (Line.words line) d) said ∧
        ds = said.reduceOption := by
  rw [← faults_eq_nil_iff, parseModel_eq]
  constructor
  · by_cases hgood : faults text = [] <;> simp [hgood]
  · intro ds
    constructor
    · intro h
      by_cases hgood : faults text = []
      · rw [if_pos hgood] at h
        cases h
        obtain ⟨said, hsaid⟩ := exists_forall₂ ((faults_eq_nil_iff text).mp hgood)
        exact ⟨said, hsaid, (declared_of_forall₂ hsaid).2⟩
      · rw [if_neg hgood] at h
        cases h
    · rintro ⟨said, hsaid, rfl⟩
      obtain ⟨hgood, hdeclared⟩ := declared_of_forall₂ hsaid
      rw [if_pos hgood, hdeclared]

/-! ## Texts in a row -/

/-- The errors that a text is rejected with. -/
def syntaxErrors (text : List Char) : List SyntaxError :=
  match parseModel text with
  | .error (.malformed errors) => errors
  | _ => []

theorem syntaxErrors_eq_faults (text : List Char) : syntaxErrors text = faults text := by
  rw [syntaxErrors, parseModel_eq]
  by_cases hgood : faults text = [] <;> simp [hgood]

theorem declared_append (a b : List Char) :
    declared (a ++ '\n' :: b) = declared a ++ declared b := by
  induction a using Text.line_induction with
  | last line h => exact declared_line h b
  | line line rest h ih =>
    rw [List.append_assoc, List.cons_append, declared_line h, ih, declared_line h,
      List.append_assoc]

/-- The offset that a reading has behind a line feed. -/
def bytesRead (text : List Char) : Nat := byteSize (text ++ ['\n']) - crlfs (text ++ ['\n'])

/-- A text has at least as many bytes as carriage returns that belong to a line end. -/
theorem crlfs_le_byteSize (text : List Char) : crlfs text ≤ byteSize text := by
  induction text with
  | nil => exact Nat.le_refl 0
  | cons c text ih =>
    have hpos := c.utf8Size_pos
    rw [crlfs, Text.byteSize_cons]
    split <;> omega

theorem bytesRead_last (h : '\n' ∉ line) : bytesRead line = byteSize (dropReturn line) + 1 := by
  have hsize := Text.byteSize_dropReturn_add_crlfs h []
  simp only [crlfs] at hsize
  rw [bytesRead]
  omega

theorem bytesRead_line (h : '\n' ∉ line) (rest : List Char) :
    bytesRead (line ++ '\n' :: rest) = byteSize (dropReturn line) + 1 + bytesRead rest := by
  have hcount := Text.byteSize_dropReturn_add_crlfs h (rest ++ ['\n'])
  have hfits := crlfs_le_byteSize (rest ++ ['\n'])
  have hsize : byteSize (line ++ '\n' :: (rest ++ ['\n'])) =
      byteSize (line ++ ['\n']) + byteSize (rest ++ ['\n']) := by
    rw [← Text.byteSize_append]
    simp
  rw [bytesRead, bytesRead, List.append_assoc, List.cons_append]
  omega

theorem faults_append (a b : List Char) :
    faults (a ++ '\n' :: b) =
      faults a ++ (faults b).map (·.shift (1 + a.count '\n') (bytesRead a)) := by
  induction a using Text.line_induction with
  | last line h => rw [faults_line h, bytesRead_last h, List.count_eq_zero_of_not_mem h]
  | line line rest h ih =>
    rw [List.append_assoc, List.cons_append, faults_line h, ih, faults_line h, bytesRead_line h]
    simp [List.count_eq_zero_of_not_mem h, Function.comp_def, Nat.add_comm]

theorem mem_lines_faults_last (h : '\n' ∉ line) {n : Nat} :
    n ∈ (faults line).map SyntaxError.line ↔ n = 1 ∧ ∀ d, ¬ Line.Says (Line.words line) d := by
  rw [faults_last h]
  simp only [← ofLine?_eq_ok_iff]
  cases Declaration.ofLine? line <;> simp

theorem lines_faults_line (h : '\n' ∉ line) (rest : List Char) :
    (faults (line ++ '\n' :: rest)).map SyntaxError.line =
      (faults line).map SyntaxError.line ++ ((faults rest).map SyntaxError.line).map (1 + ·) := by
  rw [faults_line h, List.map_append, List.map_map, List.map_map]
  rfl

/-- The lines that are faulty, by their numbers. -/
theorem mem_lines_faults_iff (text : List Char) (n : Nat) :
    n ∈ (faults text).map SyntaxError.line ↔
      ∃ i line, (text.splitOn '\n')[i]? = some line ∧ n = i + 1 ∧
        ∀ d, ¬ Line.Says (Line.words line) d := by
  induction text using Text.line_induction generalizing n with
  | last line h =>
    rw [List.splitOn_eq_singleton h, mem_lines_faults_last h]
    constructor
    · rintro ⟨rfl, hbad⟩
      exact ⟨0, line, rfl, rfl, hbad⟩
    · rintro ⟨_ | i, _, hline, rfl, hbad⟩
      · cases hline
        exact ⟨rfl, hbad⟩
      · cases hline
  | line line rest h ih =>
    rw [lines_faults_line h, List.mem_append, mem_lines_faults_last h, List.mem_map, splitOn_line h]
    simp only [ih]
    constructor
    · rintro (⟨rfl, hbad⟩ | ⟨_, ⟨i, other, hother, rfl, hbad⟩, rfl⟩)
      · exact ⟨0, line, rfl, rfl, hbad⟩
      · exact ⟨i + 1, other, hother, Nat.add_comm .., hbad⟩
    · rintro ⟨_ | i, other, hother, rfl, hbad⟩
      · cases hother
        exact .inl ⟨rfl, hbad⟩
      · exact .inr ⟨i + 1, ⟨i, other, hother, rfl, hbad⟩, Nat.add_comm ..⟩

theorem pairwise_lines_faults (text : List Char) :
    ((faults text).map SyntaxError.line).Pairwise (· < ·) := by
  have hsingle : ∀ line, '\n' ∉ line →
      ((faults line).map SyntaxError.line).Pairwise (· < ·) := by
    intro line h
    rw [faults_last h]
    cases Declaration.ofLine? line <;> simp
  induction text using Text.line_induction with
  | last line h => exact hsingle line h
  | line line rest h ih =>
    rw [lines_faults_line h]
    refine List.pairwise_append.mpr ⟨hsingle line h, ?_, ?_⟩
    · exact ih.map _ fun m n hmn => Nat.add_lt_add_left hmn 1
    -- The first line has number 1, and those behind it have larger ones.
    · intro m hm n hn
      obtain ⟨rfl, -⟩ := (mem_lines_faults_last h).mp hm
      obtain ⟨k, hk, rfl⟩ := List.mem_map.mp hn
      obtain ⟨i, -, -, rfl, -⟩ := (mem_lines_faults_iff rest k).mp hk
      omega

/-- Texts are read line by line: what one text declares and what is wrong with it does not depend on
another one before it, apart from the places, and every faulty line has one error. -/
theorem parseModel_line_by_line :
    (∀ a b : List Char, parseModel (a ++ '\n' :: b) =
      match parseModel a, parseModel b with
      | .ok da, .ok db => .ok (da ++ db)
      | _, _ => .error (.malformed (syntaxErrors a ++ (syntaxErrors b).map fun e =>
          e.shift (1 + a.count '\n') (byteSize (a ++ ['\n']) - crlfs (a ++ ['\n']))))) ∧
    ∀ text : List Char,
      ((syntaxErrors text).map SyntaxError.line).Pairwise (· < ·) ∧
      ∀ n, n ∈ (syntaxErrors text).map SyntaxError.line ↔
        ∃ i line, (text.splitOn '\n')[i]? = some line ∧ n = i + 1 ∧
          ∀ d, ¬ Line.Says (Line.words line) d := by
  simp only [syntaxErrors_eq_faults]
  refine ⟨fun a b => ?_, fun text => ⟨pairwise_lines_faults text, mem_lines_faults_iff text⟩⟩
  have hfaults := faults_append a b
  rw [bytesRead] at hfaults
  rw [parseModel_eq, parseModel_eq, parseModel_eq, declared_append, hfaults]
  by_cases ha : faults a = [] <;> by_cases hb : faults b = [] <;> simp [ha, hb]

end Model

end WitnessLift
