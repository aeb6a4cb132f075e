-- SUMMARY: Which traces are lifted, to which text, and the error and partial text of all others.
import WitnessLift.Proofs.Witness.Report

/-!
# Outcomes

Which traces are lifted, and to which text; and which error the others end with, and what has been
written by then. The first line that does not lead on decides both.
-/

namespace WitnessLift

/-! ## Recordings -/

/-- What a trace has to tell, freed of blanks: a frame is a line of latches and a line of inputs. -/
structure Recording where
  header : List Char
  property : List Char
  init : List Char
  frames : List (List Char × List Char)
  deriving DecidableEq, Repr

namespace Recording

/-- The lines of a recording, without the full stop. -/
def lines (r : Recording) : List (List Char) :=
  r.header :: r.property :: r.init :: r.frames.flatMap fun f => [f.1, f.2]

/-- A trace begins with the lines of a recording and a full stop. Anything may follow. -/
def Begins (r : Recording) (trace : Text.Bytes) : Prop :=
  ∃ (full : List (List Char)) (rest : List (Option (List Char))),
    Text.lines? trace = full.map some ++ rest ∧ full.map Text.trim = r.lines ++ [['.']]

/-- The recording of a counterexample with these initial values and these frames. -/
def counterexample (init : List Char) (frames : List (List Char × List Char)) : Recording :=
  ⟨['1'], ['b', '0'], init, frames⟩

/-- The trace that has the lines of a recording and a full stop. -/
def trace (r : Recording) : Text.Bytes := Text.encode (Text.unlines (r.lines ++ [['.']]))

theorem begins_trace {r : Recording} (h : ∀ line ∈ r.lines, Text.IsLine line ∧ Text.trim line = line) :
    r.Begins r.trace := by
  have hlines : ∀ line ∈ r.lines ++ [['.']], Text.IsLine line ∧ Text.trim line = line := by
    intro line hline
    rcases List.mem_append.mp hline with hline | hline
    · exact h line hline
    · rw [List.mem_singleton.mp hline]
      exact ⟨⟨by decide, by decide⟩, by decide⟩
  refine ⟨r.lines ++ [['.']], [], ?_, ?_⟩
  · rw [trace, Text.lines?_encode_unlines fun line hline => (hlines line hline).1, List.append_nil]
  · exact (List.map_congr_left fun line hline => (hlines line hline).2).trans (List.map_id _)

theorem pairs_flatMap (frames : List (List Char × List Char)) :
    pairs (frames.flatMap fun f => [f.1, f.2]) = frames := by
  induction frames with
  | nil => rfl
  | cons f frames ih => exact congrArg (f :: ·) ih

theorem flatMap_pairs {n : Nat} {lines : List (List Char)} (h : lines.length = 2 * n) :
    (pairs lines).length = n ∧ ((pairs lines).flatMap fun f => [f.1, f.2]) = lines := by
  induction n generalizing lines with
  | zero =>
    rw [List.length_eq_zero_iff.mp h]
    exact ⟨rfl, rfl⟩
  | succ n ih =>
    match lines with
    | a :: b :: rest =>
      have hpairs : rest.length = 2 * n := by
        simp only [List.length_cons] at h
        omega
      obtain ⟨hlength, hrest⟩ := ih hpairs
      rw [pairs, List.flatMap_cons, hrest]
      exact ⟨congrArg (· + 1) hlength, rfl⟩
    | [] | [_] => simp only [List.length_nil, List.length_cons] at h; omega

theorem length_lines (r : Recording) : r.lines.length = 2 * r.frames.length + 3 := by
  simp [lines, List.length_flatMap]
  omega

/-- An odd number of lines, at least three, is a recording. -/
theorem exists_lines_eq {n : Nat} {lines : List (List Char)} (h : lines.length = 2 * n + 3) :
    ∃ r : Recording, r.lines = lines ∧ r.frames.length = n := by
  match lines with
  | header :: property :: init :: rest =>
    have hpairs : rest.length = 2 * n := by simpa using h
    obtain ⟨hlength, hrest⟩ := flatMap_pairs hpairs
    exact ⟨⟨header, property, init, pairs rest⟩, by rw [Recording.lines, hrest], hlength⟩
  | [] | [_] | [_, _] => simp at h

end Recording

namespace Layout

/-- A recording of a counterexample, whose lines hold every variable that is read from them. -/
structure Admits (layout : Layout) (r : Recording) : Prop where
  header : r.header = ['1'] ∨ r.header = ['s', 'a', 't']
  init : Bits.Spelled r.init ∧
    ∀ s ∈ layout.latches, s.hasInit = false → s.range.stop ≤ r.init.length
  latches : ∀ f ∈ r.frames, Bits.Spelled f.1 ∧ layout.width .state ≤ f.1.length
  inputs : ∀ f ∈ r.frames, Bits.Spelled f.2 ∧ layout.width .input ≤ f.2.length

/-- The lines of the witness that a recording becomes. -/
def witnessText (layout : Layout) (names : Bool) (r : Recording) : List String :=
  "sat" :: "b0" :: layout.framesText names r.init 0 r.frames ++ ["."]

variable {ds : List Declaration} {layout : Layout}

theorem Of.follows_frames_iff (h : Of ds layout) (k : Nat)
    {frames : List (List Char × List Char)} :
    layout.Follows (2 * k + 4) (frames.flatMap fun f => [f.1, f.2]) ↔
      ∀ f ∈ frames, (Bits.Spelled f.1 ∧ layout.width .state ≤ f.1.length) ∧
        Bits.Spelled f.2 ∧ layout.width .input ≤ f.2.length := by
  induction frames generalizing k with
  | nil => simp
  | cons f frames ih =>
    rw [List.flatMap_cons, List.cons_append, List.cons_append, List.nil_append, follows_cons,
      follows_cons, List.forall_mem_cons, ← ih (k + 1), h.leadsOn_latches k, ← h.leadsOn_inputs k]
    exact and_assoc.symm

/-- The lines of a recording lead on exactly if a layout admits it. -/
theorem Of.follows_lines_iff (h : Of ds layout) {r : Recording} :
    layout.Follows 1 r.lines ↔ layout.Admits r := by
  rw [Recording.lines, follows_cons, follows_cons, follows_cons, leadsOn_header,
    h.follows_frames_iff 0, leadsOn_init]
  constructor
  · rintro ⟨hheader, _, hinit, hframes⟩
    exact ⟨hheader, hinit, fun f hf => (hframes f hf).1, fun f hf => (hframes f hf).2⟩
  · rintro ⟨hheader, hinit, hlatches, hinputs⟩
    exact ⟨hheader, leadsOn_property _, hinit, fun f hf => ⟨hlatches f hf, hinputs f hf⟩⟩

theorem report_lines (layout : Layout) (names : Bool) (r : Recording) :
    layout.report names r.lines = "sat" :: "b0" :: layout.framesText names r.init 0 r.frames := by
  rw [Recording.lines, report, Recording.pairs_flatMap]

/-! ## Results -/

/-- The text of the lines that the end of a run adds. -/
def closingText : Except TraceError (Option Nat) → List String
  | .ok (some _) => ["."]
  | _ => []

@[simp] theorem closingText_error (e : TraceError) : closingText (.error e) = [] := rfl

/-- A trace is lifted up to the first line that does not lead on, with this result and this text. -/
theorem Of.lift_text (h : Of ds layout) (names : Bool) {trace : Text.Bytes}
    {pre : List (List Char)} {rest : List (Option (List Char))}
    (htrace : Text.lines? trace = pre.map some ++ rest)
    (hpre : layout.Follows 1 (pre.map Text.trim))
    (hrest : ∀ full others, rest = some full :: others →
      ¬ layout.LeadsOn (pre.length + 1) (Text.trim full)) :
    (layout.lift trace).result = layout.verdict pre.length rest ∧
      WitnessLine.text names (layout.lift trace).sink.toList =
        Text.ofLines (layout.report names (pre.map Text.trim) ++
          closingText (layout.verdict pre.length rest)) := by
  obtain ⟨hresult, hsink⟩ := h.lift_spec htrace hpre hrest
  have hclosing : ∀ result, (closing result).map (WitnessLine.render names) = closingText result := by
    rintro (_ | _ | _) <;> rfl
  refine ⟨hresult, ?_⟩
  rw [hsink, ← h.render_advance names _ hpre, ← hclosing, ← List.map_append, WitnessLine.text,
    Text.ofLines, List.map_map]
  rfl

/-! ## Traces that are lifted -/

/-- A full stop in the place of a line of latches is in order. -/
theorem fault?_stop (k : Nat) : layout.fault? (2 * k + 4) ['.'] = none := by
  rw [fault?, LineKind.ofNumber_latches]
  rfl

theorem verdict_stop (layout : Layout) (n : Nat) {full : List Char}
    (h : Text.trim full = ['.']) (others : List (Option (List Char))) :
    layout.verdict (2 * n + 3) (some full :: others) = .ok (some n) := by
  have hfault : layout.fault? (2 * n + 3 + 1) (Text.trim full) = none := by
    rw [h]
    exact fault?_stop n
  have hframes : (2 * n + 3 - 3) / 2 = n := by omega
  rw [verdict, failure?, hfault, if_neg (by omega), hframes]
  rfl

/-- Only a full stop in the place of a line of latches ends a run with a number of frames. -/
theorem verdict_eq_frames {i n : Nat} {rest : List (Option (List Char))}
    (hrest : ∀ full others, rest = some full :: others →
      ¬ layout.LeadsOn (i + 1) (Text.trim full))
    (h : layout.verdict i rest = .ok (some n)) :
    i = 2 * n + 3 ∧ ∃ full others, rest = some full :: others ∧ Text.trim full = ['.'] := by
  rw [verdict] at h
  cases hfailure : layout.failure? i rest with
  | some e =>
    rw [hfailure] at h
    cases h
  | none =>
    rw [hfailure, Fault.judge_none, Except.ok.injEq] at h
    rcases rest with _ | ⟨_ | full, others⟩
    · cases hfailure
    · cases hfailure
    -- In order and yet not leading on: the line concludes the trace.
    have hconcludes : concludes (i + 1) (Text.trim full) :=
      Classical.not_not.mp fun hnot => hrest full others rfl ⟨hfailure, hnot⟩
    rcases concludes_iff.mp hconcludes with ⟨hzero, _⟩ | ⟨hthree, hodd, hstop⟩
    · rw [if_pos hzero] at h
      cases h
    · rw [if_neg (by omega), Option.some.injEq] at h
      exact ⟨by omega, full, others, rfl, hstop⟩

theorem Of.lift_recording (h : Of ds layout) (names : Bool) {r : Recording} {trace : Text.Bytes}
    (hadmits : layout.Admits r) (hbegins : r.Begins trace) :
    (layout.lift trace).result = .ok (some r.frames.length) ∧
      WitnessLine.text names (layout.lift trace).sink.toList =
        Text.ofLines (layout.witnessText names r) := by
  obtain ⟨full, rest, htrace, hfull⟩ := hbegins
  obtain ⟨pre, last, rfl, hpre, hlast⟩ := List.map_eq_append_iff.mp hfull
  obtain ⟨stop, rfl, htrim⟩ := List.map_eq_singleton_iff.mp hlast
  have hlength : pre.length = 2 * r.frames.length + 3 := by
    rw [← r.length_lines, ← hpre, List.length_map]
  -- The lines of the recording lead on, and the full stop behind them is the line that does not.
  have hsplit : Text.lines? trace = pre.map some ++ (some stop :: rest) := by
    rw [htrace, List.map_append, List.append_assoc]
    rfl
  have hfollows : layout.Follows 1 (pre.map Text.trim) := hpre ▸ h.follows_lines_iff.mpr hadmits
  have hstop : ¬ layout.LeadsOn (pre.length + 1) (Text.trim stop) := by
    rw [htrim, hlength, h.leadsOn_latches]
    exact fun hleads => not_spelled_stop hleads.1
  obtain ⟨hresult, htext⟩ := h.lift_text names hsplit hfollows (by rintro _ _ ⟨⟩; exact hstop)
  rw [hlength, layout.verdict_stop _ htrim] at hresult htext
  rw [hpre, report_lines] at htext
  exact ⟨hresult, htext⟩

theorem Of.exists_recording (h : Of ds layout) {trace : Text.Bytes} {n : Nat}
    (hok : (layout.lift trace).result = .ok (some n)) :
    ∃ r : Recording, layout.Admits r ∧ r.Begins trace ∧ r.frames.length = n := by
  obtain ⟨pre, rest, htrace, hpre, hrest⟩ := layout.exists_follows 1 (Text.lines? trace)
  rw [Nat.add_comm] at hrest
  have hverdict : layout.verdict pre.length rest = .ok (some n) := by
    rw [← hok, (h.lift_spec htrace hpre hrest).1]
  obtain ⟨hlength, full, others, rfl, hstop⟩ := verdict_eq_frames hrest hverdict
  have hlines : (pre.map Text.trim).length = 2 * n + 3 := by rw [List.length_map, hlength]
  obtain ⟨r, hr, hframes⟩ := Recording.exists_lines_eq hlines
  refine ⟨r, h.follows_lines_iff.mp (hr ▸ hpre), ⟨pre ++ [full], others, ?_, ?_⟩, hframes⟩
  · rw [htrace, List.map_append, List.append_assoc]
    rfl
  · rw [List.map_append, hr, ← hstop]
    rfl

/-- A trace is lifted exactly if it begins with a recording that the layout admits, and the witness
says what the recording says. -/
theorem lift_succeeds_iff (h : build ds = .ok layout) (names : Bool) (trace : Text.Bytes)
    (frames : Nat) (text : String) :
    Listed ds layout ∧
      ((layout.lift trace).result = .ok (some frames) ∧
          WitnessLine.text names (layout.lift trace).sink.toList = text ↔
        ∃ r : Recording, layout.Admits r ∧ r.Begins trace ∧ r.frames.length = frames ∧
          text = Text.ofLines (layout.witnessText names r)) := by
  have hof := Of.of_build h
  refine ⟨hof.listed, ?_, ?_⟩
  · rintro ⟨hresult, rfl⟩
    obtain ⟨r, hadmits, hbegins, hframes⟩ := hof.exists_recording hresult
    exact ⟨r, hadmits, hbegins, hframes, (hof.lift_recording names hadmits hbegins).2⟩
  · rintro ⟨r, hadmits, hbegins, rfl, rfl⟩
    exact hof.lift_recording names hadmits hbegins

/-- A trace of the mixed model, with something behind the full stop. -/
def mixedTrace : Text.Bytes := Text.encode "sat\nb0\nxx101\n11010 \n0011x001\n.\nrest".toList

/-- What the trace of the mixed model has to tell. -/
def mixedRecording : Recording :=
  ⟨"sat".toList, "b0".toList, "xx101".toList, [("11010".toList, "0011x001".toList)]⟩

theorem latches_mixed :
    mixed.latches =
      [⟨5, 2, .state, ⟨2, 5⟩, false, true, none⟩,
        ⟨9, 0, .state, ⟨0, 2⟩, true, true, some "c"⟩] := by
  simp [latches, mixed, StateVar.isPseudoInput, List.mergeSort, List.MergeSort.Internal.splitInTwo]

theorem admits_mixed : mixed.Admits mixedRecording where
  header := .inr rfl
  init := ⟨by decide, by rw [latches_mixed]; decide⟩
  latches := by decide
  inputs := by decide

theorem begins_mixed : mixedRecording.Begins mixedTrace :=
  ⟨["sat", "b0", "xx101", "11010 ", "0011x001", "."].map String.toList, [some "rest".toList],
    by decide, by decide⟩

theorem witnessText_mixed :
    "sat\nb0\n#0\n2 101\n0 11 c#0\n@0\n0 00 a@0\n1 110\n1 001 free@0\n.\n" =
      Text.ofLines (mixed.witnessText true mixedRecording) := by
  simp only [witnessText, framesText, frameText, stateRecords, latches_mixed, mixedRecording,
    List.zipIdx_cons, List.flatMap_cons]
  decide

theorem lift_succeeds_iff_mixed :
    build Model.mixed = .ok mixed ∧ (mixed.lift mixedTrace).result = .ok (some 1) ∧
      WitnessLine.text true (mixed.lift mixedTrace).sink.toList =
        "sat\nb0\n#0\n2 101\n0 11 c#0\n@0\n0 00 a@0\n1 110\n1 001 free@0\n.\n" := by
  refine ⟨build_mixed, ?_⟩
  apply (lift_succeeds_iff build_mixed true mixedTrace 1 _).2.mpr
  exact ⟨mixedRecording, admits_mixed, begins_mixed, rfl, witnessText_mixed⟩

/-! ## Traces that are refused -/

/-- A trace is refused exactly if something is wrong behind some lines that lead on, and what is
written by then is what these lines say. -/
theorem lift_fails_iff (h : build ds = .ok layout) (names : Bool) (trace : Text.Bytes)
    (e : TraceError) (text : String) :
    Listed ds layout ∧
      ((layout.lift trace).result = .error e ∧
          WitnessLine.text names (layout.lift trace).sink.toList = text ↔
        ∃ (pre : List (List Char)) (rest : List (Option (List Char))),
          Text.lines? trace = pre.map some ++ rest ∧ layout.Follows 1 (pre.map Text.trim) ∧
            layout.failure? pre.length rest = some e ∧
            text = Text.ofLines (layout.report names (pre.map Text.trim))) := by
  have hof := Of.of_build h
  refine ⟨hof.listed, ?_, ?_⟩
  · rintro ⟨hresult, rfl⟩
    obtain ⟨pre, rest, htrace, hpre, hrest⟩ := layout.exists_follows 1 (Text.lines? trace)
    rw [Nat.add_comm] at hrest
    obtain ⟨hverdict, htext⟩ := hof.lift_text names htrace hpre hrest
    rw [hresult] at hverdict
    rw [← hverdict, closingText_error, List.append_nil] at htext
    exact ⟨pre, rest, htrace, hpre, Fault.judge_eq_error_iff.mp hverdict.symm, htext⟩
  · rintro ⟨pre, rest, htrace, hpre, hfailure, rfl⟩
    have hverdict : layout.verdict pre.length rest = .error e :=
      Fault.judge_eq_error_iff.mpr hfailure
    have hspec := hof.lift_text names htrace hpre ?_
    · rw [hverdict, closingText_error, List.append_nil] at hspec
      exact hspec
    · rintro full others rfl hleads
      rw [failure?, hleads.1] at hfailure
      cases hfailure

/-- The lines of a trace of the mixed model that lead on. The line behind them is too short for the
second input. -/
def mixedStart : List (List Char) := ["1", "", "00000", "11010"].map String.toList

theorem follows_mixedStart : mixed.Follows 1 (mixedStart.map Text.trim) := by
  have hof := Of.of_build build_mixed
  refine follows_cons.mpr ⟨leadsOn_header.mpr (.inl rfl), ?_⟩
  refine follows_cons.mpr ⟨leadsOn_property _, ?_⟩
  refine follows_cons.mpr ⟨leadsOn_init.mpr ⟨by decide, by rw [latches_mixed]; decide⟩, ?_⟩
  exact follows_cons.mpr ⟨(hof.leadsOn_latches 0).mpr ⟨by decide, by decide⟩, follows_nil⟩

/-- The trace that begins with these lines. -/
def mixedShort : Text.Bytes := Text.encode "1\n\n00000\n11010\n0011\n.".toList

theorem lift_fails_iff_mixed :
    build Model.mixed = .ok mixed ∧
      (mixed.lift mixedShort).result = .error (.lineTooShort 5 7 ⟨2, 5⟩ 4) ∧
      WitnessLine.text false (mixed.lift mixedShort).sink.toList = "sat\nb0\n" := by
  refine ⟨build_mixed, ?_⟩
  apply (lift_fails_iff build_mixed false mixedShort (.lineTooShort 5 7 ⟨2, 5⟩ 4) _).2.mpr
  exact ⟨mixedStart, [some "0011".toList, some ['.']], by decide, follows_mixedStart, by decide,
    by decide⟩

end Layout

end WitnessLift
