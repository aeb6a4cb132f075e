-- SUMMARY: The lines of a trace are recovered from its witness.
import WitnessLift.Proofs.Witness.Reader

/-!
# No bit is lost

The witness of a recording, read back with the layout, tells the lines of the recording.
-/

namespace WitnessLift

/-! ## Lines of a trace and of a witness -/

theorem Bits.Spelled.isLine {line : List Char} (h : Spelled line) :
    Text.IsLine line ∧ Text.trim line = line := by
  refine ⟨Text.isLine_of_forall fun c hc => ?_, Text.trim_eq_self fun c hc => ?_⟩
  · rcases h c hc with rfl | rfl | rfl <;> decide
  · rcases h c hc with rfl | rfl | rfl <;> rfl

theorem Bits.Spelled.mem_valueIn {r : BitRange} {line : List Char} (h : Spelled line) {c : Char}
    (hc : c ∈ r.valueIn line) : c = '0' ∨ c = '1' := by
  obtain ⟨d, hd, rfl⟩ := List.mem_map.mp hc
  rcases h d (List.mem_of_mem_drop (List.mem_of_mem_take hd)) with rfl | rfl | rfl
  · exact .inl rfl
  · exact .inr rfl
  · exact .inl rfl

theorem ne_of_mem_toString {n : Nat} {c : Char} (h : c ∈ (toString n).toList) :
    c ≠ '\n' ∧ c ≠ '\r' := by
  have hdigit := isDigit_of_mem_toString h
  constructor <;> rintro rfl <;> cases hdigit

theorem isLine_heading {mark : String} (h : '\n' ∉ mark.toList ∧ '\r' ∉ mark.toList) (k : Nat) :
    Text.IsLine (mark ++ toString k).toList := by
  apply Text.isLine_of_forall
  intro c hc
  rw [String.toList_append, List.mem_append] at hc
  rcases hc with hc | hc
  · exact ⟨fun heq => h.1 (heq ▸ hc), fun heq => h.2 (heq ▸ hc)⟩
  · exact ne_of_mem_toString hc

namespace Layout

theorem isLine_record (mark : String) (index : Nat) (name : Option String) {r : BitRange}
    {line : List Char} (h : Bits.Spelled line) :
    Text.IsLine (record false mark index name (r.valueIn line)).toList := by
  apply Text.isLine_of_forall
  intro c hc
  rw [record_false] at hc
  simp only [String.toList_append, String.toList_ofList, List.mem_append] at hc
  rcases hc with (hc | hc) | hc
  · exact ne_of_mem_toString hc
  · rw [List.mem_singleton.mp hc]
    decide
  · rcases h.mem_valueIn hc with rfl | rfl <;> decide

variable {ds : List Declaration} {layout : Layout}

theorem isLine_frameText {init latches inputs : List Char} {k : Nat} (hinit : Bits.Spelled init)
    (hlatches : Bits.Spelled latches) (hinputs : Bits.Spelled inputs) :
    ∀ line ∈ layout.frameText false init k latches inputs, Text.IsLine line.toList := by
  intro line hline
  rw [frameText, List.cons_append, List.mem_cons, List.mem_append, List.mem_cons, inputRecords,
    List.mem_append] at hline
  rcases hline with rfl | hline | rfl | hline | hline
  · exact isLine_heading (by decide) k
  · obtain ⟨s, _, rfl⟩ := List.mem_map.mp hline
    exact isLine_record _ _ _ (source_of hinit hlatches k s)
  · exact isLine_heading (by decide) k
  · obtain ⟨v, _, rfl⟩ := List.mem_map.mp hline
    exact isLine_record _ _ _ hinputs
  · obtain ⟨s, _, rfl⟩ := List.mem_map.mp hline
    exact isLine_record _ _ _ hinputs

theorem isLine_witnessText {r : Recording} (hinit : Bits.Spelled r.init)
    (hlatches : ∀ f ∈ r.frames, Bits.Spelled f.1) (hinputs : ∀ f ∈ r.frames, Bits.Spelled f.2) :
    ∀ line ∈ layout.witnessText false r, Text.IsLine line.toList := by
  intro line hline
  rw [witnessText, List.cons_append, List.cons_append, List.mem_cons, List.mem_cons,
    List.mem_append, List.mem_singleton, framesText, List.mem_flatMap] at hline
  rcases hline with rfl | rfl | ⟨f, hf, hline⟩ | rfl
  · exact ⟨by decide, by decide⟩
  · exact ⟨by decide, by decide⟩
  · have hmem : f.1 ∈ r.frames := List.fst_mem_of_mem_zipIdx hf
    exact isLine_frameText hinit (hlatches _ hmem) (hinputs _ hmem) line hline
  · exact ⟨by decide, by decide⟩

/-! ## Lifting and reading -/

/-- A witness is read back to what the recording says. -/
theorem Of.read?_witnessText (h : Of ds layout) {r : Recording}
    (hinit : Bits.Spelled r.init ∧ r.init.length = layout.width .state)
    (hlatches : ∀ f ∈ r.frames, Bits.Spelled f.1 ∧ f.1.length = layout.width .state)
    (hinputs : ∀ f ∈ r.frames, Bits.Spelled f.2 ∧ f.2.length = layout.width .input) :
    layout.read? (Text.ofLines (layout.witnessText false r)) =
      some (r.frames.zipIdx.map fun f =>
        ((layout.stateLine r.init f.2 f.1.1).map Bits.plain, f.1.2.map Bits.plain)) := by
  -- No line of the witness contains the end of a line, so it splits into the lines it is made of.
  have hlines : Text.lines (Text.ofLines (layout.witnessText false r)).toList =
      (layout.witnessText false r).map String.toList := by
    rw [Text.toList_ofLines]
    apply Text.lines_unlines
    rw [List.forall_mem_map]
    exact isLine_witnessText hinit.1 (fun f hf => (hlatches f hf).1) fun f hf => (hinputs f hf).1
  have hframes := h.readFrames?_framesText 0 hinit.2 (fun f hf => (hlatches f hf).2)
    fun f hf => (hinputs f hf).2
  rw [read?, hlines]
  exact hframes

/-- Lifting the trace of a counterexample succeeds, and a reader of the witness finds each line
again, with the line of initial values in the first frame. -/
theorem read?_lift (h : build ds = .ok layout) {init : List Char}
    {frames : List (List Char × List Char)}
    (hinit : Bits.Spelled init ∧ init.length = layout.width .state)
    (hlatches : ∀ f ∈ frames, Bits.Spelled f.1 ∧ f.1.length = layout.width .state)
    (hinputs : ∀ f ∈ frames, Bits.Spelled f.2 ∧ f.2.length = layout.width .input) :
    (layout.lift (Recording.counterexample init frames).trace).result = .ok (some frames.length) ∧
      layout.read? (WitnessLine.text false
          (layout.lift (Recording.counterexample init frames).trace).sink.toList) =
        some (frames.zipIdx.map fun f =>
          ((layout.stateLine init f.2 f.1.1).map Bits.plain, f.1.2.map Bits.plain)) := by
  have hof := Of.of_build h
  have hadmits : layout.Admits (Recording.counterexample init frames) := {
    header := .inl rfl
    init := ⟨hinit.1, fun s hs _ => hinit.2.symm ▸ (hof.latch_bounds hs).2⟩
    latches := fun f hf => ⟨(hlatches f hf).1, (hlatches f hf).2.ge⟩
    inputs := fun f hf => ⟨(hinputs f hf).1, (hinputs f hf).2.ge⟩ }
  have hbegins : (Recording.counterexample init frames).Begins
      (Recording.counterexample init frames).trace := by
    have hlines : (Recording.counterexample init frames).lines =
        ['1'] :: ['b', '0'] :: init :: frames.flatMap fun f => [f.1, f.2] := rfl
    apply Recording.begins_trace
    intro line hline
    rw [hlines, List.mem_cons, List.mem_cons, List.mem_cons, List.mem_flatMap] at hline
    rcases hline with rfl | rfl | rfl | ⟨f, hf, hline⟩
    · exact ⟨⟨by decide, by decide⟩, by decide⟩
    · exact ⟨⟨by decide, by decide⟩, by decide⟩
    · exact hinit.1.isLine
    · rcases List.mem_pair.mp hline with rfl | rfl
      · exact (hlatches f hf).1.isLine
      · exact (hinputs f hf).1.isLine
  obtain ⟨hresult, htext⟩ := hof.lift_recording false hadmits hbegins
  refine ⟨hresult, ?_⟩
  rw [htext]
  exact hof.read?_witnessText hinit hlatches hinputs

/-- Two frames of the mixed model. -/
def mixedFrames : List (List Char × List Char) :=
  [("11010".toList, "0011x001".toList), ("x1010".toList, "10110110".toList)]

theorem read?_lift_mixed :
    build Model.mixed = .ok mixed ∧
      (Bits.Spelled "xx101".toList ∧ "xx101".toList.length = mixed.width .state) ∧
      (∀ f ∈ mixedFrames, Bits.Spelled f.1 ∧ f.1.length = mixed.width .state) ∧
      (∀ f ∈ mixedFrames, Bits.Spelled f.2 ∧ f.2.length = mixed.width .input) ∧
      (mixed.lift (Recording.counterexample "xx101".toList mixedFrames).trace).result =
        .ok (some 2) ∧
      mixed.read? (WitnessLine.text false
          (mixed.lift (Recording.counterexample "xx101".toList mixedFrames).trace).sink.toList) =
        some [("11101".toList, "00110001".toList), ("01010".toList, "10110110".toList)] := by
  have hinit : Bits.Spelled "xx101".toList ∧ "xx101".toList.length = mixed.width .state := by
    decide
  have hlatches : ∀ f ∈ mixedFrames, Bits.Spelled f.1 ∧ f.1.length = mixed.width .state := by
    decide
  have hinputs : ∀ f ∈ mixedFrames, Bits.Spelled f.2 ∧ f.2.length = mixed.width .input := by
    decide
  exact ⟨build_mixed, hinit, hlatches, hinputs, read?_lift build_mixed hinit hlatches hinputs⟩

end Layout

end WitnessLift
