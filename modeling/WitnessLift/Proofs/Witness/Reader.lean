-- SUMMARY: A reader of witnesses, and what it recovers of each section.
import WitnessLift.Proofs.Layout.Filling
import WitnessLift.Proofs.Lift.Outcome

/-!
# Reading a witness

A reader who knows the layout takes the records of a section by their position and puts the values
back at the ranges of their variables. It finds the lines that the trace had, with `0` for `x`, and
the line of initial values in the first frame.
-/

namespace WitnessLift

/-! ## The reader -/

/-- The value on a record: what follows its first space. -/
def recordValue (record : List Char) : List Char := (record.dropWhile (· != ' ')).drop 1

/-- The line that a section tells, and what follows the section. A section has a heading and one
record for each range. -/
def readSection? (heading : String) (rs : List BitRange) (width : Nat) :
    List (List Char) → Option (List Char × List (List Char))
  | [] => none
  | first :: rest =>
    if first = heading.toList ∧ rs.length ≤ rest.length then
      (BitRange.fill? width (rs.zip ((rest.take rs.length).map recordValue))).map
        (·, rest.drop rs.length)
    else none

theorem length_lt_of_readSection? {heading : String} {rs : List BitRange} {width : Nat}
    {lines rest : List (List Char)} {line : List Char}
    (h : readSection? heading rs width lines = some (line, rest)) : rest.length < lines.length := by
  cases lines with
  | nil => cases h
  | cons first lines =>
    rw [readSection?] at h
    split at h
    · obtain ⟨_, _, heq⟩ := Option.map_eq_some_iff.mp h
      cases heq
      simp only [List.length_drop, List.length_cons]
      omega
    · cases h

namespace Layout

/-- The line of latches and the line of inputs that frame `k` tells, and what follows the frame. -/
def readFrame? (layout : Layout) (k : Nat) (lines : List (List Char)) :
    Option ((List Char × List Char) × List (List Char)) :=
  (readSection? ("#" ++ toString k) (layout.latches.map (·.range)) (layout.width .state) lines).bind
    fun states =>
      (readSection? ("@" ++ toString k)
        (layout.inputs.map (·.range) ++ layout.pseudoInputs.map (·.range)) (layout.width .input)
        states.2).map fun inputs => ((states.1, inputs.1), inputs.2)

theorem length_lt_of_readFrame? {layout : Layout} {k : Nat} {lines : List (List Char)}
    {frame : (List Char × List Char) × List (List Char)} (h : layout.readFrame? k lines = some frame) :
    frame.2.length < lines.length := by
  obtain ⟨states, hstates, hrest⟩ := Option.bind_eq_some_iff.mp h
  obtain ⟨inputs, hinputs, rfl⟩ := Option.map_eq_some_iff.mp hrest
  exact (length_lt_of_readSection? hinputs).trans (length_lt_of_readSection? hstates)

/-- The lines of all frames from number `k` on, up to the full stop. -/
def readFrames? (layout : Layout) (k : Nat) (lines : List (List Char)) :
    Option (List (List Char × List Char)) :=
  if lines = [['.']] then some []
  else
    match h : layout.readFrame? k lines with
    | none => none
    | some frame => (readFrames? layout (k + 1) frame.2).map (frame.1 :: ·)
termination_by lines.length
decreasing_by exact length_lt_of_readFrame? h

/-- The lines of all frames that a witness tells. -/
def read? (layout : Layout) (text : String) : Option (List (List Char × List Char)) :=
  match Text.lines text.toList with
  | status :: property :: lines =>
    if status = ['s', 'a', 't'] ∧ property = ['b', '0'] then layout.readFrames? 0 lines else none
  | _ => none

/-- The line of latches as it is to be found: in the first frame the initial values are those of the
line that supplies them. -/
def stateLine (layout : Layout) (init : List Char) (k : Nat) (latches : List Char) : List Char :=
  if k = 0 then
    BitRange.overlay
      ((layout.states.filter fun s => layout.needsDedicatedInit s.id).map (·.range)) init latches
  else latches

end Layout

/-! ## Records -/

theorem BitRange.length_valueIn {r : BitRange} {line : List Char} (h : r.stop ≤ line.length) :
    (r.valueIn line).length = r.width := by
  simp [valueIn, BitRange.width]
  omega

theorem BitRange.getElem?_valueIn {r : BitRange} {s : List Char} {p : Nat} (h : r.Covers p) :
    (r.valueIn s)[p - r.start]? = s[p]?.map Bits.plain := by
  have hlt : p - r.start < r.width := by
    have := h.1
    have := h.2
    unfold BitRange.width
    omega
  rw [valueIn, List.getElem?_map, List.getElem?_take_of_lt hlt, List.getElem?_drop,
    Nat.add_sub_cancel' h.1]

theorem isDigit_of_mem_toString {n : Nat} {c : Char} (h : c ∈ (toString n).toList) :
    c.isDigit = true := by
  rw [Nat.toString_eq_ofList_toDigits, String.toList_ofList] at h
  exact Nat.isDigit_of_mem_toDigits (by omega) (by omega) h

/-- A record without its name. -/
theorem Layout.record_false (mark : String) (index : Nat) (name : Option String)
    (value : List Char) :
    record false mark index name value = toString index ++ " " ++ String.ofList value := by
  cases name <;> simp [record]

theorem recordValue_record (mark : String) (index : Nat) (name : Option String)
    (value : List Char) : recordValue (Layout.record false mark index name value).toList = value := by
  have hindex : ∀ c ∈ (toString index).toList, (c != ' ') = true := by
    intro c hc
    have := isDigit_of_mem_toString hc
    apply bne_iff_ne.mpr
    rintro rfl
    cases this
  rw [Layout.record_false, recordValue]
  simp only [String.toList_append, String.toList_ofList, List.append_assoc]
  rw [List.dropWhile_append_of_pos hindex]
  rfl

/-! ## Sections and frames -/

theorem readSection?_eq_some (heading : String) {rs : List BitRange} {width : Nat}
    {records : List String} {line : List Char} (hlength : records.length = rs.length)
    (hfill : BitRange.fill? width (rs.zip (records.map fun r => recordValue r.toList)) = some line)
    (rest : List (List Char)) :
    readSection? heading rs width (heading.toList :: (records.map String.toList ++ rest)) =
      some (line, rest) := by
  have hrecords : (records.map String.toList).length = rs.length := by
    rw [List.length_map, hlength]
  rw [readSection?, if_pos ⟨rfl, by simp [hlength]⟩, ← hrecords, List.take_left, List.drop_left,
    List.map_map]
  exact congrArg (Option.map _) hfill

namespace Layout

variable {ds : List Declaration} {layout : Layout}

theorem length_stateLine (layout : Layout) (init : List Char) (k : Nat) (latches : List Char) :
    (layout.stateLine init k latches).length = latches.length := by
  unfold stateLine
  split
  · simp [BitRange.overlay]
  · rfl

/-- Two latches that share a position are the same one. -/
theorem Of.latch_unique (h : Of ds layout) {s t : StateVar} {p : Nat} (hs : s ∈ layout.latches)
    (ht : t ∈ layout.latches) (hsp : s.range.Covers p) (htp : t.range.Covers p)
    (hp : p < layout.width .state) : s = t := by
  obtain ⟨v, _, _, hfilter⟩ := (h.tiles .state).filter_covers_perm layout.latches_ranges_perm hp
  have hmem : ∀ {w : StateVar}, w ∈ layout.latches → w.range.Covers p → w = v := by
    intro w hw hwp
    have : w ∈ layout.latches.filter fun w => w.range.Covers p :=
      List.mem_filter.mpr ⟨hw, decide_eq_true hwp⟩
    rw [hfilter] at this
    exact List.mem_singleton.mp this
  rw [hmem hs hsp, hmem ht htp]

/-- At the positions of a latch, the line that is to be found is the one its value comes from. -/
theorem Of.getElem?_stateLine (h : Of ds layout) {init latches : List Char} {k p : Nat}
    (hinit : init.length = layout.width .state) (hlatches : latches.length = layout.width .state)
    {s : StateVar} (hs : s ∈ layout.latches) (hp : s.range.Covers p) :
    (layout.stateLine init k latches)[p]? = (source init k latches s)[p]? := by
  have hlt : p < layout.width .state := hp.2.trans_le (h.latch_bounds hs).2
  have hstate : s ∈ layout.states := (mem_latches.mp hs).1
  unfold stateLine source
  by_cases hk : k = 0
  · rw [if_pos hk, BitRange.overlay, List.getElem?_mapIdx,
      List.getElem?_eq_getElem (hlatches ▸ hlt), Option.map_some]
    cases hinit' : s.hasInit with
    | false =>
      have hneeds := (h.needsDedicatedInit_iff hstate).mpr ⟨hs, hinit'⟩
      have hcovered : ∃ r ∈ (layout.states.filter fun s => layout.needsDedicatedInit s.id).map
          (·.range), r.Covers p :=
        ⟨s.range, List.mem_map.mpr ⟨s, List.mem_filter.mpr ⟨hstate, hneeds⟩, rfl⟩, hp⟩
      rw [if_pos hcovered, if_pos ⟨hk, rfl⟩, List.getD_eq_getElem?_getD,
        List.getElem?_eq_getElem (hinit ▸ hlt)]
      rfl
    | true =>
      -- A dedicated range that covers the position would be that of another latch.
      have hfree : ¬ ∃ r ∈ (layout.states.filter fun s => layout.needsDedicatedInit s.id).map
          (·.range), r.Covers p := by
        rintro ⟨_, hr, htp⟩
        obtain ⟨t, ht, rfl⟩ := List.mem_map.mp hr
        obtain ⟨htstate, hneeds⟩ := List.mem_filter.mp ht
        obtain ⟨htlatch, htinit⟩ := (h.needsDedicatedInit_iff htstate).mp hneeds
        rw [h.latch_unique hs htlatch hp htp hlt, htinit] at hinit'
        cases hinit'
      rw [if_neg hfree, if_neg fun hc => Bool.noConfusion hc.2,
        List.getElem?_eq_getElem (hlatches ▸ hlt)]
  · rw [if_neg hk, if_neg fun hc => hk hc.1]

/-- The values of the latches fill the line of latches. -/
theorem Of.fill?_latches (h : Of ds layout) {init latches : List Char} (k : Nat)
    (hinit : init.length = layout.width .state)
    (hlatches : latches.length = layout.width .state) :
    BitRange.fill? (layout.width .state) ((layout.latches.map (·.range)).zip
        (layout.latches.map fun s => s.range.valueIn (source init k latches s))) =
      some ((layout.stateLine init k latches).map Bits.plain) := by
  have hwidth : ((layout.stateLine init k latches).map Bits.plain).length = layout.width .state := by
    rw [List.length_map, length_stateLine, hlatches]
  have htiles := h.tiles .state
  rw [← hwidth] at htiles ⊢
  rw [List.zip_map']
  refine BitRange.fill?_eq_some StateVar.range htiles layout.latches_ranges_perm (fun s hs => ?_)
    fun s hs p hp => ?_
  · have hsource : (source init k latches s).length = layout.width .state :=
      source_of (P := fun line => line.length = layout.width .state) hinit hlatches k s
    exact BitRange.length_valueIn (hsource ▸ (h.latch_bounds hs).2)
  · rw [BitRange.getElem?_valueIn hp, List.getElem?_map, h.getElem?_stateLine hinit hlatches hs hp]

/-- The values of the inputs fill the line of inputs. -/
theorem Of.fill?_inputs (h : Of ds layout) {inputs : List Char}
    (hinputs : inputs.length = layout.width .input) :
    BitRange.fill? (layout.width .input)
        ((layout.ranges .input).zip ((layout.ranges .input).map (·.valueIn inputs))) =
      some (inputs.map Bits.plain) := by
  have hwidth : (inputs.map Bits.plain).length = layout.width .input := by
    rw [List.length_map, hinputs]
  have htiles := h.tiles .input
  have hbounds : ∀ r ∈ layout.ranges .input, r.stop ≤ inputs.length := fun r hr =>
    hinputs ▸ (htiles.mem_bounds hr).2.2
  have hzip := List.zip_map' (f := id) (g := (·.valueIn inputs)) (l := layout.ranges .input)
  rw [List.map_id] at hzip
  rw [← hwidth] at htiles ⊢
  rw [hzip]
  refine BitRange.fill?_eq_some id htiles (by rw [List.map_id])
    (fun r hr => BitRange.length_valueIn (hbounds r hr)) fun r _ p hp => ?_
  rw [List.getElem?_map]
  exact BitRange.getElem?_valueIn hp

/-- A frame of a witness is read back. -/
theorem Of.readFrame?_frameText (h : Of ds layout) {init latches inputs : List Char} (k : Nat)
    (hinit : init.length = layout.width .state) (hlatches : latches.length = layout.width .state)
    (hinputs : inputs.length = layout.width .input) (rest : List (List Char)) :
    layout.readFrame? k ((layout.frameText false init k latches inputs).map String.toList ++ rest) =
      some (((layout.stateLine init k latches).map Bits.plain, inputs.map Bits.plain), rest) := by
  have hstates : (layout.stateRecords false init k latches).map (fun r => recordValue r.toList) =
      layout.latches.map fun s => s.range.valueIn (source init k latches s) := by
    simp only [stateRecords, List.map_map, Function.comp_def, recordValue_record]
  have hgenuine : (layout.inputRecords false k inputs).map (fun r => recordValue r.toList) =
      (layout.ranges .input).map (·.valueIn inputs) := by
    rw [ranges_eq_map_placed]
    simp only [inputRecords, placed, List.map_append, List.map_map, Function.comp_def,
      recordValue_record]
  have hlength : (layout.stateRecords false init k latches).length =
      (layout.latches.map (·.range)).length := by
    simp [stateRecords]
  have hlength' : (layout.inputRecords false k inputs).length = (layout.ranges .input).length := by
    rw [← List.length_map (f := fun r => recordValue r.toList), hgenuine, List.length_map]
  have hread := readSection?_eq_some ("#" ++ toString k) hlength
    (hstates ▸ h.fill?_latches k hinit hlatches)
    (("@" ++ toString k).toList :: ((layout.inputRecords false k inputs).map String.toList ++ rest))
  have hread' := readSection?_eq_some ("@" ++ toString k) hlength'
    (hgenuine ▸ h.fill?_inputs hinputs) rest
  -- The second section is what the reader finds behind the first one.
  have htext : (layout.frameText false init k latches inputs).map String.toList ++ rest =
      ("#" ++ toString k).toList :: ((layout.stateRecords false init k latches).map String.toList ++
        ("@" ++ toString k).toList ::
          ((layout.inputRecords false k inputs).map String.toList ++ rest)) := by
    simp only [frameText, List.map_append, List.map_cons, List.append_assoc, List.cons_append]
  rw [htext, readFrame?, hread, Option.bind_some]
  exact congrArg (Option.map _) hread'

/-- A full stop begins no frame. -/
theorem readFrame?_stop (k : Nat) : layout.readFrame? k [['.']] = none := by
  have hne : ¬ (['.'] = ("#" ++ toString k).toList ∧
      (layout.latches.map (·.range)).length ≤ ([] : List (List Char)).length) := by
    rintro ⟨heq, _⟩
    rw [String.toList_append] at heq
    cases heq
  rw [readFrame?, readSection?, if_neg hne]
  rfl

theorem readFrames?_of_readFrame? {k : Nat} {lines : List (List Char)}
    {frame : (List Char × List Char) × List (List Char)}
    (h : layout.readFrame? k lines = some frame) :
    layout.readFrames? k lines = (layout.readFrames? (k + 1) frame.2).map (frame.1 :: ·) := by
  have hne : lines ≠ [['.']] := by
    rintro rfl
    rw [readFrame?_stop] at h
    cases h
  rw [readFrames?, if_neg hne]
  split
  · next hnone =>
    rw [h] at hnone
    cases hnone
  · next hsome =>
    rw [h] at hsome
    cases hsome
    rfl

/-- The frames of a witness are read back, in order. -/
theorem Of.readFrames?_framesText (h : Of ds layout) {init : List Char}
    {frames : List (List Char × List Char)} (k : Nat) (hinit : init.length = layout.width .state)
    (hlatches : ∀ f ∈ frames, f.1.length = layout.width .state)
    (hinputs : ∀ f ∈ frames, f.2.length = layout.width .input) :
    layout.readFrames? k ((layout.framesText false init k frames ++ ["."]).map String.toList) =
      some ((frames.zipIdx k).map fun f =>
        ((layout.stateLine init f.2 f.1.1).map Bits.plain, f.1.2.map Bits.plain)) := by
  induction frames generalizing k with
  | nil => rw [readFrames?]; rfl
  | cons f frames ih =>
    obtain ⟨hlatch, hlatches⟩ := List.forall_mem_cons.mp hlatches
    obtain ⟨hinput, hinputs⟩ := List.forall_mem_cons.mp hinputs
    have htext : (layout.framesText false init k (f :: frames) ++ ["."]).map String.toList =
        (layout.frameText false init k f.1 f.2).map String.toList ++
          (layout.framesText false init (k + 1) frames ++ ["."]).map String.toList := by
      rw [framesText, List.zipIdx_cons, List.flatMap_cons, List.append_assoc, List.map_append]
      rfl
    have hread := h.readFrame?_frameText k hinit hlatch hinput
      ((layout.framesText false init (k + 1) frames ++ ["."]).map String.toList)
    rw [htext, readFrames?_of_readFrame? hread, ih (k + 1) hlatches hinputs, List.zipIdx_cons]
    rfl

end Layout

end WitnessLift
