-- SUMMARY: The text of a witness as a function of the lines of its trace.
import WitnessLift.Proofs.Lift.Run
import WitnessLift.Proofs.Text.Lines

/-!
# The text of a witness

What the text of a witness says about the lines of a trace: every value is cut out of a line at the
range of its variable, with `0` for `x`. Only the first frame looks at the line of initial values.
-/

namespace WitnessLift

/-! ## Texts -/

/-- The value at a range of a line, as a witness has it. -/
def BitRange.valueIn (r : BitRange) (line : List Char) : List Char :=
  ((line.drop r.start).take r.width).map Bits.plain

/-- The elements of a list two by two. The last one is left out if it has no partner. -/
def pairs {α : Type} : List α → List (α × α)
  | a :: b :: rest => (a, b) :: pairs rest
  | _ => []

namespace Layout

/-- A record: the index of a variable, its value, and on request its name with the mark of the
section. -/
def record (names : Bool) (mark : String) (index : Nat) (name : Option String)
    (value : List Char) : String :=
  toString index ++ " " ++ String.ofList value ++
    match name with
    | some name => if names then " " ++ name ++ mark else ""
    | none => ""

/-- The line that the value of a latch is taken from. -/
def source (init : List Char) (k : Nat) (latches : List Char) (s : StateVar) : List Char :=
  if k = 0 ∧ s.hasInit = false then init else latches

/-- The records of the latches in frame `k`. -/
def stateRecords (layout : Layout) (names : Bool) (init : List Char) (k : Nat)
    (latches : List Char) : List String :=
  layout.latches.map fun s =>
    record names ("#" ++ toString k) s.index s.name (s.range.valueIn (source init k latches s))

/-- The records of the inputs in frame `k`, and behind them those of the states without an update. -/
def inputRecords (layout : Layout) (names : Bool) (k : Nat) (inputs : List Char) : List String :=
  (layout.inputs.map fun v =>
    record names ("@" ++ toString k) v.index v.name (v.range.valueIn inputs)) ++
  layout.pseudoInputs.map fun s =>
    record names ("@" ++ toString k) s.index s.name (s.range.valueIn inputs)

/-- The lines of a witness for frame `k`. -/
def frameText (layout : Layout) (names : Bool) (init : List Char) (k : Nat)
    (latches inputs : List Char) : List String :=
  ("#" ++ toString k) :: layout.stateRecords names init k latches ++
    ("@" ++ toString k) :: layout.inputRecords names k inputs

/-- The lines of a witness for all frames from number `k` on. -/
def framesText (layout : Layout) (names : Bool) (init : List Char) (k : Nat)
    (frames : List (List Char × List Char)) : List String :=
  (frames.zipIdx k).flatMap fun f => layout.frameText names init f.2 f.1.1 f.1.2

/-- What a witness has to say after the first lines of a trace. A frame is written when its inputs
are known. -/
def report (layout : Layout) (names : Bool) : List (List Char) → List String
  | [] => []
  | [_] => ["sat"]
  | [_, _] => ["sat", "b0"]
  | _ :: _ :: init :: lines => "sat" :: "b0" :: layout.framesText names init 0 (pairs lines)

end Layout

/-! ## Values -/

theorem BitRange.render_extract_read {r : BitRange} {line : List Char} (h : Bits.Spelled line) :
    Bits.render ((Bits.read line).extract r.start r.stop) = String.ofList (r.valueIn line) :=
  Bits.render_extract_read h r.start r.stop

/-- In a list of pairs with distinct keys every pair is found by its key. -/
theorem lookup_of_mem {α β : Type} [BEq α] [LawfulBEq α] {l : List (α × β)}
    (hnodup : (l.map (·.1)).Nodup) {a : α} {b : β} (h : (a, b) ∈ l) : l.lookup a = some b := by
  induction l with
  | nil => cases h
  | cons p l ih =>
    obtain ⟨hp, hl⟩ := List.nodup_cons.mp hnodup
    cases h with
    | head => exact List.lookup_cons_self
    | tail _ h =>
      have hne : a ≠ p.1 := by
        rintro rfl
        exact hp (List.mem_map.mpr ⟨_, h, rfl⟩)
      rw [List.lookup_cons, beq_false_of_ne hne]
      exact ih hl h

namespace Layout

variable {ds : List Declaration} {layout : Layout}

/-- The line of initial values holds a value for exactly the latches without an `init`. -/
theorem Of.lookup_initials (h : Of ds layout) (bits : Bits) {s : StateVar}
    (hs : s ∈ layout.latches) :
    (layout.lifter.initials bits).lookup s.id =
      if s.hasInit = false then some (bits.extract s.range.start s.range.stop) else none := by
  split
  · next hinit =>
    -- A value is looked up by id, so the latches must not share one.
    refine lookup_of_mem (h.nodup_initials bits) (List.mem_map.mpr ⟨s, ?_, rfl⟩)
    exact List.mem_filter.mpr ⟨hs, by simp [hinit]⟩
  · next hinit =>
    apply List.lookup_eq_none_iff.mpr
    intro p hp
    obtain ⟨t, ht, rfl⟩ := List.mem_map.mp hp
    obtain ⟨hmem, hnot⟩ := List.mem_filter.mp ht
    refine bne_iff_ne.mpr fun heq => hinit ?_
    obtain rfl := h.state_ext (mem_latches.mp hs).1 (mem_latches.mp hmem).1 heq
    simpa using hnot

/-- What both lines have in common, the line that a value is taken from has too. -/
theorem source_of {P : List Char → Prop} {init latches : List Char} (hinit : P init)
    (hlatches : P latches) (k : Nat) (s : StateVar) : P (source init k latches s) := by
  unfold source
  split
  · exact hinit
  · exact hlatches

/-- A latch takes its value from the line of initial values in the first frame only. -/
theorem Of.latchValue_eq (h : Of ds layout) (init latches : List Char) (k : Nat) {s : StateVar}
    (hs : s ∈ layout.latches) :
    Lifter.latchValue (layout.lifter.initials (Bits.read init)) k (Bits.read latches) s =
      (Bits.read (source init k latches s)).extract s.range.start s.range.stop := by
  unfold Lifter.latchValue source
  by_cases hk : k = 0
  · rw [if_pos hk, h.lookup_initials _ hs]
    cases s.hasInit <;> simp [hk]
  · simp [hk]

theorem render_assignment {names : Bool} {space : BitSpace} {k index : Nat} {name : Option String}
    {r : BitRange} {line : List Char} (h : Bits.Spelled line) :
    (WitnessLine.assignment space k index ((Bits.read line).extract r.start r.stop) name).render
        names =
      record names (WitnessLine.mark space k) index name (r.valueIn line) := by
  rw [WitnessLine.render, r.render_extract_read h]
  cases name <;> rfl

/-! ## Frames -/

/-- The lines of a frame have the text that the lines of the trace determine. -/
theorem Of.render_frameLines (h : Of ds layout) (names : Bool) {init latches inputs : List Char}
    (hinit : Bits.Spelled init) (hlatches : Bits.Spelled latches) (hinputs : Bits.Spelled inputs)
    (k : Nat) :
    (layout.lifter.frameLines (layout.lifter.initials (Bits.read init)) k (Bits.read latches)
        (Bits.read inputs)).map (WitnessLine.render names) =
      layout.frameText names init k latches inputs := by
  have hstates : (layout.latches.map fun s => WitnessLine.render names (.assignment .state k s.index
        (Lifter.latchValue (layout.lifter.initials (Bits.read init)) k (Bits.read latches) s)
        s.name)) =
      layout.stateRecords names init k latches := by
    apply List.map_congr_left
    intro s hs
    rw [h.latchValue_eq init latches k hs]
    exact render_assignment (source_of hinit hlatches k s)
  have hinputs' : ((layout.inputs.map fun v => WitnessLine.render names (.assignment .input k
        v.index ((Bits.read inputs).extract v.range.start v.range.stop) v.name)) ++
      layout.pseudoInputs.map fun s => WitnessLine.render names (.assignment .input k s.index
        ((Bits.read inputs).extract s.range.start s.range.stop) s.name)) =
      layout.inputRecords names k inputs :=
    congrArg₂ (· ++ ·) (List.map_congr_left fun v _ => render_assignment hinputs)
      (List.map_congr_left fun s _ => render_assignment hinputs)
  simp only [Lifter.frameLines, lifter, List.map_append, List.map_cons, List.map_map,
    Function.comp_def, List.append_assoc, List.cons_append] at hstates hinputs' ⊢
  rw [hstates, hinputs']
  rfl

theorem advance_header {l : Lifter} {line : List Char} (h : CheckResult.confirms line)
    (rest : List (List Char)) :
    (l.advance .header (line :: rest)).1 = .status :: (l.advance .property rest).1 := by
  have hmove : l.move line .header = .next [.status] .property := if_pos h
  rw [Lifter.advance_cons hmove]
  rfl

theorem advance_latches {l : Lifter} {k : Nat} {initial : List (Id × Bits)} {line : List Char}
    (h : Bits.Spelled line) (rest : List (List Char)) :
    (l.advance (.latches k initial) (line :: rest)).1 =
      (l.advance (.inputs k initial (Bits.read line)) rest).1 := by
  have hstop : line ≠ ['.'] := fun heq => not_spelled_stop (heq ▸ h)
  have hmove : l.move line (.latches k initial) = .next [] (.inputs k initial (Bits.read line)) :=
    if_neg hstop
  rw [Lifter.advance_cons hmove]
  rfl

/-- Lines of latches and of inputs in turn yield the text of their frames. -/
theorem Of.render_advance_latches (h : Of ds layout) (names : Bool) {init : List Char}
    (hinit : Bits.Spelled init) (k : Nat) (lines : List (List Char))
    (hlines : layout.Follows (2 * k + 4) lines) :
    (layout.lifter.advance (.latches k (layout.lifter.initials (Bits.read init))) lines).1.map
        (WitnessLine.render names) =
      layout.framesText names init k (pairs lines) := by
  -- Two lines make a frame. A line of latches at the end is read, and not yet written.
  match lines with
  | [] => rfl
  | [latches] =>
    obtain ⟨hlatches, _⟩ := follows_cons.mp hlines
    rw [advance_latches ((h.leadsOn_latches k).mp hlatches).1]
    rfl
  | latches :: inputs :: rest =>
    simp only [follows_cons] at hlines
    obtain ⟨hlatches, hinputs, hrest⟩ := hlines
    have hspelled := ((h.leadsOn_latches k).mp hlatches).1
    have hspelled' := ((h.leadsOn_inputs k).mp hinputs).1
    have ih := h.render_advance_latches names hinit (k + 1) rest hrest
    rw [advance_latches hspelled, Lifter.advance_cons rfl, List.map_append, ih,
      h.render_frameLines names hinit hspelled hspelled' k]
    rfl

/-- What a run has written when it has gone through lines that lead on. -/
theorem Of.render_advance (h : Of ds layout) (names : Bool) (lines : List (List Char))
    (hlines : layout.Follows 1 lines) :
    (layout.lifter.advance .header lines).1.map (WitnessLine.render names) =
      layout.report names lines := by
  match lines with
  | [] => rfl
  | [header] =>
    rw [advance_header (leadsOn_header.mp (follows_cons.mp hlines).1)]
    rfl
  | [header, property] =>
    rw [advance_header (leadsOn_header.mp (follows_cons.mp hlines).1)]
    rfl
  | header :: property :: init :: lines =>
    simp only [follows_cons] at hlines
    obtain ⟨hheader, _, hinit, hrest⟩ := hlines
    have hframes := h.render_advance_latches names (leadsOn_init.mp hinit).1 0 lines hrest
    rw [advance_header (leadsOn_header.mp hheader), report, ← hframes]
    rfl

end Layout

end WitnessLift
