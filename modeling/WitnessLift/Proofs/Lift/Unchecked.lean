-- SUMMARY: A lifter that cuts by byte offsets without looking never gets stuck.
import WitnessLift.Proofs.Lift.Delivery
import WitnessLift.Proofs.Lift.Outcome
import WitnessLift.Proofs.Text.Offsets

/-!
# Lifting without a safety net

A lifter that cuts values out of the text of a line by byte offsets gets stuck where the text is too
short or an offset falls into a character, and where a line is given to it that it has no use for.
One that checks each line for its space beforehand, and stops at the full stop, never gets there: it
ends as the lifter does that makes sure each time.
-/

namespace WitnessLift

/-! ## Values out of texts -/

/-- The value at a range of a line, cut out of its text by byte offsets. There is none if the text is
too short or an offset falls into a character. -/
def BitRange.cutText? (r : BitRange) (bits : Bits) : Option Bits :=
  (r.text? bits.render.toList).map Bits.read

theorem Bits.read_render (bits : Bits) : read bits.render.toList = bits := by
  have hbit : ((fun c : Char => c == '1') ∘ fun bit : Bool => if bit then '1' else '0') = id := by
    funext bit
    cases bit <;> rfl
  rw [render, String.toList_ofList, read, List.map_map, hbit, List.map_id]

theorem Bits.utf8Size_eq_one_of_mem_render {bits : Bits} {c : Char} (h : c ∈ bits.render.toList) :
    c.utf8Size = 1 := by
  rw [render, String.toList_ofList] at h
  obtain ⟨bit, _, rfl⟩ := List.mem_map.mp h
  cases bit <;> rfl

theorem Bits.length_render (bits : Bits) : bits.render.toList.length = bits.size := by
  rw [render, String.toList_ofList, List.length_map, Array.length_toList]

/-- A range can be cut out of the text of a line exactly if it can be cut out of the bits, and yields
their text. -/
theorem BitRange.text?_render (r : BitRange) (bits : Bits) :
    r.text? bits.render.toList = (r.cut? bits).map fun value => (Bits.render value).toList := by
  have hone : ∀ c ∈ bits.render.toList, c.utf8Size = 1 := fun _ hc =>
    Bits.utf8Size_eq_one_of_mem_render hc
  unfold cut?
  split
  · next h =>
    rw [text?_eq_some hone h.1 (bits.length_render.symm ▸ h.2), Option.map_some]
    simp [Bits.render, List.extract_eq_take_drop]
  · next h =>
    rw [Option.map_none, Option.eq_none_iff_forall_ne_some]
    intro part hpart
    have hbounds := bounds_of_text? hpart
    rw [Text.byteSize_eq_length hone, bits.length_render] at hbounds
    exact h hbounds

/-- Within a line, the text has the value that the bits have. -/
theorem BitRange.cutText?_eq_some {r : BitRange} {bits : Bits} (hle : r.start ≤ r.stop)
    (hstop : r.stop ≤ bits.size) : r.cutText? bits = some (bits.extract r.start r.stop) := by
  rw [cutText?, text?_render, cut?, if_pos ⟨hle, hstop⟩, Option.map_some, Option.map_some,
    Bits.read_render]

example : BitRange.cutText? ⟨1, 3⟩ #[true, false] = none := by decide

/-! ## The lifter -/

/-- Gives lines to a sink, each of them made when it is its turn; `none` if one of these cannot be
made. What stands behind a line that the sink fails on is not made. -/
def Sink.putEach? {σ : Type} (sink : Sink σ) (s : σ) :
    List (Option WitnessLine) → Option (σ × Option StorageError)
  | [] => some (s, none)
  | none :: _ => none
  | some line :: rest =>
    match sink.put s line with
    | (s, none) => putEach? sink s rest
    | (s, some cause) => some (s, some cause)

/-- What a line leads to before the values of a frame are cut out. -/
inductive Draft where
  | next (lines : List (Option WitnessLine)) (stage : Stage)
  | finish (frames : Nat)
  | dismiss (result : CheckResult)

/-- A move whose lines are all there. -/
def Move.draft : Move → Draft
  | .next lines stage => .next (lines.map some) stage
  | .finish frames => .finish frames
  | .dismiss result => .dismiss result

/-- What a lifter knows between two lines: which line comes next, or that it has read the last. -/
inductive Phase where
  | due (stage : Stage)
  | done (frames : Nat)

/-- What a turn of a lifter comes to: its run is over, or it goes on. -/
inductive Turn (σ : Type) where
  | over (run : Run σ)
  | on (s : σ) (log : List Event) (phase : Phase)

namespace Lifter

/-- The assignment of a latch. Only a value that is not supplied is cut out. -/
def cutLatch? (initial : List (Id × Bits)) (k : Nat) (latches : Bits) (s : StateVar) :
    Option WitnessLine :=
  match if k = 0 then initial.lookup s.id else none with
  | some value => some (.assignment .state k s.index value s.name)
  | none => (s.range.cutText? latches).map (.assignment .state k s.index · s.name)

/-- The lines of a frame, as far as they can be made. -/
def cutFrame (l : Lifter) (initial : List (Id × Bits)) (k : Nat) (latches inputs : Bits) :
    List (Option WitnessLine) :=
  some (.heading .state k) :: l.latches.map (cutLatch? initial k latches) ++
  some (.heading .input k) ::
    (l.inputs.map fun v =>
      (v.range.cutText? inputs).map (.assignment .input k v.index · v.name)) ++
  l.pseudoInputs.map fun s => (s.range.cutText? inputs).map (.assignment .input k s.index · s.name)

/-- What line number `number` leads to. Where inputs are due, the line is checked for the inputs
only, and the values of the frame are left to be cut out. -/
def draft (l : Lifter) (number : Nat) (line : List Char) : Stage → Except TraceError Draft
  | .inputs k initial latches =>
    if line = ['.'] then .error (.incompleteFrame number k)
    else do
      let inputs ← bitsOf number line
      l.checkWidth inputs .input number
      return .next (l.cutFrame initial k latches inputs) (.latches (k + 1) initial)
  | stage => Move.draft <$> l.step number line stage

/-- The end of a run in a phase in which no more lines are read. -/
def conclude {σ : Type} (number : Nat) (s : σ) (log : List Event) : Phase → Run σ
  | .due stage => ⟨.error (.unexpectedEnd number stage.kind), s, log⟩
  | .done frames => ⟨.ok (some frames), s, log ++ [.framesLifted frames]⟩

/-- Takes line number `number` in a phase; `none` if it is stuck. -/
def turn? {σ : Type} (l : Lifter) (sink : Sink σ) (number : Nat) (s : σ) (log : List Event)
    (line : List Char) : Phase → Option (Turn σ)
  | .done _ => none
  | .due stage =>
    let log := log ++ remarks line stage
    match l.draft number line stage with
    | .error e => some (.over ⟨.error e, s, log⟩)
    | .ok (.dismiss result) => some (.over ⟨.ok none, s, log ++ [.noCounterexample result]⟩)
    | .ok (.finish frames) =>
      match sink.put s .stop with
      | (s, some cause) => some (.over ⟨.error (.storage cause), s, log⟩)
      | (s, none) => some (.on s log (.done frames))
    | .ok (.next lines stage) =>
      match sink.putEach? s lines with
      | none => none
      | some (s, some cause) => some (.over ⟨.error (.storage cause), s, log⟩)
      | some (s, none) => some (.on s log (.due stage))

/-- Reads the lines of a trace after `number` lines; `none` if it gets stuck. It leaves off when it
is done. -/
def runUnchecked? {σ : Type} (l : Lifter) (sink : Sink σ) (phase : Phase) (number : Nat) (s : σ)
    (log : List Event) : List (Option (List Char)) → Option (Run σ)
  | [] => some (conclude number s log phase)
  | none :: _ => some ⟨.error (.storage .notText), s, log⟩
  | some full :: rest =>
    match l.turn? sink (number + 1) s log (Text.trim full) phase with
    | none => none
    | some (.over run) => some run
    | some (.on s log (.done frames)) => some (conclude (number + 1) s log (.done frames))
    | some (.on s log (.due stage)) => runUnchecked? l sink (.due stage) (number + 1) s log rest

end Lifter

/-- Lifts a trace into a sink without a safety net; `none` if it gets stuck. -/
def Layout.liftUnchecked? {σ : Type} (layout : Layout) (sink : Sink σ) (s : σ)
    (trace : Text.Bytes) : Option (Run σ) :=
  layout.lifter.runUnchecked? sink (.due .header) 0 s [] (Text.lines? trace)

/-! ## Steps -/

/-- Lines that are all there are given to a sink like any others. -/
theorem Sink.putEach?_map_some {σ : Type} (sink : Sink σ) (s : σ) (lines : List WitnessLine) :
    sink.putEach? s (lines.map some) = some (sink.putAll s lines) := by
  induction lines generalizing s with
  | nil => rfl
  | cons line lines ih =>
    rw [List.map_cons, putEach?, putAll]
    rcases sink.put s line with ⟨s', _ | cause⟩
    · exact ih s'
    · rfl

namespace Lifter

variable {l : Lifter} {initial : List (Id × Bits)} {k : Nat} {latches inputs : Bits}

theorem cutLatch?_eq_some {s : StateVar} (hle : s.range.start ≤ s.range.stop)
    (hstop : s.range.stop ≤ latches.size) :
    cutLatch? initial k latches s =
      some (.assignment .state k s.index (latchValue initial k latches s) s.name) := by
  unfold cutLatch? latchValue
  cases if k = 0 then initial.lookup s.id else none with
  | some value => rfl
  | none =>
    rw [BitRange.cutText?_eq_some hle hstop]
    rfl

/-- All lines of a frame can be made if the lines of bits hold their ranges. -/
theorem cutFrame_eq_map_some
    (hstate : ∀ v ∈ l.ranges .state, v.2.start ≤ v.2.stop ∧ v.2.stop ≤ latches.size)
    (hinput : ∀ v ∈ l.ranges .input, v.2.start ≤ v.2.stop ∧ v.2.stop ≤ inputs.size) :
    l.cutFrame initial k latches inputs = (l.frameLines initial k latches inputs).map some := by
  rw [forall_mem_ranges_state] at hstate
  obtain ⟨hgenuine, hpseudo⟩ := forall_mem_ranges_input.mp hinput
  have hlatches : l.latches.map (cutLatch? initial k latches) = (l.latches.map fun s =>
      WitnessLine.assignment .state k s.index (latchValue initial k latches s) s.name).map some := by
    rw [List.map_map]
    apply List.map_congr_left
    intro s hs
    exact cutLatch?_eq_some (hstate s hs).1 (hstate s hs).2
  have hinputs : (l.inputs.map fun v =>
        (v.range.cutText? inputs).map (WitnessLine.assignment .input k v.index · v.name)) =
      (l.inputs.map fun v => WitnessLine.assignment .input k v.index
        (inputs.extract v.range.start v.range.stop) v.name).map some := by
    rw [List.map_map]
    apply List.map_congr_left
    intro v hv
    rw [BitRange.cutText?_eq_some (hgenuine v hv).1 (hgenuine v hv).2]
    rfl
  have hpseudoInputs : (l.pseudoInputs.map fun s =>
        (s.range.cutText? inputs).map (WitnessLine.assignment .input k s.index · s.name)) =
      (l.pseudoInputs.map fun s => WitnessLine.assignment .input k s.index
        (inputs.extract s.range.start s.range.stop) s.name).map some := by
    rw [List.map_map]
    apply List.map_congr_left
    intro s hs
    rw [BitRange.cutText?_eq_some (hpseudo s hs).1 (hpseudo s hs).2]
    rfl
  rw [cutFrame, hlatches, hinputs, hpseudoInputs, frameLines]
  simp only [List.map_append, List.map_cons]

end Lifter

namespace Layout

variable {ds : List Declaration} {layout : Layout} {stage : Stage}

/-- From a stage that is ready, every line leads to what the step leads to, with all lines there. -/
theorem Of.draft_eq (h : Of ds layout) (hready : layout.Ready stage) (number : Nat)
    (line : List Char) :
    layout.lifter.draft number line stage =
      Move.draft <$> layout.lifter.step number line stage := by
  cases stage with
  | inputs k initial latches =>
    simp only [Lifter.draft, Lifter.step]
    split
    · rfl
    · cases Lifter.bitsOf number line with
      | error e => rfl
      | ok inputs =>
        change (layout.lifter.checkWidth inputs .input number >>= _) =
          Move.draft <$> (layout.lifter.checkWidth inputs .input number >>= _)
        cases hcheck : layout.lifter.checkWidth inputs .input number with
        | error e => rfl
        | ok =>
          have hwidth := h.checkWidth_eq_ok_iff.mp hcheck
          have hcut : layout.lifter.cutFrame initial k latches inputs =
              (layout.lifter.frameLines initial k latches inputs).map some :=
            Lifter.cutFrame_eq_map_some
              (fun _ hv => ⟨(h.range_bounds hv).1, (h.range_bounds hv).2.trans hready⟩)
              (fun _ hv => ⟨(h.range_bounds hv).1, (h.range_bounds hv).2.trans hwidth⟩)
          change Except.ok _ = Move.draft <$> (layout.lifter.frame _ _ _ _ >>= _)
          rw [h.frame_eq_ok hready hwidth, hcut]
          rfl
  | _ => rfl

/-! ## Runs -/

/-- A run without a safety net does not get stuck, and ends as the run that makes sure. -/
theorem Of.runUnchecked?_eq (h : Of ds layout) {σ : Type} (sink : Sink σ) {number : Nat}
    (hnumber : stage.number = number + 1) (hready : layout.Ready stage) (s : σ) (log : List Event)
    (lines : List (Option (List Char))) :
    layout.lifter.runUnchecked? sink (.due stage) number s log lines =
      some (layout.lifter.run sink stage number s log lines) := by
  -- Induction on the lines, from any stage that is ready. A line of latches is checked in one turn
  -- and cut up in the next, so that its length is what the stage has to carry.
  induction lines generalizing stage number s log with
  | nil => rfl
  | cons line lines ih =>
    cases line with
    | none => rfl
    | some full =>
      rw [Lifter.runUnchecked?, Lifter.turn?, h.draft_eq hready, Lifter.run]
      cases hstep : layout.lifter.step (number + 1) (Text.trim full) stage with
      | error e => rfl
      | ok move =>
        cases move with
        | dismiss result => rfl
        | finish frames =>
          simp only [Functor.map, Except.map, Move.draft]
          rcases sink.put s .stop with ⟨s', _ | cause⟩ <;> rfl
        | next first next =>
          rw [← hnumber] at hstep
          obtain ⟨hnext, hready'⟩ := h.ready_of_step hready (Text.trim_trim full) hstep
          simp only [Functor.map, Except.map, Move.draft, Sink.putEach?_map_some]
          rcases sink.putAll s first with ⟨s', _ | cause⟩
          · exact ih (hnext.trans (by rw [hnumber])) hready' s' _
          · rfl

/-- No line is at fault for a value that is missing once the line has been checked. -/
theorem fault?_ne_outOfRange (layout : Layout) (i : Nat) (line : List Char) (r : BitRange) :
    layout.fault? i line ≠ some (.outOfRange r) := by
  have hbits : layout.bitsFault? i line ≠ some (.outOfRange r) := by
    intro h
    rcases Option.or_eq_some_iff.mp h with hinvalid | ⟨_, hshort⟩
    · obtain ⟨_, _, heq⟩ := Option.map_eq_some_iff.mp hinvalid
      cases heq
    · obtain ⟨_, _, heq⟩ := Option.map_eq_some_iff.mp hshort
      cases heq
  unfold fault?
  split
  · exact nofun
  · exact nofun
  · exact hbits
  · split
    · exact nofun
    · exact hbits
  · split
    · exact nofun
    · exact hbits

theorem failure?_ne_outOfRange (layout : Layout) (i : Nat) (rest : List (Option (List Char)))
    (r : BitRange) : layout.failure? i rest ≠ some (.outOfRange r) := by
  rcases rest with _ | ⟨_ | full, _⟩
  · exact nofun
  · exact nofun
  · exact layout.fault?_ne_outOfRange (i + 1) (Text.trim full) r

/-- No run ends for want of a value in a line that has been checked. -/
theorem Of.result_ne_outOfRange (h : Of ds layout) {σ : Type} (sink : Sink σ) (s : σ)
    (trace : Text.Bytes) (r : BitRange) :
    (layout.liftInto sink s trace).result ≠ .error (.outOfRange r) := by
  intro heq
  have hdeliver := congrArg Prod.fst (layout.liftInto_eq_deliver sink s trace)
  simp only [heq, Sink.deliver] at hdeliver
  rcases hput : sink.putAll s (layout.lift trace).sink.toList with ⟨s', _ | cause⟩
  · rw [hput] at hdeliver
    obtain ⟨pre, rest, htrace, hpre, hrest⟩ := layout.exists_follows 1 (Text.lines? trace)
    rw [Nat.add_comm] at hrest
    have hverdict : layout.verdict pre.length rest = .error (.outOfRange r) :=
      (h.lift_spec htrace hpre hrest).1.symm.trans hdeliver.symm
    exact layout.failure?_ne_outOfRange pre.length rest r (Fault.judge_eq_error_iff.mp hverdict)
  · rw [hput] at hdeliver
    cases hdeliver

/-- Every trace can be lifted without a safety net, with the layout of a model as with an empty one,
and into every sink: no value that is cut out is beyond its line, and no line is read behind the full
stop. With the safety net the run is the same, and is never caught by it. -/
theorem lift_never_stuck (h : build ds = .ok layout ∨ layout = {}) {σ : Type} (sink : Sink σ)
    (s : σ) (trace : Text.Bytes) :
    layout.liftUnchecked? sink s trace = some (layout.liftInto sink s trace) ∧
      ∀ r, (layout.liftInto sink s trace).result ≠ .error (.outOfRange r) := by
  have hbuilt : ∃ ds, build ds = .ok layout := by
    rcases h with h | rfl
    · exact ⟨ds, h⟩
    · exact ⟨[], rfl⟩
  obtain ⟨_, hbuild⟩ := hbuilt
  have hof := Of.of_build hbuild
  refine ⟨?_, hof.result_ne_outOfRange sink s trace⟩
  exact hof.runUnchecked?_eq sink (rfl : Stage.header.number = 0 + 1) trivial s [] _

theorem lift_never_stuck_mixed :
    build Model.mixed = .ok mixed ∧
      ∃ run, mixed.liftUnchecked? Sink.collect #[] mixedTrace = some run ∧
        run.result = .ok (some 1) :=
  ⟨build_mixed, mixed.lift mixedTrace,
    (lift_never_stuck (.inl build_mixed) Sink.collect #[] mixedTrace).1,
    ((Of.of_build build_mixed).lift_recording true admits_mixed begins_mixed).1⟩

end Layout

end WitnessLift
