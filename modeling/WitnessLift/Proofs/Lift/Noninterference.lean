-- SUMMARY: Traces that differ only in what no variable looks at are lifted alike.
import WitnessLift.Proofs.Lift.Delivery
import WitnessLift.Proofs.Trace.Alike
import WitnessLift.Proofs.Witness.Reader

/-!
# What a witness does not depend on

Two traces may differ in blanks, in the words of the header and the property, in bits that no
variable takes its value from, and behind the full stop. Every line is then at fault in both or in
none of them, and every frame has the same lines, so that both are lifted alike.
-/

namespace WitnessLift

/-! ## Lines that make no difference -/

namespace Layout

/-- Whether a position belongs to a latch whose initial value the trace supplies. -/
def Supplied (layout : Layout) (p : Nat) : Prop :=
  ∃ s ∈ layout.states, layout.needsDedicatedInit s.id = true ∧ s.range.Covers p

instance (layout : Layout) (p : Nat) : Decidable (layout.Supplied p) :=
  inferInstanceAs (Decidable (∃ _ ∈ _, _))

/-- Whether the value at a position of the latches on line number `i` is looked at. In the first
frame, the latches whose initial value is supplied do not take it from there. -/
def LiveLatch (layout : Layout) (i p : Nat) : Prop := ¬ (i = 4 ∧ layout.Supplied p)

instance (layout : Layout) (i p : Nat) : Decidable (layout.LiveLatch i p) :=
  inferInstanceAs (Decidable (¬ _))

/-- Two lines, freed of blanks, that make no difference as line number `i`. A header may say in
either way that there is a counterexample, a property may be any line, and lines of bits are alike:
of the initial values only those that are supplied are looked at, and what follows the last latch or
the last input is not. -/
def Same (layout : Layout) (i : Nat) (a b : List Char) : Prop :=
  match LineKind.ofNumber i with
  | .header => a = b ∨ (CheckResult.confirms a ∧ CheckResult.confirms b)
  | .property => True
  | .init => Bits.Alike layout.Supplied a b
  | .latches => Bits.AlikeUpTo (layout.width .state) (layout.LiveLatch i) a b
  | .inputs => Bits.AlikeUpTo (layout.width .input) (fun _ => True) a b

/-- Two traces from line number `i` on, whose lines correspond one to one and make no difference. A
full stop in the place of a line of latches ends them, and anything may follow it. -/
inductive Corresponds (layout : Layout) :
    Nat → List (Option (List Char)) → List (Option (List Char)) → Prop
  | nil (i : Nat) : Corresponds layout i [] []
  | line {i : Nat} {a b : List Char} {rest rest' : List (Option (List Char))}
      (same : layout.Same i (Text.trim a) (Text.trim b))
      (more : Corresponds layout (i + 1) rest rest') :
      Corresponds layout i (some a :: rest) (some b :: rest')
  | stop {i : Nat} {a b : List Char} {rest rest' : List (Option (List Char))}
      (kind : LineKind.ofNumber i = .latches)
      (first : Text.trim a = ['.']) (second : Text.trim b = ['.']) :
      Corresponds layout i (some a :: rest) (some b :: rest')

variable {ds : List Declaration} {layout : Layout} {a b : List Char}

/-! ## Faults -/

theorem bitsFault?_congr {i : Nat} (hinvalid : Bits.firstInvalid? a = Bits.firstInvalid? b)
    (hshort : BitRange.shortfall? i a.length (layout.checked (LineKind.ofNumber i)) =
      BitRange.shortfall? i b.length (layout.checked (LineKind.ofNumber i))) :
    layout.bitsFault? i a = layout.bitsFault? i b := by
  rw [bitsFault?, bitsFault?, Bits.fault?, Bits.fault?, hinvalid, hshort]

/-- Lines that are alike up to the width of a space are too short for the same variable of it. -/
theorem Of.shortfall?_eq_of_alikeUpTo (h : Of ds layout) {space : BitSpace} {live : Nat → Prop}
    (halike : Bits.AlikeUpTo (layout.width space) live a b) (i : Nat) :
    BitRange.shortfall? i a.length (layout.lifter.ranges space) =
      BitRange.shortfall? i b.length (layout.lifter.ranges space) := by
  rcases halike.length_eq_or with heq | ⟨ha, hb⟩
  · rw [heq]
  · rw [BitRange.shortfall?_eq_none_iff.mpr (h.forall_stop_le_iff.mpr ha),
      BitRange.shortfall?_eq_none_iff.mpr (h.forall_stop_le_iff.mpr hb)]

theorem isBit_stop : Bits.isBit '.' = false := rfl

/-- Lines that make no difference have the same fault. -/
theorem Of.fault?_eq_of_same (h : Of ds layout) {i : Nat} (hsame : layout.Same i a b) :
    layout.fault? i a = layout.fault? i b := by
  unfold Same at hsame
  unfold fault?
  have hbits := layout.bitsFault?_congr (i := i) (a := a) (b := b)
  cases hkind : LineKind.ofNumber i with
  | header => rfl
  | property => rfl
  | init =>
    rw [hkind] at hsame
    exact hbits hsame.firstInvalid?_eq (by rw [hsame.1])
  | latches =>
    rw [hkind] at hsame hbits
    have heq := hbits hsame.firstInvalid?_eq (h.shortfall?_eq_of_alikeUpTo hsame i)
    simp only [hsame.eq_singleton_iff isBit_stop, heq]
  | inputs =>
    rw [hkind] at hsame hbits
    have heq := hbits hsame.firstInvalid?_eq (h.shortfall?_eq_of_alikeUpTo hsame i)
    simp only [hsame.eq_singleton_iff isBit_stop, heq]

/-! ## Values -/

/-- The initial values that are supplied are the same. -/
theorem Of.initials_eq_of_alike (h : Of ds layout) (halike : Bits.Alike layout.Supplied a b) :
    layout.lifter.initials (Bits.read a) = layout.lifter.initials (Bits.read b) := by
  apply List.map_congr_left
  intro s hs
  obtain ⟨hlatch, hinit⟩ := List.mem_filter.mp hs
  have hstate : s ∈ layout.states := (mem_latches.mp hlatch).1
  have hneeds : layout.needsDedicatedInit s.id = true :=
    (h.needsDedicatedInit_iff hstate).mpr ⟨hlatch, by simpa using hinit⟩
  have hvalue := Bits.extract_eq_of_getElem?_eq (r := s.range) fun p hp =>
    halike.getElem?_read_eq ⟨s, hstate, hneeds, hp⟩
  rw [hvalue]

/-- The value of a latch is the same, whether it is supplied or stands on the line of latches. -/
theorem Of.latchValue_eq_of_alike (h : Of ds layout) (init : List Char) {k : Nat}
    (halike : Bits.AlikeUpTo (layout.width .state) (layout.LiveLatch (2 * k + 4)) a b)
    {s : StateVar} (hs : s ∈ layout.latches) :
    Lifter.latchValue (layout.lifter.initials (Bits.read init)) k (Bits.read a) s =
      Lifter.latchValue (layout.lifter.initials (Bits.read init)) k (Bits.read b) s := by
  rw [h.latchValue_eq init a k hs, h.latchValue_eq init b k hs]
  unfold source
  by_cases hfirst : k = 0 ∧ s.hasInit = false
  · rw [if_pos hfirst, if_pos hfirst]
  · rw [if_neg hfirst, if_neg hfirst]
    apply Bits.extract_eq_of_getElem?_eq
    intro p hp
    have hlt : p < layout.width .state := hp.2.trans_le (h.latch_bounds hs).2
    apply halike.getElem?_read_eq hlt
    -- In the first frame the latch has an initial value, so none that is supplied shares a position.
    rintro ⟨hk, t, ht, hneeds, htp⟩
    obtain ⟨htlatch, htinit⟩ := (h.needsDedicatedInit_iff ht).mp hneeds
    have hst : s = t := h.latch_unique hs htlatch hp htp hlt
    exact hfirst ⟨by omega, hst ▸ htinit⟩

/-- A frame has the same lines if the latches and the inputs have the same values. -/
theorem Of.frameLines_eq (h : Of ds layout) {initial : List (Id × Bits)} {k : Nat}
    {latches latches' : Bits}
    (hlatches : ∀ s ∈ layout.latches,
      Lifter.latchValue initial k latches s = Lifter.latchValue initial k latches' s)
    (hinputs : Bits.AlikeUpTo (layout.width .input) (fun _ => True) a b) :
    layout.lifter.frameLines initial k latches (Bits.read a) =
      layout.lifter.frameLines initial k latches' (Bits.read b) := by
  have hvalue : ∀ v ∈ layout.lifter.ranges .input,
      (Bits.read a).extract v.2.start v.2.stop = (Bits.read b).extract v.2.start v.2.stop := by
    intro v hv
    apply Bits.extract_eq_of_getElem?_eq
    intro p hp
    exact hinputs.getElem?_read_eq (hp.2.trans_le (h.range_bounds hv).2) trivial
  obtain ⟨hgenuine, hpseudo⟩ := Lifter.forall_mem_ranges_input.mp hvalue
  have hlatchLines : (layout.lifter.latches.map fun s => WitnessLine.assignment .state k s.index
        (Lifter.latchValue initial k latches s) s.name) =
      layout.lifter.latches.map fun s => .assignment .state k s.index
        (Lifter.latchValue initial k latches' s) s.name := by
    apply List.map_congr_left
    intro s hs
    rw [hlatches s hs]
  have hinputLines : (layout.lifter.inputs.map fun v => WitnessLine.assignment .input k v.index
        ((Bits.read a).extract v.range.start v.range.stop) v.name) =
      layout.lifter.inputs.map fun v => .assignment .input k v.index
        ((Bits.read b).extract v.range.start v.range.stop) v.name := by
    apply List.map_congr_left
    intro v hv
    rw [hgenuine v hv]
  have hpseudoLines : (layout.lifter.pseudoInputs.map fun s => WitnessLine.assignment .input k s.index
        ((Bits.read a).extract s.range.start s.range.stop) s.name) =
      layout.lifter.pseudoInputs.map fun s => .assignment .input k s.index
        ((Bits.read b).extract s.range.start s.range.stop) s.name := by
    apply List.map_congr_left
    intro s hs
    rw [hpseudo s hs]
  rw [Lifter.frameLines, Lifter.frameLines, hlatchLines, hinputLines, hpseudoLines]

/-! ## Steps -/

/-- Two stages that await the same kind of line of the same frame, and remember the same initial
values and lines of latches with the same values. -/
inductive Parallel (layout : Layout) : Stage → Stage → Prop
  | header : Parallel layout .header .header
  | property : Parallel layout .property .property
  | init : Parallel layout .init .init
  | latches (k : Nat) (init : List Char) :
      Parallel layout (.latches k (layout.lifter.initials (Bits.read init)))
        (.latches k (layout.lifter.initials (Bits.read init)))
  | inputs (k : Nat) {initial : List (Id × Bits)} {init : List Char} {latches latches' : Bits}
      (supplied : initial = layout.lifter.initials (Bits.read init))
      (values : ∀ s ∈ layout.latches,
        Lifter.latchValue initial k latches s = Lifter.latchValue initial k latches' s) :
      Parallel layout (.inputs k initial latches) (.inputs k initial latches')

/-- Two moves that write the same and lead to stages which are parallel. -/
inductive SameMove (layout : Layout) : Move → Move → Prop
  | next (lines : List WitnessLine) {stage stage' : Stage} (parallel : layout.Parallel stage stage') :
      SameMove layout (.next lines stage) (.next lines stage')
  | finish (frames : Nat) : SameMove layout (.finish frames) (.finish frames)
  | dismiss (result : CheckResult) : SameMove layout (.dismiss result) (.dismiss result)

variable {stage stage' : Stage}

theorem Parallel.number_eq (h : layout.Parallel stage stage') : stage'.number = stage.number := by
  cases h <;> rfl

theorem Parallel.kind_eq (h : layout.Parallel stage stage') : stage'.kind = stage.kind := by
  cases h <;> rfl

theorem remarks_eq_of_confirms (h : CheckResult.confirms a) (stage : Stage) :
    Lifter.remarks a stage = [] := by
  cases stage with
  | header => rcases h with rfl | rfl <;> rfl
  | _ => rfl

/-- Lines that make no difference are worth the same remarks. -/
theorem Parallel.remarks_eq (h : layout.Parallel stage stage') (hsame : layout.Same stage.number a b) :
    Lifter.remarks b stage' = Lifter.remarks a stage := by
  cases h with
  | header =>
    rcases hsame with rfl | ⟨ha, hb⟩
    · rfl
    · rw [remarks_eq_of_confirms ha, remarks_eq_of_confirms hb]
  | _ => rfl

/-- Lines that make no difference lead parallel stages to the same. -/
theorem Of.move_of_same (h : Of ds layout) (hparallel : layout.Parallel stage stage')
    (hsame : layout.Same stage.number a b) :
    layout.SameMove (layout.lifter.move a stage) (layout.lifter.move b stage') := by
  unfold Same at hsame
  rw [stage.ofNumber_number] at hsame
  cases hparallel with
  | header =>
    rcases hsame with rfl | ⟨ha, hb⟩
    · rw [Lifter.move]
      split
      · exact .next _ .property
      · exact .dismiss _
    · rw [Lifter.move, Lifter.move, if_pos ha, if_pos hb]
      exact .next _ .property
  | property => exact .next _ .init
  | init =>
    rw [Lifter.move, Lifter.move, h.initials_eq_of_alike hsame]
    exact .next _ (.latches 0 b)
  | latches k init =>
    rw [Lifter.move, Lifter.move, if_congr (hsame.eq_singleton_iff isBit_stop) rfl rfl]
    split
    · exact .finish k
    · exact .next _ (.inputs k rfl fun s hs => h.latchValue_eq_of_alike init hsame hs)
  | inputs k supplied values =>
    rw [Lifter.move, Lifter.move, h.frameLines_eq values hsame, supplied]
    exact .next _ (.latches (k + 1) _)

/-! ## Runs -/

/-- Runs from parallel stages are the same if they are so behind lines that make no difference. -/
theorem Of.run_cons_eq_of_same (h : Of ds layout) {σ : Type} (sink : Sink σ) {number : Nat}
    (hparallel : layout.Parallel stage stage') (hnumber : stage.number = number + 1)
    (hready : layout.Ready stage) (hready' : layout.Ready stage')
    (hsame : layout.Same (number + 1) (Text.trim a) (Text.trim b))
    {rest rest' : List (Option (List Char))}
    (hmore : ∀ next next' : Stage, layout.Parallel next next' → next.number = number + 2 →
      layout.Ready next → layout.Ready next' → ∀ (s : σ) (log : List Event),
        layout.lifter.run sink next (number + 1) s log rest =
          layout.lifter.run sink next' (number + 1) s log rest')
    (s : σ) (log : List Event) :
    layout.lifter.run sink stage number s log (some a :: rest) =
      layout.lifter.run sink stage' number s log (some b :: rest') := by
  rw [← hnumber] at hsame
  have hfault := h.fault?_eq_of_same hsame
  have hstep := h.step_eq_judge hready (Text.trim_trim a)
  have hstep' := h.step_eq_judge hready' (Text.trim_trim b)
  have hmoves := h.move_of_same hparallel hsame
  rw [hparallel.number_eq, ← hfault, hnumber] at hstep'
  rw [hnumber] at hstep
  rw [Lifter.run, Lifter.run, hstep, hstep', hparallel.remarks_eq hsame]
  cases hnone : layout.fault? (number + 1) (Text.trim a) with
  | some e => rfl
  | none =>
    rw [← hnumber] at hnone
    simp only [Fault.judge_none]
    generalize hmove : layout.lifter.move (Text.trim a) stage = move at hmoves
    generalize hmove' : layout.lifter.move (Text.trim b) stage' = move' at hmoves
    cases hmoves with
    | dismiss result => rfl
    | finish frames => rfl
    | next lines parallel =>
      obtain ⟨hnext, hready⟩ := h.ready_of_move hnone hmove
      have hnone' : layout.fault? stage'.number (Text.trim b) = none := by
        rw [hparallel.number_eq, ← hfault, hnone]
      obtain ⟨_, hready'⟩ := h.ready_of_move hnone' hmove'
      dsimp only
      rcases sink.putAll s lines with ⟨s', _ | cause⟩
      · exact hmore _ _ parallel (by rw [hnext, hnumber]) hready hready' s' _
      · rfl

/-- A full stop ends runs from parallel stages alike. -/
theorem run_cons_eq_of_stop {σ : Type} (sink : Sink σ) {number : Nat}
    (hparallel : layout.Parallel stage stage') (hkind : stage.kind = .latches)
    (ha : Text.trim a = ['.']) (hb : Text.trim b = ['.']) (rest rest' : List (Option (List Char)))
    (s : σ) (log : List Event) :
    layout.lifter.run sink stage number s log (some a :: rest) =
      layout.lifter.run sink stage' number s log (some b :: rest') := by
  cases hparallel with
  | latches k init =>
    have hstep (initial : List (Id × Bits)) :
        layout.lifter.step (number + 1) ['.'] (.latches k initial) = .ok (.finish k) := by
      rw [Lifter.step, if_pos rfl]
    have hremarks (initial : List (Id × Bits)) :
        Lifter.remarks ['.'] (.latches k initial) = [] := rfl
    simp only [Lifter.run, ha, hb, hstep, hremarks]
  | _ => cases hkind

/-- Runs from parallel stages on lines that correspond are the same, whatever they write to. -/
theorem Of.run_eq_of_corresponds (h : Of ds layout) {σ : Type} (sink : Sink σ) {number : Nat}
    {lines lines' : List (Option (List Char))}
    (hlines : layout.Corresponds (number + 1) lines lines')
    (hparallel : layout.Parallel stage stage') (hnumber : stage.number = number + 1)
    (hready : layout.Ready stage) (hready' : layout.Ready stage') (s : σ) (log : List Event) :
    layout.lifter.run sink stage number s log lines =
      layout.lifter.run sink stage' number s log lines' := by
  -- Induction on the lines that correspond, from any two parallel stages that are ready for them.
  generalize hi : number + 1 = i at hlines
  induction hlines generalizing number stage stage' s log with
  | nil => rw [Lifter.run, Lifter.run, hparallel.kind_eq]
  | stop hkind ha hb =>
    rw [← hi, ← hnumber, stage.ofNumber_number] at hkind
    exact run_cons_eq_of_stop sink hparallel hkind ha hb _ _ s log
  | line hsame _ ih =>
    subst hi
    refine h.run_cons_eq_of_same sink hparallel hnumber hready hready' hsame ?_ s log
    intro next next' hnext hnumber hready hready' s log
    exact ih hnext hnumber hready hready' s log rfl

/-- Traces whose lines correspond are lifted alike: with the same result, to the same text, and into
every sink. -/
theorem lift_eq_of_corresponds (h : build ds = .ok layout) {t u : Text.Bytes}
    (hlines : layout.Corresponds 1 (Text.lines? t) (Text.lines? u)) :
    (layout.lift t).result = (layout.lift u).result ∧
      (∀ names : Bool, layout.output names t = layout.output names u) ∧
      ∀ (σ : Type) (sink : Sink σ) (s : σ), layout.liftInto sink s t = layout.liftInto sink s u := by
  have hruns : ∀ (σ : Type) (sink : Sink σ) (s : σ),
      layout.liftInto sink s t = layout.liftInto sink s u := by
    intro σ sink s
    have hready : layout.Ready .header := trivial
    exact (Of.of_build h).run_eq_of_corresponds sink hlines .header rfl hready hready s []
  have hlift : layout.lift t = layout.lift u := hruns _ Sink.collect #[]
  exact ⟨congrArg Run.result hlift, fun names => by rw [output, output, hlift], hruns⟩

/-- The trace of the mixed model as it may be written as well: with other words, blanks, free bits
and `x`, with more bits than there are variables, and with nothing behind the full stop. -/
def mixedVariant : Text.Bytes :=
  Text.encode "1\r\nany\n01101\n11x0100\n\t001100010\n.".toList

theorem corresponds_mixed :
    mixed.Corresponds 1 (Text.lines? mixedTrace) (Text.lines? mixedVariant) := by
  have htrace : Text.lines? mixedTrace = ["sat", "b0", "xx101", "11010 ", "0011x001", ".", "rest"].map
      fun line => some line.toList := by decide
  have hvariant : Text.lines? mixedVariant = ["1", "any", "01101", "11x0100", "\t001100010", "."].map
      fun line => some line.toList := by decide
  have hinit : Bits.Alike mixed.Supplied "xx101".toList "01101".toList := by decide
  have hlatches : Bits.AlikeUpTo (mixed.width .state) (mixed.LiveLatch 4) "11010".toList
      "11x0100".toList := by decide
  have hinputs : Bits.AlikeUpTo (mixed.width .input) (fun _ => True) "0011x001".toList
      "001100010".toList := by decide
  rw [htrace, hvariant]
  exact .line (.inr ⟨.inr rfl, .inl rfl⟩) (.line trivial (.line hinit (.line hlatches
    (.line hinputs (.stop rfl rfl rfl)))))

theorem lift_eq_of_corresponds_mixed :
    build Model.mixed = .ok mixed ∧
      mixed.Corresponds 1 (Text.lines? mixedTrace) (Text.lines? mixedVariant) ∧
      mixed.output true mixedTrace = mixed.output true mixedVariant := by
  refine ⟨build_mixed, corresponds_mixed, ?_⟩
  exact (lift_eq_of_corresponds build_mixed corresponds_mixed).2.1 true

end Layout

end WitnessLift
