-- SUMMARY: Runs commute with renamings of ids that keep their order.
import WitnessLift.Proofs.Layout.Renaming
import WitnessLift.Proofs.Lift.Outcome

/-!
# Lifting with renamed ids

A witness tells variables by their index, and ids only decide in which order latches are listed. If
ids are exchanged for others in the same order, every step of a run makes the same move, and a run
differs in nothing but the id of a variable that a line is too short for.
-/

namespace WitnessLift

/-! ## Ids in order -/

/-- An exchange keeps the order of these ids. -/
def KeepsOrder (f : Id → Id) (ids : List Id) : Prop := ∀ a ∈ ids, ∀ b ∈ ids, a < b → f a < f b

instance (f : Id → Id) (ids : List Id) : Decidable (KeepsOrder f ids) :=
  decidable_of_iff ((ids.all fun a => ids.all fun b => !decide (a < b) || decide (f a < f b)) = true)
    (by simp [KeepsOrder, Decidable.imp_iff_not_or])

namespace KeepsOrder

variable {f : Id → Id} {ids : List Id} {a b : Id}

theorem le_iff (h : KeepsOrder f ids) (ha : a ∈ ids) (hb : b ∈ ids) : f a ≤ f b ↔ a ≤ b := by
  constructor
  · intro hle
    by_contra hnot
    exact UInt32.not_lt.mpr hle (h b hb a ha (UInt32.not_le.mp hnot))
  · intro hle
    by_cases heq : a = b
    · exact heq ▸ UInt32.le_refl _
    · exact UInt32.le_of_lt (h a ha b hb (UInt32.lt_of_le_of_ne hle heq))

/-- An exchange that keeps the order keeps ids apart. -/
theorem injOn (h : KeepsOrder f ids) : Set.InjOn f {id | id ∈ ids} := by
  intro a ha b hb heq
  have hab : a ≤ b := (h.le_iff ha hb).mp (heq ▸ UInt32.le_refl _)
  have hba : b ≤ a := (h.le_iff hb ha).mp (heq ▸ UInt32.le_refl _)
  exact UInt32.le_antisymm hab hba

theorem mono {ids' : List Id} (h : KeepsOrder f ids) (hsub : ids' ⊆ ids) : KeepsOrder f ids' :=
  fun a ha b hb => h a (hsub ha) b (hsub hb)

end KeepsOrder

/-! ## Exchanged ids -/

/-- Ids that belong to something, exchanged. -/
def renameKeys {α : Type} (f : Id → Id) (l : List (Id × α)) : List (Id × α) :=
  l.map fun p => (f p.1, p.2)

/-- A trace error with the id of a variable exchanged. -/
def TraceError.rename (f : Id → Id) : TraceError → TraceError
  | .lineTooShort line id range actual => .lineTooShort line (f id) range actual
  | .unexpectedEnd line expected => .unexpectedEnd line expected
  | .incompleteFrame line frame => .incompleteFrame line frame
  | .invalidBit line column found => .invalidBit line column found
  | .storage cause => .storage cause
  | .outOfRange range => .outOfRange range

/-- A stage whose initial values belong to exchanged ids. -/
def Stage.rename (f : Id → Id) : Stage → Stage
  | .header => .header
  | .property => .property
  | .init => .init
  | .latches k initial => .latches k (renameKeys f initial)
  | .inputs k initial bits => .inputs k (renameKeys f initial) bits

/-- A move to a stage with exchanged ids. The lines that are written have no ids. -/
def Move.rename (f : Id → Id) : Move → Move
  | .next lines stage => .next lines (stage.rename f)
  | .finish frames => .finish frames
  | .dismiss result => .dismiss result

/-- A run whose error has its id exchanged. -/
def Run.rename {σ : Type} (f : Id → Id) (r : Run σ) : Run σ :=
  { r with result := r.result.mapError (TraceError.rename f) }

/-- The initial values that a stage remembers. -/
def Stage.initial : Stage → List (Id × Bits)
  | .latches _ initial => initial
  | .inputs _ initial _ => initial
  | _ => []

variable {f : Id → Id}

@[simp] theorem Stage.number_rename {stage : Stage} :
    (stage.rename f).number = stage.number := by
  cases stage <;> rfl

@[simp] theorem Stage.kind_rename {stage : Stage} : (stage.rename f).kind = stage.kind := by
  cases stage <;> rfl

@[simp] theorem Lifter.remarks_rename {line : List Char} {stage : Stage} :
    remarks line (stage.rename f) = remarks line stage := by
  cases stage <;> rfl

/-- An exchange that keeps ids apart finds what belongs to an id. -/
theorem lookup_renameKeys {α : Type} {S : Set Id} (hf : Set.InjOn f S) {l : List (Id × α)}
    (hl : ∀ p ∈ l, p.1 ∈ S) {id : Id} (hid : id ∈ S) :
    (renameKeys f l).lookup (f id) = l.lookup id := by
  induction l with
  | nil => rfl
  | cons p l ih =>
    obtain ⟨hp, hl⟩ := List.forall_mem_cons.mp hl
    have hcons : renameKeys f (p :: l) = (f p.1, p.2) :: renameKeys f l := rfl
    have hkey : (f id == f p.1) = (id == p.1) := by
      rw [Bool.eq_iff_iff, beq_iff_eq, beq_iff_eq, hf.eq_iff hid hp]
    rw [hcons, List.lookup_cons, List.lookup_cons, hkey, ih hl]

/-! ## Faults -/

theorem Bits.fault?_rename {number : Nat} {line : List Char} :
    (fault? number line).map (TraceError.rename f) = fault? number line := by
  rw [fault?, Option.map_map]
  rfl

theorem BitRange.shortfall?_rename {number size : Nat} {vs : List (Id × BitRange)} :
    shortfall? number size (renameKeys f vs) =
      (shortfall? number size vs).map (TraceError.rename f) := by
  rw [shortfall?, shortfall?, renameKeys, List.find?_map, Option.map_map, Option.map_map]
  rfl

namespace Layout

variable {layout : Layout}

/-- Initial values that belong to states. -/
def Knows (layout : Layout) (initial : List (Id × Bits)) : Prop :=
  ∀ p ∈ initial, p.1 ∈ layout.states.map (·.id)

section order

variable (hf : KeepsOrder f (layout.states.map (·.id)))

theorem inputs_rename (f : Id → Id) (layout : Layout) :
    (layout.rename f).inputs = layout.inputs.map (InputVar.rename f) := rfl

theorem pseudoInputs_rename (f : Id → Id) (layout : Layout) :
    (layout.rename f).pseudoInputs = layout.pseudoInputs.map (StateVar.rename f) :=
  List.filter_map

include hf

/-- Latches are listed in the same order. -/
theorem latches_rename : (layout.rename f).latches = layout.latches.map (StateVar.rename f) := by
  have hfilter : (layout.rename f).states.filter (fun s => !s.isPseudoInput) =
      (layout.states.filter fun s => !s.isPseudoInput).map (StateVar.rename f) := List.filter_map
  rw [latches, latches, hfilter]
  refine (List.map_mergeSort fun s hs t ht => ?_).symm
  have hmem : ∀ v ∈ layout.states.filter (fun s => !s.isPseudoInput),
      v.id ∈ layout.states.map (·.id) := fun v hv =>
    List.mem_map_of_mem (List.mem_of_mem_filter hv)
  exact decide_eq_decide.mpr (hf.le_iff (hmem s hs) (hmem t ht)).symm

theorem checked_rename (kind : LineKind) :
    (layout.rename f).checked kind = renameKeys f (layout.checked kind) := by
  cases kind with
  | header => rfl
  | property => rfl
  | init =>
    simp only [checked, latches_rename hf, List.filter_map, renameKeys, List.map_map]
    rfl
  | latches =>
    simp only [checked, latches_rename hf, renameKeys, List.map_map]
    rfl
  | inputs =>
    simp only [checked, inputs_rename, pseudoInputs_rename, renameKeys, List.map_append,
      List.map_map]
    rfl

theorem bitsFault?_rename {i : Nat} {line : List Char} :
    (layout.rename f).bitsFault? i line = (layout.bitsFault? i line).map (TraceError.rename f) := by
  rw [bitsFault?, bitsFault?, checked_rename hf, BitRange.shortfall?_rename, Option.map_or,
    Bits.fault?_rename]

/-- A line has the same fault, about the exchanged id. -/
theorem fault?_rename {i : Nat} {line : List Char} :
    (layout.rename f).fault? i line = (layout.fault? i line).map (TraceError.rename f) := by
  unfold fault?
  rw [bitsFault?_rename hf]
  split
  · rfl
  · rfl
  · rfl
  · split <;> rfl
  · split <;> rfl

/-! ## Steps -/

variable {ds ds' : List Declaration}

/-- The initial values on a line are the same, and belong to the exchanged ids. -/
theorem initials_rename (bits : Bits) :
    (layout.rename f).lifter.initials bits = renameKeys f (layout.lifter.initials bits) := by
  simp only [Lifter.initials, Lifter.uninitialized, lifter, latches_rename hf, List.filter_map,
    renameKeys, List.map_map]
  rfl

theorem latchValue_rename {initial : List (Id × Bits)}
    (hinitial : layout.Knows initial) (k : Nat) (bits : Bits)
    {s : StateVar} (hs : s ∈ layout.latches) :
    Lifter.latchValue (renameKeys f initial) k bits (s.rename f) =
      Lifter.latchValue initial k bits s := by
  have hid : s.id ∈ layout.states.map (·.id) := List.mem_map_of_mem (mem_latches.mp hs).1
  have hlookup : (renameKeys f initial).lookup (s.rename f).id = initial.lookup s.id :=
    lookup_renameKeys hf.injOn hinitial hid
  rw [Lifter.latchValue, Lifter.latchValue, hlookup]
  rfl

/-- A frame has the same lines. -/
theorem frameLines_rename {initial : List (Id × Bits)}
    (hinitial : layout.Knows initial) (k : Nat) (latches inputs : Bits) :
    (layout.rename f).lifter.frameLines (renameKeys f initial) k latches inputs =
      layout.lifter.frameLines initial k latches inputs := by
  have hlatches : ((layout.latches.map (StateVar.rename f)).map fun s =>
        WitnessLine.assignment .state k s.index
          (Lifter.latchValue (renameKeys f initial) k latches s) s.name) =
      layout.latches.map fun s =>
        .assignment .state k s.index (Lifter.latchValue initial k latches s) s.name := by
    rw [List.map_map]
    refine List.map_congr_left fun s hs => ?_
    rw [Function.comp_apply, latchValue_rename hf hinitial k latches hs]
    rfl
  simp only [Lifter.frameLines, lifter, latches_rename hf, hlatches, inputs_rename,
    pseudoInputs_rename, List.map_map]
  rfl

/-- A line leads to the same, with ids exchanged. -/
theorem move_rename {stage : Stage}
    (hinitial : layout.Knows stage.initial) (line : List Char) :
    (layout.rename f).lifter.move line (stage.rename f) =
      (layout.lifter.move line stage).rename f := by
  cases stage with
  | header =>
    simp only [Lifter.move, Stage.rename]
    split <;> rfl
  | property => rfl
  | init =>
    simp only [Lifter.move, Stage.rename, initials_rename hf]
    rfl
  | latches k initial =>
    simp only [Lifter.move, Stage.rename]
    split <;> rfl
  | inputs k initial latches =>
    have hstates : layout.Knows initial := hinitial
    simp only [Lifter.move, Stage.rename, frameLines_rename hf hstates]
    rfl

/-- A step fails with the same fault or makes the same move, up to ids. -/
theorem Of.step_rename (h' : Of ds' (layout.rename f)) {stage : Stage}
    (hready : layout.Ready stage) (hinitial : layout.Knows stage.initial) {line : List Char}
    (htrim : Text.trim line = line) :
    (layout.rename f).lifter.step stage.number line (stage.rename f) =
      Fault.judge ((layout.fault? stage.number line).map (TraceError.rename f))
        ((layout.lifter.move line stage).rename f) := by
  have hready' : (layout.rename f).Ready (stage.rename f) := by
    cases stage with
    | inputs => exact hready
    | _ => trivial
  have hstep := h'.step_eq_judge hready' htrim
  rwa [Stage.number_rename, fault?_rename hf, move_rename hf hinitial] at hstep

omit hf in
/-- A stage that is led to remembers the initial values of states alone. -/
theorem knows_of_move {stage next : Stage} {line : List Char} {lines : List WitnessLine}
    (hmove : layout.lifter.move line stage = .next lines next)
    (hinitial : layout.Knows stage.initial) : layout.Knows next.initial := by
  cases stage with
  | header =>
    rw [Lifter.move] at hmove
    split at hmove <;> cases hmove
    exact hinitial
  | property =>
    cases hmove
    exact hinitial
  | init =>
    cases hmove
    intro p hp
    obtain ⟨s, hs, rfl⟩ := List.mem_map.mp hp
    exact List.mem_map_of_mem (mem_latches.mp (List.mem_of_mem_filter hs)).1
  | latches k initial =>
    rw [Lifter.move] at hmove
    split at hmove <;> cases hmove
    exact hinitial
  | inputs k initial latches =>
    cases hmove
    exact hinitial

/-! ## Runs -/

/-- A run takes the same course, whatever it writes to. -/
theorem Of.run_rename (h : Of ds layout) (h' : Of ds' (layout.rename f)) {σ : Type} (sink : Sink σ)
    {stage : Stage} {number : Nat} (hnumber : stage.number = number + 1)
    (hready : layout.Ready stage) (hinitial : layout.Knows stage.initial) (s : σ)
    (log : List Event) (lines : List (Option (List Char))) :
    (layout.rename f).lifter.run sink (stage.rename f) number s log lines =
      (layout.lifter.run sink stage number s log lines).rename f := by
  -- Induction on the lines, from any stage that is ready for its line and remembers only states.
  induction lines generalizing stage number s log with
  | nil =>
    rw [Lifter.run, Lifter.run, Stage.kind_rename]
    rfl
  | cons line lines ih =>
    cases line with
    | none => rfl
    | some full =>
      have htrim := Text.trim_trim full
      have hstep := h.step_eq_judge hready htrim
      have hstep' := h'.step_rename hf hready hinitial htrim
      rw [hnumber] at hstep hstep'
      rw [Lifter.run, Lifter.run, hstep, hstep', Lifter.remarks_rename]
      cases hfault : layout.fault? (number + 1) (Text.trim full) with
      | some e => rfl
      | none =>
        simp only [Option.map_none, Fault.judge_none]
        by_cases hconcludes : concludes stage.number (Text.trim full)
        · rcases layout.move_of_concludes hconcludes with ⟨_, result, hmove⟩ | ⟨k, _, hmove⟩
          · rw [hmove]
            rfl
          · simp only [hmove, Move.rename]
            rcases sink.put s .stop with ⟨s', _ | cause⟩ <;> rfl
        · have hleads : layout.LeadsOn stage.number (Text.trim full) :=
            ⟨hnumber ▸ hfault, hconcludes⟩
          obtain ⟨written, next, hmove, hnext, hready'⟩ := h.move_of_leadsOn hleads
          simp only [hmove, Move.rename]
          rcases sink.putAll s written with ⟨s', _ | cause⟩
          · exact ih (hnext.trans (by rw [hnumber])) hready' (knows_of_move hmove hinitial) _ _
          · rfl

/-- A trace is lifted alike over a layout with exchanged ids, whatever it is written to. -/
theorem Of.liftInto_rename (h : Of ds layout) (h' : Of ds' (layout.rename f)) {σ : Type}
    (sink : Sink σ) (s : σ) (trace : Text.Bytes) :
    (layout.rename f).liftInto sink s trace = (layout.liftInto sink s trace).rename f := by
  have hready : layout.Ready .header := trivial
  have hinitial : layout.Knows Stage.header.initial := fun _ hp => by cases hp
  exact h.run_rename hf h' sink rfl hready hinitial s [] (Text.lines? trace)

end order

theorem Of.ids_states_subset {ds : List Declaration} (h : Of ds layout) :
    layout.states.map (·.id) ⊆ Model.ids ds := by
  rw [h.ids_states]
  intro id hid
  obtain ⟨d, hd, rfl⟩ := List.mem_map.mp hid
  exact List.mem_flatMap.mpr ⟨d, List.mem_of_mem_filter hd, Declaration.id_mem_ids⟩

/-- If the ids of a model are exchanged for others, different ones for different ones, its layout or
its error is the same with the ids exchanged. If the exchange keeps their order too, then every
trace is lifted alike over both layouts: to the same text, and into every sink, with the same result
except for the id of a variable that a line is too short for. -/
theorem build_lift_rename (f : Id → Id) (ds : List Declaration)
    (hf : Set.InjOn f {id | id ∈ Model.ids ds}) :
    build (ds.map (Declaration.rename f)) =
        ((build ds).map (rename f)).mapError (ModelError.rename f) ∧
      (KeepsOrder f (Model.ids ds) → ∀ layout, build ds = .ok layout → ∀ trace : Text.Bytes,
        (∀ names : Bool,
          ((layout.rename f).lift trace).result =
              (layout.lift trace).result.mapError (TraceError.rename f) ∧
            WitnessLine.text names ((layout.rename f).lift trace).sink.toList =
              WitnessLine.text names (layout.lift trace).sink.toList) ∧
          ∀ (σ : Type) (sink : Sink σ) (s : σ),
            (layout.rename f).liftInto sink s trace = (layout.liftInto sink s trace).rename f) := by
  have hbuild := build_rename hf (Model.within_ids ds)
  refine ⟨hbuild, fun horder layout h trace => ?_⟩
  rw [h] at hbuild
  have hof := Of.of_build h
  have hof' := Of.of_build hbuild
  have hstates := horder.mono hof.ids_states_subset
  refine ⟨fun names => ?_, fun σ sink s => hof.liftInto_rename hstates hof' sink s trace⟩
  rw [lift, lift, hof.liftInto_rename hstates hof']
  exact ⟨rfl, rfl⟩

/-- Ids that make room for twenty others. -/
def offset (id : Id) : Id := id + 20

theorem build_lift_rename_mixed :
    Set.InjOn offset {id | id ∈ Model.ids Model.mixed} ∧ KeepsOrder offset (Model.ids Model.mixed) ∧
      build Model.mixed = .ok mixed ∧
      build (Model.mixed.map (Declaration.rename offset)) = .ok (mixed.rename offset) ∧
      ((mixed.rename offset).lift mixedShort).result = .error (.lineTooShort 5 27 ⟨2, 5⟩ 4) ∧
      WitnessLine.text false ((mixed.rename offset).lift mixedShort).sink.toList = "sat\nb0\n" := by
  have horder : KeepsOrder offset (Model.ids Model.mixed) := by decide
  have hof := Of.of_build build_mixed
  have htrace : Text.lines? mixedShort =
      mixedStart.map some ++ [some "0011".toList, some ['.']] := by decide
  have hshort : ∀ full others, [some "0011".toList, some ['.']] = some full :: others →
      ¬ mixed.LeadsOn (mixedStart.length + 1) (Text.trim full) := by
    rintro _ _ ⟨⟩ hleads
    exact absurd ((hof.leadsOn_inputs 0).mp hleads).2 (by decide)
  have hverdict : mixed.verdict mixedStart.length [some "0011".toList, some ['.']] =
      .error (.lineTooShort 5 7 ⟨2, 5⟩ 4) := Fault.judge_eq_error_iff.mpr (by decide)
  have hlift := hof.lift_text false htrace follows_mixedStart hshort
  rw [hverdict] at hlift
  obtain ⟨hbuild, hlifts⟩ := build_lift_rename offset Model.mixed horder.injOn
  obtain ⟨hresult, htext⟩ := (hlifts horder mixed build_mixed mixedShort).1 false
  rw [build_mixed] at hbuild
  refine ⟨horder.injOn, horder, build_mixed, hbuild, ?_, ?_⟩
  · rw [hresult, hlift.1]
    rfl
  · rw [htext, hlift.2]
    decide

end Layout

end WitnessLift
