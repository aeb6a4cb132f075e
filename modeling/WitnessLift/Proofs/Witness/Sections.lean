-- SUMMARY: The records of a witness in the order of the layout, in whole sections.
import WitnessLift.Proofs.Lift.Run

/-!
# Sections of a witness

A section of a witness is a heading and the records of its variables, in the order of the layout.
Wherever a run stops, the sections written by then are whole, and no record stands outside of one.
-/

namespace WitnessLift.Layout

/-- The variables that the records of a section are about, in their order: the index and the name
of each. -/
def shown (layout : Layout) : BitSpace → List (Nat × Option String)
  | .state => layout.latches.map fun s => (s.index, s.name)
  | .input => (layout.inputs.map fun v => (v.index, v.name)) ++
      layout.pseudoInputs.map fun s => (s.index, s.name)

/-- Behind each heading stand the records of its section, and every record stands behind the heading
of its section. -/
structure Sectioned (layout : Layout) (lines : List WitnessLine) : Prop where
  whole : ∀ {i space k}, lines[i]? = some (.heading space k) →
    ∀ {j v}, (layout.shown space)[j]? = some v →
      ∃ value, lines[i + 1 + j]? = some (.assignment space k v.1 value v.2)
  headed : ∀ {p space k index value name}, lines[p]? = some (.assignment space k index value name) →
    ∃ i j, p = i + 1 + j ∧ lines[i]? = some (.heading space k) ∧
      (layout.shown space)[j]? = some (index, name)

variable {ds : List Declaration} {layout : Layout}

theorem sectioned_nil : layout.Sectioned [] where
  whole h := by simp at h
  headed h := by simp at h

theorem Sectioned.append {first second : List WitnessLine} (h : layout.Sectioned first)
    (h' : layout.Sectioned second) : layout.Sectioned (first ++ second) where
  whole := by
    intro i space k hi j v hj
    -- A section stands in the list that its heading stands in.
    by_cases hlt : i < first.length
    · rw [List.getElem?_append_left hlt] at hi
      obtain ⟨value, hvalue⟩ := h.whole hi hj
      obtain ⟨hend, -⟩ := List.getElem?_eq_some_iff.mp hvalue
      exact ⟨value, by rwa [List.getElem?_append_left hend]⟩
    · have hle := Nat.le_of_not_lt hlt
      rw [List.getElem?_append_right hle] at hi
      obtain ⟨value, hvalue⟩ := h'.whole hi hj
      refine ⟨value, ?_⟩
      rw [List.getElem?_append_right (by omega), ← hvalue]
      congr 1
      omega
  headed := by
    intro p space k index value name hp
    by_cases hlt : p < first.length
    · rw [List.getElem?_append_left hlt] at hp
      obtain ⟨i, j, rfl, hi, hj⟩ := h.headed hp
      exact ⟨i, j, rfl, by rwa [List.getElem?_append_left (by omega)], hj⟩
    · have hle := Nat.le_of_not_lt hlt
      rw [List.getElem?_append_right hle] at hp
      obtain ⟨i, j, hplace, hi, hj⟩ := h'.headed hp
      refine ⟨first.length + i, j, by omega, ?_, hj⟩
      rwa [List.getElem?_append_right (by omega), Nat.add_sub_cancel_left]

/-- A line that is neither a heading nor a record. -/
theorem sectioned_singleton {line : WitnessLine}
    (h : line = .status ∨ line = .property ∨ line = .stop) : layout.Sectioned [line] where
  whole hi := by
    obtain rfl := List.mem_singleton.mp (List.mem_of_getElem? hi)
    simp at h
  headed hp := by
    obtain rfl := List.mem_singleton.mp (List.mem_of_getElem? hp)
    simp at h

/-- Of two related lists the second has something related at each place of the first. -/
theorem exists_getElem?_of_forall₂ {α β : Type} {R : α → β → Prop} {l : List α} {l' : List β}
    (h : List.Forall₂ R l l') {i : Nat} {a : α} (hi : l[i]? = some a) :
    ∃ b, l'[i]? = some b ∧ R a b := by
  induction h generalizing i with
  | nil => simp at hi
  | cons hab _ ih =>
    cases i with
    | zero =>
      cases hi
      exact ⟨_, rfl, hab⟩
    | succ i => exact ih hi

/-- A heading with the records of its section behind it. -/
theorem sectioned_section {space : BitSpace} {k : Nat} {records : List WitnessLine}
    (h : (layout.shown space).Forall₂
      (fun v line => ∃ value, line = .assignment space k v.1 value v.2) records) :
    layout.Sectioned (.heading space k :: records) where
  whole := by
    intro i _ _ hi j v hj
    cases i with
    | zero =>
      cases hi
      obtain ⟨_, hrecord, value, rfl⟩ := exists_getElem?_of_forall₂ h hj
      exact ⟨value, by rwa [Nat.zero_add, Nat.add_comm]⟩
    | succ i =>
      obtain ⟨_, _, value, hvalue⟩ := exists_getElem?_of_forall₂ h.flip hi
      cases hvalue
  headed := by
    intro p _ _ index value name hp
    cases p with
    | zero => cases hp
    | succ p =>
      obtain ⟨v, hv, _, hvalue⟩ := exists_getElem?_of_forall₂ h.flip hp
      cases hvalue
      exact ⟨0, p, by omega, rfl, hv⟩

theorem sectioned_frameLines (initial : List (Id × Bits)) (k : Nat) (latches inputs : Bits) :
    layout.Sectioned (layout.lifter.frameLines initial k latches inputs) := by
  have hstates : layout.Sectioned (.heading .state k :: layout.latches.map fun s =>
      .assignment .state k s.index (Lifter.latchValue initial k latches s) s.name) := by
    apply sectioned_section
    rw [shown, List.forall₂_map_left_iff, List.forall₂_map_right_iff, List.forall₂_same]
    exact fun s _ => ⟨_, rfl⟩
  have hinputs : layout.Sectioned (.heading .input k :: ((layout.inputs.map fun v =>
      .assignment .input k v.index (inputs.extract v.range.start v.range.stop) v.name) ++
        layout.pseudoInputs.map fun s =>
          .assignment .input k s.index (inputs.extract s.range.start s.range.stop) s.name)) := by
    apply sectioned_section
    apply List.rel_append
    · rw [List.forall₂_map_left_iff, List.forall₂_map_right_iff, List.forall₂_same]
      exact fun v _ => ⟨_, rfl⟩
    · rw [List.forall₂_map_left_iff, List.forall₂_map_right_iff, List.forall₂_same]
      exact fun s _ => ⟨_, rfl⟩
  simpa [Lifter.frameLines, lifter] using hstates.append hinputs

/-- What a line adds to the witness are whole sections. -/
theorem sectioned_move {stage next : Stage} {line : List Char} {lines : List WitnessLine}
    (h : layout.lifter.move line stage = .next lines next) : layout.Sectioned lines := by
  cases stage with
  | header =>
    simp only [Lifter.move] at h
    split at h
    · cases h
      exact sectioned_singleton (.inl rfl)
    · cases h
  | property =>
    cases h
    exact sectioned_singleton (.inr (.inl rfl))
  | init =>
    cases h
    exact sectioned_nil
  | latches k initial =>
    simp only [Lifter.move] at h
    split at h
    · cases h
    · cases h
      exact sectioned_nil
  | inputs k initial latches =>
    cases h
    exact sectioned_frameLines initial k latches _

theorem sectioned_advance (layout : Layout) (stage : Stage) (lines : List (List Char)) :
    layout.Sectioned (layout.lifter.advance stage lines).1 := by
  induction lines generalizing stage with
  | nil => exact sectioned_nil
  | cons line lines ih =>
    rw [Lifter.advance]
    split
    · next hmove => exact (sectioned_move hmove).append (ih _)
    · exact sectioned_nil

/-- A witness has whole sections, also where its trace is refused. -/
theorem Of.sectioned_lift (h : Of ds layout) (trace : Text.Bytes) :
    layout.Sectioned (layout.lift trace).sink.toList := by
  obtain ⟨pre, rest, htrace, hpre, hrest⟩ := layout.exists_follows 1 (Text.lines? trace)
  rw [Nat.add_comm] at hrest
  rw [(h.lift_spec htrace hpre hrest).2]
  refine (sectioned_advance layout .header _).append ?_
  unfold closing
  split
  · exact sectioned_singleton (.inr (.inr rfl))
  · exact sectioned_nil

end WitnessLift.Layout
