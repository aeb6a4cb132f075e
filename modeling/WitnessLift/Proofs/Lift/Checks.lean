-- SUMMARY: Faults of a line of bits, and the values of a line without one.
import WitnessLift.Lift.Run
import WitnessLift.Proofs.Fault
import WitnessLift.Proofs.Layout.Views
import WitnessLift.Proofs.Trace.Bits

/-!
# Checks

What is wrong with a line of bits: a character that spells none, or else the first variable that
reaches beyond the line. A line without a fault yields all values that are cut out of it.
-/

namespace WitnessLift

/-- The fault of a line on which a character spells no bit. -/
def Bits.fault? (number : Nat) (line : List Char) : Option TraceError :=
  (firstInvalid? line).map fun c => .invalidBit number (c.2 + 1) c.1

theorem Bits.fault?_eq_none_iff {number : Nat} {line : List Char} :
    fault? number line = none ↔ Spelled line := by
  rw [fault?, Option.map_eq_none_iff, firstInvalid?_eq_none_iff]

/-- The fault of a line of `size` bits that is too short for some variable. The first one in the
order of the list is reported. -/
def BitRange.shortfall? (number size : Nat) (vs : List (Id × BitRange)) : Option TraceError :=
  (vs.find? fun v => size < v.2.stop).map fun v => .lineTooShort number v.1 v.2 size

theorem BitRange.shortfall?_eq_none_iff {number size : Nat} {vs : List (Id × BitRange)} :
    shortfall? number size vs = none ↔ ∀ v ∈ vs, v.2.stop ≤ size := by
  simp [shortfall?]

namespace Lifter

variable {l : Lifter} {bits : Bits} {number : Nat} {space : BitSpace}

theorem forall_mem_ranges_state {P : Id × BitRange → Prop} :
    (∀ v ∈ l.ranges .state, P v) ↔ ∀ s ∈ l.latches, P (s.id, s.range) :=
  List.forall_mem_map

theorem forall_mem_ranges_input {P : Id × BitRange → Prop} :
    (∀ v ∈ l.ranges .input, P v) ↔
      (∀ v ∈ l.inputs, P (v.id, v.range)) ∧ ∀ s ∈ l.pseudoInputs, P (s.id, s.range) := by
  rw [ranges, List.forall_mem_append, List.forall_mem_map, List.forall_mem_map]

theorem forall_mem_uninitialized {P : StateVar → Prop} :
    (∀ s ∈ l.uninitialized, P s) ↔ ∀ s ∈ l.latches, s.hasInit = false → P s := by
  simp only [uninitialized, List.mem_filter, Bool.not_eq_true', and_imp]

theorem bitsOf_eq_judge (number : Nat) (line : List Char) :
    bitsOf number line = Fault.judge (Bits.fault? number line) (Bits.read line) := by
  unfold bitsOf Bits.fault?
  rw [Bits.ofLine_eq]
  cases Bits.firstInvalid? line <;> rfl

theorem valueOf_eq_judge {id : Id} {range : BitRange} (h : range.start ≤ range.stop) :
    valueOf id range bits number =
      Fault.judge (BitRange.shortfall? number bits.size [(id, range)])
        (bits.extract range.start range.stop) := by
  unfold valueOf BitRange.cut? BitRange.shortfall?
  by_cases hstop : range.stop ≤ bits.size
  · simp [h, hstop]
  · simp [hstop, Nat.lt_of_not_le hstop]

/-- The first shortfall of a list is that of the first variable which has one by itself. -/
theorem findSome?_shortfall? {α : Type} (f : α → Id × BitRange) (number size : Nat) (l : List α) :
    (l.findSome? fun a => BitRange.shortfall? number size [f a]) =
      BitRange.shortfall? number size (l.map f) := by
  induction l with
  | nil => rfl
  | cons a l ih =>
    rw [List.findSome?_cons, ih]
    by_cases h : size < (f a).2.stop <;> simp [BitRange.shortfall?, h]

theorem checkWidth_eq_judge (h : ∀ v ∈ l.ranges space, v.2.start ≤ v.2.stop) :
    l.checkWidth bits space number =
      Fault.judge (BitRange.shortfall? number bits.size (l.ranges space)) () := by
  rw [checkWidth, Fault.forM_eq_judge (fun v => BitRange.shortfall? number bits.size [v])
    fun v hv => ?_]
  · rw [findSome?_shortfall? (fun v => v), List.map_id']
  · rw [valueOf_eq_judge (h v hv)]
    cases BitRange.shortfall? number bits.size [v] <;> rfl

/-- The initial values on a line of bits. -/
def initials (l : Lifter) (bits : Bits) : List (Id × Bits) :=
  l.uninitialized.map fun s => (s.id, bits.extract s.range.start s.range.stop)

theorem cacheInit_eq_judge (h : ∀ s ∈ l.uninitialized, s.range.start ≤ s.range.stop) :
    l.cacheInit bits number =
      Fault.judge
        (BitRange.shortfall? number bits.size (l.uninitialized.map fun s => (s.id, s.range)))
        (l.initials bits) := by
  rw [cacheInit, Fault.mapM_eq_judge
    (fun s => BitRange.shortfall? number bits.size [(s.id, s.range)]) fun s hs => ?_]
  · rw [findSome?_shortfall?]
    rfl
  · rw [valueOf_eq_judge (h s hs)]
    cases BitRange.shortfall? number bits.size [(s.id, s.range)] <;> rfl

end Lifter

/-! ## Checks with the lifter of a built layout -/

namespace Layout

variable {ds : List Declaration} {layout : Layout}

theorem Of.uninitialized_bounds (h : Of ds layout) {s : StateVar}
    (hs : s ∈ layout.lifter.uninitialized) : s.range.start ≤ s.range.stop :=
  (h.latch_bounds (List.mem_of_mem_filter hs)).1

theorem Of.checkWidth_eq_judge (h : Of ds layout) (bits : Bits) (space : BitSpace) (number : Nat) :
    layout.lifter.checkWidth bits space number =
      Fault.judge (BitRange.shortfall? number bits.size (layout.lifter.ranges space)) () :=
  Lifter.checkWidth_eq_judge fun _ hv => (h.range_bounds hv).1

theorem Of.cacheInit_eq_judge (h : Of ds layout) (bits : Bits) (number : Nat) :
    layout.lifter.cacheInit bits number =
      Fault.judge
        (BitRange.shortfall? number bits.size
          (layout.lifter.uninitialized.map fun s => (s.id, s.range)))
        (layout.lifter.initials bits) :=
  Lifter.cacheInit_eq_judge fun _ hs => h.uninitialized_bounds hs

/-- A latch has at most one initial value. -/
theorem Of.nodup_initials (h : Of ds layout) (bits : Bits) :
    ((layout.lifter.initials bits).map (·.1)).Nodup := by
  rw [Lifter.initials, List.map_map]
  exact h.nodup_latches.sublist (List.filter_sublist.map _)

variable {bits : Bits} {number : Nat}

/-- The check of a space passes exactly the lines that are at least as long as the space is wide. -/
theorem Of.checkWidth_eq_ok_iff (h : Of ds layout) {space : BitSpace} :
    layout.lifter.checkWidth bits space number = .ok () ↔ layout.width space ≤ bits.size := by
  rw [h.checkWidth_eq_judge, Fault.judge_eq_ok_iff, BitRange.shortfall?_eq_none_iff,
    h.forall_stop_le_iff]
  exact and_iff_left rfl

/-- The initial values are there exactly if the line holds the latches that the model gives none. -/
theorem Of.cacheInit_eq_ok_iff (h : Of ds layout) {initial : List (Id × Bits)} :
    layout.lifter.cacheInit bits number = .ok initial ↔
      (∀ s ∈ layout.lifter.uninitialized, s.range.stop ≤ bits.size) ∧
        layout.lifter.initials bits = initial := by
  rw [h.cacheInit_eq_judge, Fault.judge_eq_ok_iff, BitRange.shortfall?_eq_none_iff,
    List.forall_mem_map]

end Layout

end WitnessLift
