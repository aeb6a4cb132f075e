-- SUMMARY: Lines of bits that agree on the positions that are looked at.
import Mathlib.Logic.Basic
import WitnessLift.Proofs.Layout.Tiling
import WitnessLift.Proofs.Trace.Bits

/-!
# Lines that are alike

Two lines of bits may differ in the value of a bit that nobody looks at, in `x` for `0`, and behind
the bits that are looked at. The same character is then the first one that spells no bit, and the
bits that are looked at have the same values.
-/

namespace WitnessLift.Bits

/-- Two characters of which one may stand for the other: they are the same, or both spell a bit,
which is the same one if its value is looked at. -/
def Interchangeable (live : Prop) (c d : Char) : Prop :=
  c = d ∨ (isBit c = true ∧ isBit d = true ∧ (live → plain c = plain d))

/-- Two lines of interchangeable characters. Values are looked at where the position is live. -/
def Alike (live : Nat → Prop) (a b : List Char) : Prop :=
  a.length = b.length ∧
    ∀ p (ha : p < a.length) (hb : p < b.length), Interchangeable (live p) a[p] b[p]

/-- A line that consists of at least `width` bits. -/
def Fills (width : Nat) (line : List Char) : Prop := Spelled line ∧ width ≤ line.length

/-- Two lines that are alike, or would be without what follows the first `width` bits. -/
def AlikeUpTo (width : Nat) (live : Nat → Prop) (a b : List Char) : Prop :=
  Alike live a b ∨
    (Fills width a ∧ Fills width b ∧ Alike live (a.take width) (b.take width))

instance (live : Prop) [Decidable live] (c d : Char) : Decidable (Interchangeable live c d) :=
  inferInstanceAs (Decidable (_ ∨ _))

instance (live : Nat → Prop) [DecidablePred live] (a b : List Char) : Decidable (Alike live a b) :=
  inferInstanceAs (Decidable (_ ∧ _))

instance (width : Nat) (line : List Char) : Decidable (Fills width line) :=
  inferInstanceAs (Decidable (_ ∧ _))

instance (width : Nat) (live : Nat → Prop) [DecidablePred live] (a b : List Char) :
    Decidable (AlikeUpTo width live a b) :=
  inferInstanceAs (Decidable (_ ∨ _))

variable {live : Nat → Prop} {a b : List Char}

/-! ## Characters -/

/-- A character as far as it matters for which characters spell no bit. -/
def invalid (c : Char) : Option Char := if isBit c then none else some c

theorem firstInvalid?_eq (line : List Char) :
    firstInvalid? line =
      (line.map invalid).zipIdx.findSome? fun c => c.1.map fun found => (found, c.2) := by
  have hmark : (Option.guard fun c : Char × Nat => !isBit c.1) =
      fun c => (invalid c.1).map fun found => (found, c.2) := by
    funext c
    unfold invalid Option.guard
    cases hbit : isBit c.1 <;> simp [hbit]
  rw [firstInvalid?, List.find?_eq_findSome?_guard, hmark, List.zipIdx_map, List.findSome?_map]
  rfl

theorem Interchangeable.symm {live : Prop} {c d : Char} (h : Interchangeable live c d) :
    Interchangeable live d c := by
  rcases h with rfl | ⟨hc, hd, hplain⟩
  · exact .inl rfl
  · exact .inr ⟨hd, hc, fun hlive => (hplain hlive).symm⟩

theorem Interchangeable.invalid_eq {live : Prop} {c d : Char} (h : Interchangeable live c d) :
    invalid c = invalid d := by
  rcases h with rfl | ⟨hc, hd, _⟩
  · rfl
  · rw [invalid, invalid, if_pos hc, if_pos hd]

theorem Interchangeable.value_eq {live : Prop} {c d : Char} (h : Interchangeable live c d)
    (hlive : live) : (c == '1') = (d == '1') := by
  rcases h with rfl | ⟨hc, hd, hplain⟩
  · rfl
  · have := hplain hlive
    rw [isBit_iff] at hc hd
    rcases hc with rfl | rfl | rfl <;> rcases hd with rfl | rfl | rfl <;> first | rfl | cases this

/-! ## Lines -/

theorem Alike.firstInvalid?_eq (h : Alike live a b) : firstInvalid? a = firstInvalid? b := by
  have hmarks : a.map invalid = b.map invalid := by
    refine List.ext_getElem (by simpa using h.1) ?_
    intro p ha hb
    rw [List.length_map] at ha hb
    simpa using (h.2 p ha hb).invalid_eq
  rw [Bits.firstInvalid?_eq, Bits.firstInvalid?_eq, hmarks]

theorem Alike.getElem?_read_eq (h : Alike live a b) {p : Nat} (hp : live p) :
    (read a)[p]? = (read b)[p]? := by
  by_cases ha : p < a.length
  · have hb : p < b.length := h.1 ▸ ha
    simpa [read, ha, hb] using (h.2 p ha hb).value_eq hp
  · have hb : ¬ p < b.length := h.1 ▸ ha
    simp [read, ha, hb]

theorem Alike.symm (h : Alike live a b) : Alike live b a :=
  ⟨h.1.symm, fun p hb ha => (h.2 p ha hb).symm⟩

/-- A character that spells no bit is alike only to itself. -/
theorem Alike.eq_singleton {c : Char} (hc : isBit c = false) (h : Alike live [c] b) : b = [c] := by
  obtain ⟨d, rfl⟩ := List.length_eq_one_iff.mp h.1.symm
  rcases h.2 0 (by simp) (by simp) with heq | ⟨hbit, _⟩
  · exact congrArg (fun d => [d]) heq.symm
  · exact absurd (hc.symm.trans hbit) Bool.false_ne_true

/-! ## Lines with something behind them -/

variable {width : Nat}

theorem AlikeUpTo.firstInvalid?_eq (h : AlikeUpTo width live a b) :
    firstInvalid? a = firstInvalid? b := by
  rcases h with h | ⟨ha, hb, _⟩
  · exact h.firstInvalid?_eq
  · rw [firstInvalid?_eq_none_iff.mpr ha.1, firstInvalid?_eq_none_iff.mpr hb.1]

theorem AlikeUpTo.symm (h : AlikeUpTo width live a b) : AlikeUpTo width live b a := by
  rcases h with h | ⟨ha, hb, h⟩
  · exact .inl h.symm
  · exact .inr ⟨hb, ha, h.symm⟩

theorem AlikeUpTo.eq_singleton {c : Char} (hc : isBit c = false)
    (h : AlikeUpTo width live [c] b) : b = [c] := by
  rcases h with h | ⟨ha, _, _⟩
  · exact h.eq_singleton hc
  · have hbit : isBit c = true := isBit_iff.mpr (ha.1 c (List.mem_singleton_self c))
    exact absurd (hc.symm.trans hbit) Bool.false_ne_true

theorem AlikeUpTo.eq_singleton_iff {c : Char} (hc : isBit c = false)
    (h : AlikeUpTo width live a b) : a = [c] ↔ b = [c] := by
  constructor
  · rintro rfl
    exact h.eq_singleton hc
  · rintro rfl
    exact h.symm.eq_singleton hc

/-- Two lines that are alike up to a width are equally long, or both at least as long as it. -/
theorem AlikeUpTo.length_eq_or (h : AlikeUpTo width live a b) :
    a.length = b.length ∨ (width ≤ a.length ∧ width ≤ b.length) := by
  rcases h with h | ⟨ha, hb, _⟩
  · exact .inl h.1
  · exact .inr ⟨ha.2, hb.2⟩

theorem AlikeUpTo.getElem?_read_eq (h : AlikeUpTo width live a b) {p : Nat} (hlt : p < width)
    (hp : live p) : (read a)[p]? = (read b)[p]? := by
  rcases h with h | ⟨_, _, h⟩
  · exact h.getElem?_read_eq hp
  · have htake : ∀ line : List Char, (read (line.take width))[p]? = (read line)[p]? := by
      intro line
      simp [read, hlt]
    rw [← htake a, ← htake b, h.getElem?_read_eq hp]

/-! ## Values -/

theorem getElem?_extract_eq (bits : Bits) (r : BitRange) (i : Nat) :
    (bits.extract r.start r.stop)[i]? =
      if i < r.stop - r.start then bits[r.start + i]? else none := by
  rw [Array.getElem?_extract]
  by_cases hi : r.start + i < bits.size
  · have hiff : i < min r.stop bits.size - r.start ↔ i < r.stop - r.start := by omega
    rw [if_congr hiff rfl rfl]
  · simp [hi]

/-- Two lines have the same value at a range if they have the same bits there. -/
theorem extract_eq_of_getElem?_eq {x y : Bits} {r : BitRange}
    (h : ∀ p, r.Covers p → x[p]? = y[p]?) :
    x.extract r.start r.stop = y.extract r.start r.stop := by
  apply Array.ext_getElem?
  intro i
  rw [getElem?_extract_eq, getElem?_extract_eq]
  split
  · next hi => exact h (r.start + i) ⟨Nat.le_add_right _ _, by omega⟩
  · rfl

end WitnessLift.Bits
