-- SUMMARY: Reading a line of bits, and rendering the values cut out of it.
import WitnessLift.Trace.Bits

/-!
# Reading bits

A line of bits is read position by position, and the first character that spells no bit is found at
its column. A value that is cut out of the bits renders as the characters at its positions, with `0`
for `x`.
-/

namespace WitnessLift.Bits

/-- The bits that the characters of a line spell, where they do. -/
def read (line : List Char) : Bits := (line.map (· == '1')).toArray

/-- A character of a trace as a witness has it: `0` where either value will do. -/
def plain (c : Char) : Char := if c = 'x' then '0' else c

/-- All characters of a line spell bits. -/
def Spelled (line : List Char) : Prop := ∀ c ∈ line, c = '0' ∨ c = '1' ∨ c = 'x'

instance (line : List Char) : Decidable (Spelled line) :=
  List.decidableBAll _ line

/-- The first character that spells no bit, with the number of characters before it. -/
def firstInvalid? (line : List Char) : Option (Char × Nat) :=
  line.zipIdx.find? fun c => !isBit c.1

variable {line : List Char}

@[simp] theorem size_read (line : List Char) : (read line).size = line.length := by
  simp [read]

theorem invalid?_eq (line : List Char) (n : Nat) :
    invalid? (n + 1) line =
      ((line.zipIdx n).find? fun c => !isBit c.1).map fun c => (c.2 + 1, c.1) := by
  induction line generalizing n with
  | nil => rfl
  | cons c line ih =>
    rw [invalid?, List.zipIdx_cons]
    cases hc : isBit c with
    | true => rw [List.find?_cons_of_neg (by simp [hc])]; exact ih (n + 1)
    | false => rw [List.find?_cons_of_pos (by simp [hc])]; rfl

theorem ofLine_eq (line : List Char) :
    ofLine line =
      match firstInvalid? line with
      | some (found, column) => .error (column + 1, found)
      | none => .ok (read line) := by
  unfold ofLine firstInvalid?
  rw [invalid?_eq line 0]
  cases line.zipIdx.find? fun c => !isBit c.1 <;> rfl

theorem isBit_iff {c : Char} : isBit c = true ↔ c = '0' ∨ c = '1' ∨ c = 'x' := by
  simp [isBit, or_assoc]

theorem firstInvalid?_eq_none_iff : firstInvalid? line = none ↔ Spelled line := by
  simp only [firstInvalid?, List.find?_eq_none, Bool.not_eq_true, Bool.not_eq_false', isBit_iff]
  constructor
  · intro h c hc
    obtain ⟨i, hi⟩ := List.mem_iff_getElem?.mp hc
    exact h (c, i) (List.mk_mem_zipIdx_iff_getElem?.mpr hi)
  · rintro h ⟨c, i⟩ hc
    exact h c (List.mem_of_getElem? (List.mk_mem_zipIdx_iff_getElem?.mp hc))

theorem plain_eq {c : Char} (h : c = '0' ∨ c = '1' ∨ c = 'x') :
    plain c = if c == '1' then '1' else '0' := by
  rcases h with rfl | rfl | rfl <;> rfl

/-- A value renders as the characters that it is cut out of. -/
theorem render_extract_read (h : Spelled line) (start stop : Nat) :
    render ((read line).extract start stop) =
      String.ofList (((line.drop start).take (stop - start)).map plain) := by
  unfold render read
  congr 1
  rw [Array.toList_extract, List.extract_eq_take_drop, List.map_take, List.map_drop]
  simp only [List.map_take, List.map_drop, List.map_map]
  congr 2
  apply List.map_congr_left
  intro c hc
  rw [plain_eq (h c hc), Function.comp_apply]

end WitnessLift.Bits
