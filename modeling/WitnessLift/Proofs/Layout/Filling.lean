-- SUMMARY: Putting cut values back: a line results exactly if its positions are filled once each.
import WitnessLift.Proofs.Layout.Tiling

/-!
# Filling a line

Putting values back at the ranges that they were cut out of. It yields a line only if every position
receives exactly one character.
-/

namespace WitnessLift.BitRange

/-- The line that has these values at their ranges. Each value has to fill its range, and each
position of the line has to belong to exactly one of them. -/
def fill? (width : Nat) (parts : List (BitRange × List Char)) : Option (List Char) :=
  if ∀ part ∈ parts, part.2.length = part.1.width ∧ part.1.stop ≤ width then
    (List.range width).mapM fun p =>
      match parts.filter fun part => part.1.Covers p with
      | [part] => part.2[p - part.1.start]?
      | _ => none
  else none

/-- A line in which the positions of some ranges are those of an upper line. -/
def overlay (rs : List BitRange) (upper lower : List Char) : List Char :=
  lower.mapIdx fun p c => if ∃ r ∈ rs, r.Covers p then upper.getD p c else c

/-! ## Filling -/

theorem mapM_eq_some {α β : Type} {f : α → Option β} {g : α → β} {l : List α}
    (h : ∀ a ∈ l, f a = some (g a)) : l.mapM f = some (l.map g) := by
  induction l with
  | nil => rfl
  | cons a l ih =>
    obtain ⟨ha, hl⟩ := List.forall_mem_cons.mp h
    rw [List.mapM_cons, ha, ih hl]
    rfl

/-- In a tiling by the ranges of some variables, a position belongs to exactly one of these. -/
theorem Tiles.filter_covers_perm {α : Type} {range : α → BitRange} {vs : List α}
    {rs : List BitRange} {width p : Nat} (h : Tiles 0 rs width) (hperm : (vs.map range).Perm rs)
    (hp : p < width) :
    ∃ v ∈ vs, (range v).Covers p ∧ vs.filter (fun v => (range v).Covers p) = [v] := by
  obtain ⟨r, hr, hfilter⟩ := h.filter_covers (Nat.zero_le p) hp
  have hmap : (vs.filter fun v => (range v).Covers p).map range = [r] := by
    have hsame := hperm.filter fun r => decide (r.Covers p)
    rw [hfilter, List.filter_map] at hsame
    exact List.perm_singleton.mp hsame
  obtain ⟨v, hv, hrange⟩ := List.map_eq_singleton_iff.mp hmap
  refine ⟨v, ?_, hrange ▸ hr, hv⟩
  exact List.mem_of_mem_filter (hv ▸ List.mem_singleton_self v)

/-- Values that a line has at ranges which tile it fill the line. -/
theorem fill?_eq_some {α : Type} (range : α → BitRange) {value : α → List Char} {vs : List α}
    {rs : List BitRange} {s : List Char} (h : Tiles 0 rs s.length)
    (hperm : (vs.map range).Perm rs)
    (hlength : ∀ v ∈ vs, (value v).length = (range v).width)
    (hvalue : ∀ v ∈ vs, ∀ p, (range v).Covers p → (value v)[p - (range v).start]? = s[p]?) :
    fill? s.length (vs.map fun v => (range v, value v)) = some s := by
  have hfits : ∀ part ∈ vs.map fun v => (range v, value v),
      part.2.length = part.1.width ∧ part.1.stop ≤ s.length := by
    refine List.forall_mem_map.mpr fun v hv => ⟨hlength v hv, ?_⟩
    exact (h.mem_bounds (hperm.mem_iff.mp (List.mem_map_of_mem hv))).2.2
  rw [fill?, if_pos hfits, mapM_eq_some (g := fun p => s.getD p ' ')]
  · exact congrArg some (List.ext_getElem (by simp) fun p _ hp => by simp [hp])
  · intro p hp
    have hp : p < s.length := List.mem_range.mp hp
    obtain ⟨v, hv, hcovers, hfilter⟩ := h.filter_covers_perm hperm hp
    -- Of all values, only the one at the covering range has a character for the position.
    have hparts : ((vs.map fun v => (range v, value v)).filter fun part => part.1.Covers p) =
        [(range v, value v)] := by
      rw [List.filter_map]
      exact congrArg (List.map _) hfilter
    rw [hparts]
    simp [hvalue v hv p hcovers, hp]

end WitnessLift.BitRange
