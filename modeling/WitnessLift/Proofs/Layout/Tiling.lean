-- SUMMARY: Ranges that lie end to end, and the one range that holds a position.
import Mathlib.Data.List.Chain
import WitnessLift.BitRange

/-!
# Tilings

Ranges that lie end to end: each starts where the one before it stops. Every position between the
first start and the last stop then belongs to exactly one of them.
-/

namespace WitnessLift.BitRange

/-- The ranges lie end to end from `start` up to `stop`. -/
def Tiles : Nat → List BitRange → Nat → Prop
  | start, [], stop => start = stop
  | start, r :: rs, stop => r.start = start ∧ r.start ≤ r.stop ∧ Tiles r.stop rs stop

/-- Whether a position belongs to a range. -/
def Covers (r : BitRange) (p : Nat) : Prop := r.start ≤ p ∧ p < r.stop

instance (r : BitRange) (p : Nat) : Decidable (r.Covers p) :=
  inferInstanceAs (Decidable (_ ∧ _))

variable {r : BitRange} {rs rs₁ rs₂ : List BitRange} {start stop p : Nat}

@[simp] theorem tiles_nil : Tiles start [] stop ↔ start = stop := Iff.rfl

@[simp] theorem tiles_cons :
    Tiles start (r :: rs) stop ↔ r.start = start ∧ r.start ≤ r.stop ∧ Tiles r.stop rs stop :=
  Iff.rfl

/-! ## Composition -/

theorem tiles_append :
    Tiles start (rs₁ ++ rs₂) stop ↔ ∃ middle, Tiles start rs₁ middle ∧ Tiles middle rs₂ stop := by
  induction rs₁ generalizing start with
  | nil => simp
  | cons r rs ih =>
    simp only [List.cons_append, tiles_cons, ih]
    constructor
    · rintro ⟨hstart, hle, middle, h₁, h₂⟩
      exact ⟨middle, ⟨hstart, hle, h₁⟩, h₂⟩
    · rintro ⟨middle, ⟨hstart, hle, h₁⟩, h₂⟩
      exact ⟨hstart, hle, middle, h₁, h₂⟩

/-- Placing a range of some width behind a tiling extends it. -/
theorem Tiles.concat (h : Tiles start rs stop) (width : Nat) :
    Tiles start (rs ++ [.ofWidth stop width]) (stop + width) :=
  tiles_append.mpr ⟨stop, h, by simp [ofWidth]⟩

/-! ## Bounds -/

theorem Tiles.le (h : Tiles start rs stop) : start ≤ stop := by
  induction rs generalizing start with
  | nil => exact Nat.le_of_eq h
  | cons r rs ih =>
    obtain ⟨rfl, hle, hrest⟩ := h
    exact Nat.le_trans hle (ih hrest)

/-- A range of a tiling lies between its ends. -/
theorem Tiles.mem_bounds (h : Tiles start rs stop) (hr : r ∈ rs) :
    start ≤ r.start ∧ r.start ≤ r.stop ∧ r.stop ≤ stop := by
  induction rs generalizing start with
  | nil => cases hr
  | cons s rs ih =>
    obtain ⟨rfl, hle, hrest⟩ := h
    cases hr with
    | head => exact ⟨Nat.le_refl _, hle, hrest.le⟩
    | tail _ hr =>
      obtain ⟨h₁, h₂, h₃⟩ := ih hrest hr
      exact ⟨Nat.le_trans hle h₁, h₂, h₃⟩

/-- The last stop is the largest one, so a line that holds it holds every range. -/
theorem Tiles.forall_stop_le_iff (h : Tiles start rs stop) {n : Nat} (hn : start ≤ n) :
    (∀ r ∈ rs, r.stop ≤ n) ↔ stop ≤ n := by
  induction rs generalizing start with
  | nil => simpa using h ▸ hn
  | cons r rs ih =>
    obtain ⟨_, _, hrest⟩ := h
    rw [List.forall_mem_cons]
    constructor
    · rintro ⟨hr, hrs⟩
      exact (ih hrest hr).mp hrs
    · intro hstop
      have hr : r.stop ≤ n := Nat.le_trans hrest.le hstop
      exact ⟨hr, (ih hrest hr).mpr hstop⟩

/-- Each range of a tiling stops before any later one starts. -/
theorem Tiles.pairwise (h : Tiles start rs stop) : rs.Pairwise fun r s => r.stop ≤ s.start := by
  induction rs generalizing start with
  | nil => exact .nil
  | cons r rs ih =>
    obtain ⟨_, _, hrest⟩ := h
    exact .cons (fun s hs => (hrest.mem_bounds hs).1) (ih hrest)

/-! ## Positions -/

theorem Tiles.not_covers_of_lt (h : Tiles start rs stop) (hp : p < start) (hr : r ∈ rs) :
    ¬ r.Covers p := fun hc => by
  have := (h.mem_bounds hr).1
  have := hc.1
  omega

/-- A position between the ends of a tiling belongs to exactly one range of it. -/
theorem Tiles.filter_covers (h : Tiles start rs stop) (hstart : start ≤ p) (hstop : p < stop) :
    ∃ r, r.Covers p ∧ rs.filter (·.Covers p) = [r] := by
  induction rs generalizing start with
  | nil => exact absurd (Nat.le_of_eq h.symm) (by omega)
  | cons r rs ih =>
    obtain ⟨rfl, hle, hrest⟩ := h
    -- Either the first range covers the position, or some range behind it does, and never both.
    by_cases hp : p < r.stop
    · have hnone : rs.filter (·.Covers p) = [] := by
        simpa using fun s hs => hrest.not_covers_of_lt hp hs
      exact ⟨r, ⟨hstart, hp⟩, by rw [List.filter_cons_of_pos (by simpa using ⟨hstart, hp⟩), hnone]⟩
    · obtain ⟨s, hs, heq⟩ := ih hrest (by omega)
      exact ⟨s, hs, by rw [List.filter_cons_of_neg (by simp [Covers, hp]), heq]⟩

/-! ## Partitions -/

/-- The ranges cut a line of `width` positions up: one behind the other, from the first position to
the last, so that every position belongs to exactly one of them. -/
structure Partition (rs : List BitRange) (width : Nat) : Prop where
  ordered : ∀ r ∈ rs, r.start ≤ r.stop
  first : ∀ r, rs.head? = some r → r.start = 0
  next : rs.IsChain fun r s => s.start = r.stop
  last : (rs.getLast?.map (·.stop)).getD 0 = width
  disjoint : rs.Pairwise fun r s => r.overlaps s = false
  unique : ∀ p < width, ∃! i : Nat, ∃ r, rs[i]? = some r ∧ r.Covers p

theorem Tiles.isChain (h : Tiles start rs stop) : rs.IsChain fun r s => s.start = r.stop := by
  induction rs generalizing start with
  | nil => exact .nil
  | cons r rs ih =>
    obtain ⟨_, _, hrest⟩ := h
    cases rs with
    | nil => exact .singleton r
    | cons s rs => exact .cons_cons hrest.1 (ih hrest)

theorem Tiles.getLast? (h : Tiles start rs stop) :
    (rs.getLast?.map (·.stop)).getD start = stop := by
  induction rs generalizing start with
  | nil => exact h
  | cons r rs ih =>
    obtain ⟨_, _, hrest⟩ := h
    rw [List.getLast?_cons, ← ih hrest]
    cases rs.getLast? <;> rfl

/-- Two ranges of a tiling that share a position are the same one. -/
theorem Tiles.index_unique (h : Tiles start rs stop) {i j : Nat} {s : BitRange}
    (hi : rs[i]? = some r) (hj : rs[j]? = some s) (hr : r.Covers p) (hs : s.Covers p) : i = j := by
  -- Of two ranges at different places, the earlier one stops before the other starts.
  have hbefore : ∀ {i j : Nat} {r s : BitRange}, rs[i]? = some r → rs[j]? = some s → i < j →
      r.stop ≤ s.start := by
    intro i j r s hi hj hij
    obtain ⟨hi', rfl⟩ := List.getElem?_eq_some_iff.mp hi
    obtain ⟨hj', rfl⟩ := List.getElem?_eq_some_iff.mp hj
    exact List.pairwise_iff_getElem.mp h.pairwise i j hi' hj' hij
  rcases Nat.lt_trichotomy i j with hlt | heq | hgt
  · have := hbefore hi hj hlt
    have := hr.2
    have := hs.1
    omega
  · exact heq
  · have := hbefore hj hi hgt
    have := hs.2
    have := hr.1
    omega

theorem Tiles.partition (h : Tiles 0 rs stop) : Partition rs stop where
  ordered := fun r hr => (h.mem_bounds hr).2.1
  first := by
    cases rs with
    | nil => simp
    | cons r rs => simpa using h.1
  next := h.isChain
  last := h.getLast?
  disjoint := h.pairwise.imp fun {r s} hle => by simp [overlaps, Nat.not_lt.mpr hle]
  unique := by
    intro p hp
    obtain ⟨r, hr, hfilter⟩ := h.filter_covers (Nat.zero_le p) hp
    have hmem : r ∈ rs := List.mem_of_mem_filter (hfilter ▸ List.mem_singleton_self r)
    obtain ⟨i, hi⟩ := List.mem_iff_getElem?.mp hmem
    refine ⟨i, ⟨r, hi, hr⟩, ?_⟩
    rintro j ⟨s, hj, hs⟩
    exact h.index_unique hj hi hs hr

end WitnessLift.BitRange
