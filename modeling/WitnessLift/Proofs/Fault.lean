-- SUMMARY: Lists of steps that may fail: a list fails with the first fault and only with that.
/-!
# Faults

Steps that may fail, each judged by a function that finds its fault. A list of steps fails with the
first fault, and only with that.
-/

namespace WitnessLift.Fault

/-- The result of a step: its fault if it has one, else a value. -/
def judge (fault : Option ε) (value : α) : Except ε α :=
  match fault with
  | some e => .error e
  | none => .ok value

variable {ε α β : Type} {e : ε} {l : List α}

@[simp] theorem judge_some (value : β) : judge (some e) value = .error e := rfl

@[simp] theorem judge_none (value : β) : judge (none : Option ε) value = .ok value := rfl

theorem judge_eq_error_iff {found : Option ε} {value : β} :
    judge found value = .error e ↔ found = some e := by
  cases found <;> simp

theorem judge_eq_ok_iff {found : Option ε} {value b : β} :
    judge found value = .ok b ↔ found = none ∧ value = b := by
  cases found <;> simp

/-- Of two steps the first fault counts. -/
theorem judge_bind {first second : Option ε} {value : α} {f : α → Except ε β} {result : β}
    (h : f value = judge second result) :
    (judge first value >>= f) = judge (first.or second) result := by
  cases first with
  | some e => rfl
  | none => exact h

theorem judge_bind_ok {first : Option ε} {value : α} {f : α → Except ε β} {result : β}
    (h : f value = .ok result) : (judge first value >>= f) = judge first result := by
  cases first with
  | some e => rfl
  | none => exact h

theorem forM_eq_judge (fault : α → Option ε) {f : α → Except ε Unit}
    (h : ∀ a ∈ l, f a = judge (fault a) ()) :
    l.forM f = judge (l.findSome? fault) () := by
  induction l with
  | nil => rfl
  | cons a l ih =>
    obtain ⟨ha, hl⟩ := List.forall_mem_cons.mp h
    have hcons : (a :: l).forM f = f a >>= fun _ => l.forM f := List.forM_cons
    rw [hcons, ha, ih hl, List.findSome?_cons]
    cases fault a <;> rfl

theorem mapM_eq_judge (fault : α → Option ε) {f : α → Except ε β} {g : α → β}
    (h : ∀ a ∈ l, f a = judge (fault a) (g a)) :
    l.mapM f = judge (l.findSome? fault) (l.map g) := by
  induction l with
  | nil => rfl
  | cons a l ih =>
    obtain ⟨ha, hl⟩ := List.forall_mem_cons.mp h
    rw [List.mapM_cons, ha, ih hl, List.findSome?_cons]
    cases fault a with
    | some e => rfl
    | none => cases l.findSome? fault <;> rfl

theorem mapM_eq_ok {f : α → Except ε β} {g : α → β} (h : ∀ a ∈ l, f a = .ok (g a)) :
    l.mapM f = .ok (l.map g) := by
  rw [mapM_eq_judge (fun _ => none) h, List.findSome?_eq_none_iff.mpr fun _ _ => rfl]
  rfl

/-! ## Results of steps in a row -/

variable {b : β} {x : Except ε α}

theorem map_eq_ok_iff {f : α → β} : f <$> x = .ok b ↔ ∃ a, x = .ok a ∧ f a = b := by
  cases x <;> simp [Functor.map, Except.map]

theorem eq_ok_of_toOption {a : α} (h : x.toOption = some a) : x = .ok a := by
  cases x with
  | error e => cases h
  | ok value => exact congrArg Except.ok (Option.some.inj h)

theorem map_eq_error_iff {f : α → β} : f <$> x = .error e ↔ x = .error e := by
  cases x <;> simp [Functor.map, Except.map]

theorem bind_eq_ok_iff {f : α → Except ε β} :
    (x >>= f) = .ok b ↔ ∃ a, x = .ok a ∧ f a = .ok b := by
  cases x <;> simp [bind, Except.bind]

/-- Of two steps either the first fails, or the second one does with what the first one yields. -/
theorem bind_eq_error_iff {f : α → Except ε β} :
    (x >>= f) = .error e ↔ x = .error e ∨ ∃ a, x = .ok a ∧ f a = .error e := by
  cases x <;> simp [bind, Except.bind]

end WitnessLift.Fault
