-- SUMMARY: Lifting part of a trace yields a prefix of lifting all of it.
import WitnessLift.Proofs.Lift.Delivery
import WitnessLift.Proofs.Lift.Outcome

/-!
# Lifting a trace that grows

A trace may be lifted while it is being written. What has been lifted of it stays, and once a run
has ended for another reason than the end of its trace, no more lines are looked at.
-/

namespace WitnessLift

/-- A run either comes to the end of its lines, and goes on with more of them from there, or it ends
before, and more lines change nothing. -/
theorem Lifter.run_append (l : Lifter) {σ : Type} (sink : Sink σ) (stage : Stage) (number : Nat)
    (s : σ) (log : List Event) (lines more : List (Option (List Char))) :
    (∃ stage' number' s' log',
        l.run sink stage number s log lines =
            ⟨.error (.unexpectedEnd number' stage'.kind), s', log'⟩ ∧
          l.run sink stage number s log (lines ++ more) =
            l.run sink stage' number' s' log' more) ∨
      l.run sink stage number s log (lines ++ more) = l.run sink stage number s log lines := by
  induction lines generalizing stage number s log with
  | nil => exact .inl ⟨stage, number, s, log, rfl, rfl⟩
  | cons line lines ih =>
    cases line with
    | none => exact .inr rfl
    | some full =>
      rw [List.cons_append, Lifter.run, Lifter.run]
      cases l.step (number + 1) (Text.trim full) stage with
      | error e => exact .inr rfl
      | ok move =>
        cases move with
        | dismiss result => exact .inr rfl
        | finish frames => exact .inr rfl
        | next first stage' =>
          dsimp only
          rcases sink.putAll s first with ⟨s', _ | cause⟩
          · exact ih stage' (number + 1) s' _
          · exact .inr rfl

/-- A run that has kept some lines keeps them. -/
theorem Lifter.exists_run_collect_eq (l : Lifter) (stage : Stage) (number : Nat)
    (kept : Array WitnessLine) (log : List Event) (lines : List (Option (List Char))) :
    ∃ written : List WitnessLine,
      (l.run Sink.collect stage number kept log lines).sink = kept ++ written.toArray := by
  obtain ⟨written, hkept, _⟩ := l.run_eq_deliver Sink.collect stage number kept log kept log lines
  exact ⟨written, hkept⟩

namespace Layout

/-- What is lifted of a trace is the beginning of what is lifted of a longer one. -/
theorem output_prefix_of_lines (layout : Layout) (names : Bool) {t u : Text.Bytes}
    (h : Text.lines? (t ++ u) = Text.lines? t ++ Text.lines? u) :
    layout.output names t <+: layout.output names (t ++ u) := by
  have hlift : layout.lift (t ++ u) = layout.lifter.run Sink.collect .header 0 #[] []
      (Text.lines? t ++ Text.lines? u) := congrArg _ h
  rw [output_eq_flatMap, output_eq_flatMap, hlift]
  rcases layout.lifter.run_append Sink.collect .header 0 #[] [] (Text.lines? t) (Text.lines? u) with
    ⟨stage, number, kept, log, hend, hmore⟩ | hsame
  · have hkept : (layout.lift t).sink = kept := congrArg Run.sink hend
    obtain ⟨written, hwritten⟩ :=
      layout.lifter.exists_run_collect_eq stage number kept log (Text.lines? u)
    rw [hmore, hwritten, hkept, Array.toList_append, List.flatMap_append]
    exact List.prefix_append _ _
  · rw [hsame]
    exact List.prefix_rfl

/-- If more is written behind a trace that ends with a line feed, what has been lifted of it stays.
If lifting it has ended for another reason than the end of the trace, then with the same result, the
same witness and the same log for whatever is written behind it, and for every sink. -/
theorem lift_online (layout : Layout) (names : Bool) {t : Text.Bytes}
    (h : t = [] ∨ t.getLast? = some '\n'.toUInt8) (u : Text.Bytes) :
    layout.output names t <+: layout.output names (t ++ u) ∧
      ∀ (σ : Type) (sink : Sink σ) (s : σ),
        (∀ line expected,
          (layout.liftInto sink s t).result ≠ .error (.unexpectedEnd line expected)) →
        layout.liftInto sink s (t ++ u) = layout.liftInto sink s t := by
  have hlines := Text.lines?_append h u
  refine ⟨layout.output_prefix_of_lines names hlines, ?_⟩
  intro σ sink s hended
  rw [liftInto, hlines]
  rcases layout.lifter.run_append sink .header 0 s [] (Text.lines? t) (Text.lines? u) with
    ⟨stage, number, s', log, hend, _⟩ | hsame
  · exact absurd (congrArg Run.result hend) (hended number stage.kind)
  · exact hsame

/-- A trace of the mixed model up to its full stop, with a line feed behind it. -/
def mixedEnded : Text.Bytes := Text.encode "sat\nb0\nxx101\n11010 \n0011x001\n.\n".toList

theorem lift_mixedEnded : (mixed.lift mixedEnded).result = .ok (some 1) := by
  have hbegins : mixedRecording.Begins mixedEnded :=
    ⟨["sat", "b0", "xx101", "11010 ", "0011x001", "."].map String.toList, [], by decide, by decide⟩
  exact ((Of.of_build build_mixed).lift_recording true admits_mixed hbegins).1

theorem lift_online_mixed :
    mixedEnded.getLast? = some '\n'.toUInt8 ∧
      (∀ line expected, (mixed.lift mixedEnded).result ≠ .error (.unexpectedEnd line expected)) ∧
      mixed.output true mixedEnded <+: mixed.output true (mixedEnded ++ Text.encode "1\n".toList) ∧
      mixed.lift (mixedEnded ++ Text.encode "1\n".toList) = mixed.lift mixedEnded := by
  have hlast : mixedEnded.getLast? = some '\n'.toUInt8 := by decide
  have hended : ∀ line expected,
      (mixed.lift mixedEnded).result ≠ .error (.unexpectedEnd line expected) := by
    intro line expected hend
    rw [lift_mixedEnded] at hend
    cases hend
  obtain ⟨hstays, hsame⟩ := lift_online mixed true (.inr hlast) (Text.encode "1\n".toList)
  exact ⟨hlast, hended, hstays, hsame _ Sink.collect #[] hended⟩

end Layout

end WitnessLift
