-- SUMMARY: Every sink is given the same lines, and one of limited room keeps their first bytes.
import WitnessLift.Lift.Run
import WitnessLift.Proofs.Lift.Sink

/-!
# Delivery

A run gives its lines to a sink one after the other, and the first one that the sink fails on ends
the run. So every sink is given the lines that a sink which keeps all lines ends up with, and one of
limited room ends up with the first bytes of them.
-/

namespace WitnessLift

/-! ## Lines on their way to a sink -/

/-- The end of a run that has these lines for a sink, and this result if the sink takes them all. -/
def Sink.deliver {σ : Type} (sink : Sink σ) (s : σ) (lines : List WitnessLine)
    (result : Except TraceError (Option Nat)) : Except TraceError (Option Nat) × σ :=
  match sink.putAll s lines with
  | (s, none) => (result, s)
  | (s, some cause) => (.error (.storage cause), s)

namespace Sink

variable {σ : Type} {sink : Sink σ} {s s' : σ} {lines : List WitnessLine}

theorem deliver_append_of_none (h : sink.putAll s lines = (s', none)) (more : List WitnessLine)
    (result : Except TraceError (Option Nat)) :
    sink.deliver s (lines ++ more) result = sink.deliver s' more result := by
  rw [deliver, putAll_append_of_none h]
  rfl

theorem deliver_append_of_some {cause : StorageError}
    (h : sink.putAll s lines = (s', some cause)) (more : List WitnessLine)
    (result : Except TraceError (Option Nat)) :
    sink.deliver s (lines ++ more) result = (.error (.storage cause), s') := by
  rw [deliver, putAll_append_of_some h]

/-- A sink of limited room has the result and the bytes if the bytes fit, and else its own error and
as many of the bytes as fit. -/
theorem deliver_limitedWith (names : Bool) (cause : StorageError) (n : Nat)
    (lines : List WitnessLine) (result : Except TraceError (Option Nat)) :
    ((limitedWith names cause).deliver { room := n } lines result).map id Quota.written =
      if (lines.flatMap (WitnessLine.bytes names)).length ≤ n then
        (result, lines.flatMap (WitnessLine.bytes names))
      else (.error (.storage cause), (lines.flatMap (WitnessLine.bytes names)).take n) := by
  rw [deliver, putAll_limitedWith]
  generalize lines.flatMap (WitnessLine.bytes names) = bytes
  by_cases h : bytes.length ≤ n
  · simp [h, List.take_of_length_le]
  · simp [h]

end Sink

/-! ## Runs -/

/-- A run adds some lines to those that are kept, and every other sink is given the same ones. -/
theorem Lifter.run_eq_deliver (l : Lifter) {σ : Type} (sink : Sink σ) (stage : Stage) (number : Nat)
    (s : σ) (log : List Event) (kept : Array WitnessLine) (log' : List Event)
    (lines : List (Option (List Char))) :
    ∃ written : List WitnessLine,
      (l.run Sink.collect stage number kept log' lines).sink = kept ++ written.toArray ∧
        ((l.run sink stage number s log lines).result,
            (l.run sink stage number s log lines).sink) =
          sink.deliver s written (l.run Sink.collect stage number kept log' lines).result := by
  -- Induction on the lines of the trace. Both runs make the same move, and part where the sink fails.
  induction lines generalizing stage number s log kept log' with
  | nil => exact ⟨[], Array.append_empty.symm, rfl⟩
  | cons line lines ih =>
    cases line with
    | none => exact ⟨[], Array.append_empty.symm, rfl⟩
    | some full =>
      simp only [Lifter.run]
      cases hstep : l.step (number + 1) (Text.trim full) stage with
      | error e => exact ⟨[], Array.append_empty.symm, rfl⟩
      | ok move =>
        cases move with
        | dismiss result => exact ⟨[], Array.append_empty.symm, rfl⟩
        | finish frames =>
          refine ⟨[.stop], Array.push_eq_append, ?_⟩
          rw [Sink.deliver, Sink.putAll]
          rcases sink.put s .stop with ⟨s', _ | cause⟩ <;> rfl
        | next first stage' =>
          obtain ⟨more, hkept, hsink⟩ := ih stage' (number + 1) (sink.putAll s first).1
            (log ++ remarks (Text.trim full) stage) (kept ++ first.toArray)
            (log' ++ remarks (Text.trim full) stage)
          simp only [Sink.putAll_collect]
          refine ⟨first ++ more, by simp [hkept], ?_⟩
          rcases hput : sink.putAll s first with ⟨s', _ | cause⟩
          · rw [Sink.deliver_append_of_none hput]
            rwa [hput] at hsink
          · rw [Sink.deliver_append_of_some hput]

namespace Layout

/-- The bytes of the witness that a trace becomes, as far as it can be lifted. -/
def output (layout : Layout) (names : Bool) (trace : Text.Bytes) : Text.Bytes :=
  Text.encode (WitnessLine.text names (layout.lift trace).sink.toList).toList

theorem output_eq_flatMap (layout : Layout) (names : Bool) (trace : Text.Bytes) :
    layout.output names trace =
      (layout.lift trace).sink.toList.flatMap (WitnessLine.bytes names) :=
  WitnessLine.encode_text names _

/-- A trace that is lifted into a sink ends as its lines do on their way to the sink. -/
theorem liftInto_eq_deliver (layout : Layout) {σ : Type} (sink : Sink σ) (s : σ)
    (trace : Text.Bytes) :
    ((layout.liftInto sink s trace).result, (layout.liftInto sink s trace).sink) =
      sink.deliver s (layout.lift trace).sink.toList (layout.lift trace).result := by
  obtain ⟨written, hkept, hsink⟩ :=
    layout.lifter.run_eq_deliver sink .header 0 s [] #[] [] (Text.lines? trace)
  have hwritten : (layout.lift trace).sink.toList = written := by
    rw [lift, liftInto, hkept]
    simp
  rw [hwritten]
  exact hsink

/-- A sink that takes `n` bytes and then fails ends up with the first `n` bytes of the witness, and a
run that needs more of them ends with the error of the sink, whatever it would have ended with. The
lifter that is given a limit is the case of a sink that is full. -/
theorem lift_into_limited (layout : Layout) (names : Bool) (n : Nat) (trace : Text.Bytes) :
    layout.liftWithin names n trace =
        layout.liftInto (Sink.limitedWith names .full) { room := n } trace ∧
      ∀ cause : StorageError,
        ((layout.liftInto (Sink.limitedWith names cause) { room := n } trace).result,
            (layout.liftInto (Sink.limitedWith names cause) { room := n } trace).sink.written) =
          if (layout.output names trace).length ≤ n then
            ((layout.lift trace).result, layout.output names trace)
          else (.error (.storage cause), (layout.output names trace).take n) := by
  refine ⟨by rw [liftWithin, Sink.limitedWith_full], fun cause => ?_⟩
  have hdeliver := congrArg (Prod.map id Sink.Quota.written)
    (layout.liftInto_eq_deliver (Sink.limitedWith names cause) { room := n } trace)
  rw [Sink.deliver_limitedWith, ← output_eq_flatMap] at hdeliver
  exact hdeliver

end Layout

end WitnessLift
