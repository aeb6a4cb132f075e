-- SUMMARY: Lifting where the witness does not fit: the error, its blame and the clean-up.
import WitnessLift.Proofs.Lift.Leftovers

/-!
# Lifting into limited room

A write fails where the bytes do not fit, and leaves the first ones of them in the file. It is the
last thing that can go wrong before a witness is moved into place. A lifting that meets it blames
the trace, cleans up as after any other fault of the trace, and leaves no part of the witness.
-/

namespace WitnessLift

open FileStore

/-! ## Traces without a counterexample -/

namespace Lifter

variable {σ : Type} {l : Lifter} {sink : Sink σ} {stage : Stage} {number : Nat}

/-- Only the first line dismisses a trace, and no line leads back to it. -/
theorem stage_of_step {line : List Char} {move : Move} (h : l.step number line stage = .ok move) :
    match move with
    | .next _ next => next ≠ .header
    | .dismiss _ => stage = .header
    | .finish _ => True := by
  cases stage with
  | header =>
    simp only [step] at h
    split_ifs at h <;> cases h
    · exact Stage.noConfusion
    · rfl
  | property =>
    cases h
    exact Stage.noConfusion
  | init =>
    simp only [step, Fault.bind_eq_ok_iff] at h
    obtain ⟨bits, -, initial, -, h⟩ := h
    cases h
    exact Stage.noConfusion
  | latches k initial =>
    simp only [step] at h
    split_ifs at h
    · cases h
      trivial
    · simp only [Fault.bind_eq_ok_iff] at h
      obtain ⟨bits, -, -, -, h⟩ := h
      cases h
      exact Stage.noConfusion
  | inputs k initial latches =>
    simp only [step] at h
    split_ifs at h
    simp only [Fault.bind_eq_ok_iff] at h
    obtain ⟨bits, -, -, -, lines, -, h⟩ := h
    cases h
    exact Stage.noConfusion

/-- A run that finds no counterexample has given nothing to its sink. -/
theorem run_of_none {s : σ} {log : List Event} {lines : List (Option (List Char))}
    (h : (l.run sink stage number s log lines).result = .ok none) :
    stage = .header ∧ (l.run sink stage number s log lines).sink = s := by
  induction lines generalizing stage number s log with
  | nil => cases h
  | cons line lines ih =>
    cases line with
    | none => cases h
    | some full =>
      simp only [Lifter.run] at h ⊢
      cases hstep : l.step (number + 1) (Text.trim full) stage with
      | error e =>
        rw [hstep] at h
        cases h
      | ok move =>
        have hmove := stage_of_step hstep
        rw [hstep] at h
        cases move with
        | dismiss result => exact ⟨hmove, rfl⟩
        | finish frames =>
          rcases hput : sink.put s .stop with ⟨s', _ | cause⟩ <;> simp [hput] at h
        | next first stage' =>
          rcases hput : sink.putAll s first with ⟨s', _ | cause⟩
          · simp only [hput] at h
            exact absurd (ih h).1 hmove
          · simp [hput] at h

end Lifter

theorem Layout.output_of_none {layout : Layout} {trace : Text.Bytes}
    (h : (layout.lift trace).result = .ok none) (names : Bool) :
    layout.output names trace = [] := by
  rw [output_eq_flatMap, lift, liftInto, (Lifter.run_of_none h).2]
  rfl

/-! ## What fits -/

/-- What becomes of writing bytes into a file that takes `room` of them. -/
def Disk.fit (room : Nat) (cause : StorageError) (content : Text.Bytes) :
    Except StorageError Unit :=
  if content.length ≤ room then .ok () else .error cause

/-- The end of a run whose first `room` bytes can be written. A fault of the run comes first. -/
def Run.within (r : Run Text.Bytes) (room : Nat) (cause : StorageError) : Run Text.Bytes where
  result := r.result <* (Disk.fit room cause r.sink).mapError .storage
  sink := r.sink.take room
  log := r.log

namespace Run

variable {r : Run Text.Bytes} {room : Nat} {cause : StorageError}

theorem within_of_le (h : r.sink.length ≤ room) (cause : StorageError) :
    r.within room cause = r := by
  obtain ⟨result, sink, log⟩ := r
  simp only [within, Disk.fit, if_pos h, List.take_of_length_le h]
  cases result <;> rfl

theorem within_of_error {e : TraceError} (h : r.result = .error e) :
    (r.within room cause).result = .error e := by
  rw [within, h]
  rfl

theorem within_of_lt {frames : Option Nat} (h : r.result = .ok frames)
    (hfull : room < r.sink.length) : (r.within room cause).result = .error (.storage cause) := by
  rw [within, h, Disk.fit, if_neg (Nat.not_le.mpr hfull)]
  rfl

end Run

/-! ## A disk without room -/

namespace Disk

/-- Work on a tree of files in which a file takes `room` bytes. -/
def Within (_room : Nat) (_cause : StorageError) : Type → Type := Work

namespace Within

variable {room : Nat} {cause : StorageError} {α β : Type} {a : α} {s s' : Session}

instance : Monad (Within room cause) := inferInstanceAs (Monad Work)

/-- What does not fit is cut off, and that is an error. All else is as it is with room. -/
instance : FileStore (Within room cause) Place Place :=
  { (inferInstance : FileStore Work Place Place) with
    write := fun p content s =>
      (fit room cause content, { s with disk := s.disk.put p (.file (content.take room)) }) }

/-- What is done to a tree, and what comes of it. -/
def run (x : Within room cause α) (s : Session) : α × Session := (show Work α from x).run s

theorem run_bind {x : Within room cause α} (h : x.run s = (a, s')) (f : α → Within room cause β) :
    (x >>= f).run s = (f a).run s' :=
  Work.run_bind h f

theorem run_read (p : Place) (s : Session) :
    (FileStore.read (m := Within room cause) p).run s = (s.disk.read p, s) := rfl

theorem run_write (p : Place) (content : Text.Bytes) (s : Session) :
    (write (m := Within room cause) p content).run s =
      (fit room cause content, { s with disk := s.disk.put p (.file (content.take room)) }) := rfl

theorem run_tellAll (events : List Event) (s : Session) :
    (tellAll (m := Within room cause) events).run s =
      ((), { s with log := s.log ++ events }) := by
  induction events generalizing s with
  | nil => rw [List.append_nil]; rfl
  | cons e events ih =>
    rw [List.append_cons]
    exact ih _

end Within

namespace Session

variable {s : Session} {layout : Layout} {names : Bool} {trace target : Path} {q : Place}
  {r : Run Text.Bytes} {room : Nat} {cause : StorageError} {frames : Nat}

/-- Lifts the trace in one file to a witness in another, which takes `room` bytes. -/
def liftFileWithin (s : Session) (room : Nat) (cause : StorageError) (layout : Layout)
    (names : Bool) (trace target : Path) : Except LiftError (Option Nat) × Session :=
  Within.run (WitnessLift.liftFile (m := Within room cause) layout names trace target).run s

/-- Of the bytes that a trace becomes, the first ones are in the file. -/
theorem run_transfer_within (s : Session) (room : Nat) (cause : StorageError) (layout : Layout)
    (names : Bool) (source q : Place) :
    (transfer (m := Within room cause) layout names source q).run
        { s with disk := s.disk.put q (.file []) } =
      (((s.attempt layout names source q).within room cause).result,
        s.received q ((s.attempt layout names source q).within room cause)) := by
  rw [transfer, Within.run_bind (Within.run_read source _), attempt, received]
  cases (s.disk.put q (.file [])).read source with
  | error e =>
    simp only [Run.within, List.take_nil, List.append_nil]
    rfl
  | ok bytes =>
    simp only
    rw [Within.run_bind (Within.run_tellAll _ _), Within.run_bind (Within.run_write _ _ _), put_put]
    rfl

theorem Started.liftFileWithin_eq (h : s.Started layout names trace target q r) (room : Nat)
    (cause : StorageError) :
    s.liftFileWithin room cause layout names trace target =
      s.settled trace target q (r.within room cause) := by
  obtain ⟨⟨source, hopen, rfl⟩, hscratch⟩ := h
  have hsource := Work.run_blame trace (Work.run_openFile trace s)
  rw [hopen] at hsource
  have hcreate := Work.run_blame target.scratch (Work.run_create hscratch)
  have htransfer := Work.run_lift (s.run_transfer_within room cause layout names source q)
  refine (Work.run_bind_ok hsource _).trans ((Work.run_bind_ok hcreate _).trans
    ((Work.run_bind_ok htransfer _).trans ?_))
  rw [settled]
  generalize ((s.attempt layout names source q).within room cause).result = result
  rcases result with e | _ | frames <;> rfl

/-! ## How a lifting ends -/

/-- A lifting that does not start writes nothing, so that room makes no difference to it. -/
theorem liftFileWithin_of_not_started (h : ¬ ∃ q r, s.Started layout names trace target q r)
    (room : Nat) (cause : StorageError) :
    s.liftFileWithin room cause layout names trace target =
      s.liftFile layout names trace target := by
  have hsource := Work.run_blame trace (Work.run_openFile trace s)
  cases hopen : s.disk.openFile trace with
  | error e =>
    rw [hopen] at hsource
    rw [liftFile_of_openFile_error hopen]
    exact Work.run_bind_error hsource _
  | ok source =>
    rw [hopen] at hsource
    cases hscratch : s.disk.creatable target.scratch with
    | error e =>
      have hcreate := Work.run_blame target.scratch (Work.run_create_error hscratch)
      rw [liftFile_of_create_error hopen hscratch]
      exact (Work.run_bind_ok hsource _).trans (Work.run_bind_error hcreate _)
    | ok q => exact absurd ⟨q, _, ⟨source, hopen, rfl⟩, hscratch⟩ h

/-- Where there is nothing to lift, there is nothing to write. -/
theorem Started.sink_of_none (h : s.Started layout names trace target q r)
    (hresult : r.result = .ok none) : r.sink = [] := by
  obtain ⟨⟨source, -, rfl⟩, -⟩ := h
  rw [attempt] at hresult ⊢
  cases hread : (s.disk.put q (.file [])).read source with
  | error e => rfl
  | ok bytes =>
    rw [hread] at hresult
    exact Layout.output_of_none hresult names

/-- Room makes no difference to a lifting that has no witness, or one that fits. -/
theorem Started.liftFileWithin_of_le (h : s.Started layout names trace target q r)
    (hfits : ∀ frames, r.result = .ok (some frames) → r.sink.length ≤ room)
    (cause : StorageError) :
    s.liftFileWithin room cause layout names trace target =
      s.liftFile layout names trace target := by
  rw [h.liftFileWithin_eq, h.liftFile_eq]
  rcases hresult : r.result with e | _ | frames
  · rw [settled_of_error h.scratch hresult,
      settled_of_error h.scratch (Run.within_of_error hresult)]
    rfl
  · rw [Run.within_of_le (by simp [h.sink_of_none hresult])]
  · rw [Run.within_of_le (hfits frames hresult)]

/-- Where a witness does not fit, that is blamed on the trace. The scratch file is swept away, and
so is an earlier witness. -/
theorem Started.liftFileWithin_of_lt (h : s.Started layout names trace target q r)
    (hresult : r.result = .ok (some frames)) (hfull : room < r.sink.length)
    (cause : StorageError) :
    s.liftFileWithin room cause layout names trace target =
      (.error (.trace trace (.storage cause)),
        ⟨(s.disk.erase q).discard target, s.log ++ r.log ++
          if s.disk.isDirectory target then [.removeFailed target.text .isDirectory] else []⟩) := by
  rw [h.liftFileWithin_eq, settled_of_error h.scratch (Run.within_of_lt hresult hfull)]
  rfl

/-- Of all liftings only one with a witness that does not fit ends otherwise than with room. -/
theorem liftFileWithin_cases (s : Session) (room : Nat) (cause : StorageError) (layout : Layout)
    (names : Bool) (trace target : Path) :
    s.liftFileWithin room cause layout names trace target =
        s.liftFile layout names trace target ∨
      ∃ q r frames, s.Started layout names trace target q r ∧ r.result = .ok (some frames) ∧
        room < r.sink.length ∧
        s.liftFileWithin room cause layout names trace target =
          (.error (.trace trace (.storage cause)),
            ⟨(s.disk.erase q).discard target, s.log ++ r.log ++
              if s.disk.isDirectory target then [.removeFailed target.text .isDirectory]
              else []⟩) := by
  by_cases hstarted : ∃ q r, s.Started layout names trace target q r
  · obtain ⟨q, r, h⟩ := hstarted
    by_cases hfits : ∀ frames, r.result = .ok (some frames) → r.sink.length ≤ room
    · exact .inl (h.liftFileWithin_of_le hfits cause)
    · push Not at hfits
      obtain ⟨frames, hresult, hfull⟩ := hfits
      exact .inr ⟨q, r, frames, h, hresult, hfull, h.liftFileWithin_of_lt hresult hfull cause⟩
  · exact .inl (liftFileWithin_of_not_started hstarted room cause)

/-- A lifting in limited room is one with room enough, unless there is a witness that does not fit.
Then the error of the write is blamed on the trace, and neither the witness nor its scratch file nor
an earlier witness is left. Nothing else changes. -/
theorem liftFileWithin_spec (room : Nat) (cause : StorageError) (layout : Layout) (names : Bool)
    {bytes : Text.Bytes} (htrace : s.disk.stat trace = .ok (.file bytes))
    (hscratch : s.disk.creatable target.scratch = .ok q)
    (hplaces : s.disk.locate trace ≠ s.disk.locate target.scratch) :
    let out := s.liftFileWithin room cause layout names trace target
    ((∀ frames, (layout.lift bytes).result = .ok (some frames) →
          (layout.output names bytes).length ≤ room) →
        out = s.liftFile layout names trace target) ∧
      ∀ frames, (layout.lift bytes).result = .ok (some frames) →
        room < (layout.output names bytes).length →
        out.1 = .error (.trace trace (.storage cause)) ∧
          out.2.disk.Vacant target ∧ out.2.disk.stat target.scratch = .error .notFound ∧
          out.2.log = s.log ++ (layout.lift bytes).log ++
            (if s.disk.isDirectory target then [.removeFailed target.text .isDirectory] else []) ∧
          Confined s.disk out.2.disk target := by
  have h := started_of_stat layout names htrace hscratch hplaces
  constructor
  · intro hfits
    exact h.liftFileWithin_of_le hfits cause
  · intro frames hresult hfull
    rw [h.liftFileWithin_of_lt hresult hfull]
    exact ⟨rfl, vacant_discard _ _, stat_discard hscratch, rfl, confined_discard hscratch⟩

/-! ## No part of a witness -/

/-- A file in the place of the witness is the whole witness, once a lifting has started. -/
theorem Started.eq_of_stat (h : s.Started layout names trace target q r) (hne : target.text ≠ "")
    {content : Text.Bytes}
    (hstat : (s.liftFile layout names trace target).2.disk.stat target = .ok (.file content)) :
    content = r.sink ∧ ∃ frames, (s.liftFile layout names trace target).1 = .ok (some frames) := by
  by_cases hsome : ∃ frames, r.result = .ok (some frames)
  · obtain ⟨frames, hresult⟩ := hsome
    have hspec := (h.spec_of_frames hne hresult).1
    split_ifs at hspec with hdirectory
    · obtain ⟨cause, herror⟩ := hspec
      have hvacant := (h.stat_of_frames hresult (by simp [herror])).2.1
      exact absurd hstat (hvacant content)
    · obtain ⟨hout, hwhole, -⟩ := hspec
      rw [hwhole] at hstat
      cases hstat
      exact ⟨rfl, frames, hout⟩
  · exact absurd hstat ((h.vacant (not_exists.mp hsome)).1 content)

/-- So it is in limited room. -/
theorem Started.eq_of_stat_within (h : s.Started layout names trace target q r)
    (hne : target.text ≠ "") {content : Text.Bytes}
    (hstat : (s.liftFileWithin room cause layout names trace target).2.disk.stat target =
      .ok (.file content)) :
    content = r.sink ∧
      ∃ frames, (s.liftFileWithin room cause layout names trace target).1 = .ok (some frames) := by
  rcases s.liftFileWithin_cases room cause layout names trace target with
    hsame | ⟨q', r', frames, -, -, -, hfull⟩
  · rw [hsame] at hstat ⊢
    exact h.eq_of_stat hne hstat
  · rw [hfull] at hstat
    exact absurd hstat (vacant_discard _ _ content)

end Session

end Disk

end WitnessLift
