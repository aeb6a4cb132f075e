-- SUMMARY: Specification of lifting a file: outcome, witness, scratch file, log and frame.
import WitnessLift.Lift.Files
import WitnessLift.Proofs.Lift.Delivery
import WitnessLift.Proofs.Lift.Outcome
import WitnessLift.Proofs.Storage.Scratch
import WitnessLift.Proofs.Storage.Work

/-!
# Lifting files

What stands in a tree of files after the trace in one file was to become the witness in another.
-/

namespace WitnessLift

open FileStore

/-! ## What a failed run tells -/

namespace Lifter

variable {σ : Type} {l : Lifter} {sink : Sink σ} {stage : Stage} {number : Nat}

/-- A line that is remarked on ends the run, and not with an error. -/
theorem step_of_remarks_ne_nil {line : List Char} (h : remarks line stage ≠ []) :
    l.step number line stage = .ok (.dismiss .unknown) := by
  cases stage with
  | header =>
    rw [remarks, CheckResult.ofHeader] at h
    rw [step, CheckResult.ofHeader]
    split at h
    · cases h rfl
    · rfl
  | property | init | latches | inputs => cases h rfl

/-- A run that fails tells nothing. -/
theorem log_of_run_error {s : σ} {log : List Event} {lines : List (Option (List Char))}
    {cause : TraceError} (h : (l.run sink stage number s log lines).result = .error cause) :
    (l.run sink stage number s log lines).log = log := by
  induction lines generalizing stage number s log with
  | nil => rfl
  | cons line lines ih =>
    cases line with
    | none => rfl
    | some full =>
      by_cases hremarks : remarks (Text.trim full) stage = []
      · simp only [Lifter.run, hremarks, List.append_nil] at h ⊢
        cases hstep : l.step (number + 1) (Text.trim full) stage with
        | error e => rfl
        | ok move =>
          rw [hstep] at h
          cases move with
          | dismiss result => cases h
          | finish frames =>
            rcases hput : sink.put s .stop with ⟨s', _ | _⟩
            · simp only [hput] at h
              cases h
            · rfl
          | next first stage' =>
            rcases hput : sink.putAll s first with ⟨s', _ | _⟩
            · simp only [hput] at h ⊢
              exact ih h
            · simp only [hput]
      · rw [Lifter.run, step_of_remarks_ne_nil hremarks] at h
        cases h

end Lifter

/-! ## Faults that are blamed on a path -/

namespace Disk.Work

variable {α β : Type} {a : α} {s s' : Session} {e : LiftError}

theorem run_bind_ok {x : ExceptT LiftError Work α} (h : x.run.run s = (.ok a, s'))
    (f : α → ExceptT LiftError Work β) : (x >>= f).run.run s = (f a).run.run s' := by
  rw [ExceptT.run_bind, run_bind h]

theorem run_bind_error {x : ExceptT LiftError Work α} (h : x.run.run s = (.error e, s'))
    (f : α → ExceptT LiftError Work β) : (x >>= f).run.run s = (.error e, s') := by
  rw [ExceptT.run_bind, run_bind h]
  rfl

theorem run_lift {x : Work α} (h : x.run s = (a, s')) :
    (liftM x : ExceptT LiftError Work α).run.run s = (.ok a, s') := by
  rw [ExceptT.run_liftM, StateT.run_map, h]
  rfl

theorem run_blame {action : Work (Except StorageError α)} {result : Except StorageError α}
    (path : Path) (h : action.run s = (result, s')) :
    (blame path action).run.run s = (result.mapError (.storage path), s') := by
  refine (run_bind h _).trans ?_
  cases result <;> rfl

/-- Of what is swept away only a directory stays, and only that is told. -/
theorem run_sweep (path : Path)
    (h : ∀ cause, s.disk.stat path = .error cause → cause = .notFound) :
    (sweep (m := Work) path).run s =
      ((), ⟨s.disk.discard path,
        s.log ++
          if s.disk.isDirectory path then [.removeFailed path.text .isDirectory] else []⟩) := by
  rw [sweep, run_bind (run_removeStale h)]
  cases s.disk.isDirectory path with
  | true => rfl
  | false =>
    simp only [Bool.false_eq_true, if_false, List.append_nil]
    rfl

end Disk.Work

/-! ## One lifting -/

namespace Disk.Session

open Work

variable {s : Session} {layout : Layout} {names : Bool} {trace target : Path} {q : Place}
  {r : Run Text.Bytes} {cause : StorageError} {frames : Nat}

/-- Lifts the trace in one file to a witness in another. -/
def liftFile (s : Session) (layout : Layout) (names : Bool) (trace target : Path) :
    Except LiftError (Option Nat) × Session :=
  (WitnessLift.liftFile (m := Work) layout names trace target).run.run s

/-- The end of lifting an open trace once the scratch file stands at its place, and the bytes that
the trace becomes. -/
def attempt (s : Session) (layout : Layout) (names : Bool) (source q : Place) : Run Text.Bytes :=
  match (s.disk.put q (.file [])).read source with
  | .ok bytes => ⟨(layout.lift bytes).result, layout.output names bytes, (layout.lift bytes).log⟩
  | .error cause => ⟨.error (.storage cause), [], []⟩

/-- The trace is open, the scratch file stands at its place, and lifting the trace ends in this
way. -/
structure Started (s : Session) (layout : Layout) (names : Bool) (trace target : Path) (q : Place)
    (r : Run Text.Bytes) : Prop where
  source : ∃ source, s.disk.openFile trace = .ok source ∧ s.attempt layout names source q = r
  scratch : s.disk.creatable target.scratch = .ok q

/-- The session once the bytes are in the scratch file, before anything else comes of them. -/
def received (s : Session) (q : Place) (r : Run Text.Bytes) : Session :=
  ⟨s.disk.put q (.file r.sink), s.log ++ r.log⟩

theorem run_transfer (s : Session) (layout : Layout) (names : Bool) (source q : Place) :
    (transfer (m := Work) layout names source q).run { s with disk := s.disk.put q (.file []) } =
      ((s.attempt layout names source q).result,
        s.received q (s.attempt layout names source q)) := by
  rw [transfer, run_bind (run_read source _), attempt, received]
  cases (s.disk.put q (.file [])).read source with
  | error cause =>
    simp only [List.append_nil]
    rfl
  | ok bytes =>
    simp only
    rw [run_bind (run_tellAll _ _), run_bind (run_write _ _ _), put_put]
    cases (layout.lift bytes).result <;> rfl

/-- What becomes of the bytes in the scratch file. -/
def settled (s : Session) (trace target : Path) (q : Place) (r : Run Text.Bytes) :
    Except LiftError (Option Nat) × Session :=
  (settle (m := Work) trace target r.result).run.run (s.received q r)

/-- Every lifting that starts comes to where the bytes are in the scratch file. -/
theorem Started.liftFile_eq (h : s.Started layout names trace target q r) :
    s.liftFile layout names trace target = s.settled trace target q r := by
  obtain ⟨⟨source, hopen, rfl⟩, hscratch⟩ := h
  have hsource := run_blame trace (run_openFile trace s)
  rw [hopen] at hsource
  have hcreate := run_blame target.scratch (run_create hscratch)
  have htransfer := run_lift (run_transfer s layout names source q)
  rw [liftFile, WitnessLift.liftFile, run_bind_ok hsource, run_bind_ok hcreate,
    run_bind_ok htransfer]
  rfl

/-! ## How a lifting ends -/

theorem liftFile_of_openFile_error (h : s.disk.openFile trace = .error cause) :
    s.liftFile layout names trace target = (.error (.storage trace cause), s) := by
  have hopen := run_blame trace (run_openFile trace s)
  rw [h] at hopen
  exact run_bind_error hopen _

theorem liftFile_of_create_error {source : Place} (hopen : s.disk.openFile trace = .ok source)
    (h : s.disk.creatable target.scratch = .error cause) :
    s.liftFile layout names trace target = (.error (.storage target.scratch cause), s) := by
  have hsource := run_blame trace (run_openFile trace s)
  rw [hopen] at hsource
  exact (run_bind_ok hsource _).trans
    (run_bind_error (run_blame target.scratch (run_create_error h)) _)

/-- A witness is moved into place. -/
theorem settled_of_rename (hresult : r.result = .ok (some frames)) {d : Disk}
    (hrename : (s.received q r).disk.rename target.scratch target = .ok d) :
    s.settled trace target q r =
      (.ok (some frames), ⟨d, s.log ++ r.log ++ [.written frames target.text]⟩) := by
  have hmove := run_blame target (run_rename target.scratch target (s.received q r))
  rw [hrename] at hmove
  rw [settled, hresult]
  exact (run_bind_ok hmove _).trans rfl

/-- A witness that cannot be moved into place stays where it is. -/
theorem settled_of_rename_error (hresult : r.result = .ok (some frames))
    (hrename : (s.received q r).disk.rename target.scratch target = .error cause) :
    s.settled trace target q r = (.error (.storage target cause), s.received q r) := by
  have hmove := run_blame target (run_rename target.scratch target (s.received q r))
  rw [hrename] at hmove
  rw [settled, hresult]
  exact run_bind_error hmove _

theorem isDirectory_erase (h : s.disk.creatable target.scratch = .ok q) :
    (s.disk.erase q).isDirectory target = s.disk.isDirectory target :=
  (sameDirectories_erase h).isDirectory_eq target

theorem eq_notFound_of_erase (h : s.disk.creatable target.scratch = .ok q)
    (hstat : (s.disk.erase q).stat target = .error cause) : cause = .notFound :=
  eq_notFound_of_creatable ((sameDirectories_erase h).creatable_eq_ok h) hstat

/-- Where there is nothing to lift, the scratch file goes, and so does an earlier witness. -/
theorem settled_of_none (h : s.disk.creatable target.scratch = .ok q)
    (hresult : r.result = .ok none) :
    s.settled trace target q r =
      (if s.disk.isDirectory target then .error (.storage target .isDirectory) else .ok none,
        ⟨(s.disk.erase q).discard target, s.log ++ r.log⟩) := by
  have hremove := run_blame target.scratch (run_remove target.scratch (s.received q r))
  rw [received, removable_put h, discard_put h] at hremove
  have hstale := run_blame target (run_removeStale (s := ⟨s.disk.erase q, s.log ++ r.log⟩)
    fun cause => eq_notFound_of_erase h)
  rw [isDirectory_erase h] at hstale
  rw [settled, hresult]
  refine (run_bind_ok hremove _).trans ?_
  cases hdirectory : s.disk.isDirectory target with
  | true =>
    rw [hdirectory] at hstale
    exact run_bind_error hstale _
  | false =>
    rw [hdirectory] at hstale
    exact (run_bind_ok hstale _).trans rfl

/-- Where lifting fails, the scratch file is swept away, and so is an earlier witness. -/
theorem settled_of_error (h : s.disk.creatable target.scratch = .ok q) {e : TraceError}
    (hresult : r.result = .error e) :
    s.settled trace target q r =
      (.error (.trace trace e),
        ⟨(s.disk.erase q).discard target, s.log ++ r.log ++
          if s.disk.isDirectory target then [.removeFailed target.text .isDirectory] else []⟩) := by
  have hfile : (s.received q r).disk.stat target.scratch = .ok (.file r.sink) := stat_put h r.sink
  have hscratch := run_sweep target.scratch (s := s.received q r) fun cause hstat => by
    rw [hfile] at hstat
    cases hstat
  simp only [isDirectory, hfile, Bool.false_eq_true, if_false, List.append_nil] at hscratch
  rw [received, discard_put h] at hscratch
  have htarget := run_sweep target (s := ⟨s.disk.erase q, s.log ++ r.log⟩)
    fun cause => eq_notFound_of_erase h
  rw [isDirectory_erase h] at htarget
  rw [settled, hresult]
  refine (run_bind_ok (run_lift hscratch) _).trans ?_
  exact (run_bind_ok (run_lift htarget) _).trans rfl

/-- What is swept away is no longer there. -/
theorem stat_discard (h : s.disk.creatable target.scratch = .ok q) :
    ((s.disk.erase q).discard target).stat target.scratch = .error .notFound := by
  have hscratch := (creatable_eq_ok_iff.mp h).1
  refine ((confined_discard h).directories.names hscratch).stat_eq_notFound ?_
  exact find?_discard_of_none (find?_erase hscratch.ne_nil _) target

namespace Started

theorem stat_received (h : s.Started layout names trace target q r) :
    (s.received q r).disk.stat target.scratch = .ok (.file r.sink) :=
  stat_put h.scratch r.sink

/-- A witness is moved into place, and its scratch file is gone. -/
theorem exists_rename (h : s.Started layout names trace target q r) (hne : target.text ≠ "")
    (hfree : s.disk.isDirectory target = false) :
    ∃ d, (s.received q r).disk.rename target.scratch target = .ok d ∧
      d.stat target = .ok (.file r.sink) ∧ d.stat target.scratch = .error .notFound ∧
      Confined s.disk d target := by
  rcases rename_scratch hne h.scratch r.sink with hdirectory | ⟨p, hnames, hother, hempty, hrename⟩
  · rw [isDirectory_iff.mpr hdirectory] at hfree
    cases hfree
  · have hscratch := (creatable_eq_ok_iff.mp h.scratch).1
    have hconfined := confined_rename h.scratch hnames hother hempty r.sink
    refine ⟨_, hrename, ?_, ?_, hconfined⟩
    · exact stat_eq_file_iff.mpr
        ⟨p, hconfined.directories.names hnames, find?_put hnames.ne_nil _ _⟩
    · refine (hconfined.directories.names hscratch).stat_eq_notFound ?_
      rw [find?_put_ne hother.symm, find?_erase hscratch.ne_nil]

/-- A witness stands in its place, unless a directory stands there. -/
theorem spec_of_frames (h : s.Started layout names trace target q r) (hne : target.text ≠ "")
    (hresult : r.result = .ok (some frames)) :
    (if s.disk.isDirectory target then
        ∃ cause, (s.liftFile layout names trace target).1 = .error (.storage target cause)
      else
        (s.liftFile layout names trace target).1 = .ok (some frames) ∧
          (s.liftFile layout names trace target).2.disk.stat target = .ok (.file r.sink) ∧
          (s.liftFile layout names trace target).2.disk.stat target.scratch = .error .notFound) ∧
      Confined s.disk (s.liftFile layout names trace target).2.disk target := by
  split_ifs with hdirectory
  · have hstat := (sameDirectories_put h.scratch r.sink).stat_eq_directory
      (isDirectory_iff.mp hdirectory)
    obtain ⟨cause, hrename⟩ := rename_of_stat_directory hstat
    rw [h.liftFile_eq, settled_of_rename_error hresult hrename]
    exact ⟨⟨cause, rfl⟩, confined_put h.scratch r.sink⟩
  · obtain ⟨d, hrename, hstat, hgone, hconfined⟩ :=
      h.exists_rename hne (Bool.not_eq_true _ ▸ hdirectory)
    rw [h.liftFile_eq, settled_of_rename hresult hrename]
    exact ⟨⟨rfl, hstat, hgone⟩, hconfined⟩

end Started

/-! ## Liftings that start -/

theorem attempt_of_find? {source : Place} {bytes : Text.Bytes}
    (hfound : s.disk.find? source = some (.file bytes)) (hother : source ≠ q) :
    s.attempt layout names source q =
      ⟨(layout.lift bytes).result, layout.output names bytes, (layout.lift bytes).log⟩ := by
  rw [attempt, Disk.read, find?_put_ne hother, hfound]

theorem started_of_stat (layout : Layout) (names : Bool) {bytes : Text.Bytes}
    (htrace : s.disk.stat trace = .ok (.file bytes))
    (hscratch : s.disk.creatable target.scratch = .ok q)
    (hplaces : s.disk.locate trace ≠ s.disk.locate target.scratch) :
    s.Started layout names trace target q
      ⟨(layout.lift bytes).result, layout.output names bytes, (layout.lift bytes).log⟩ := by
  obtain ⟨source, hopen, hlocate, hfound⟩ := openFile_of_stat htrace
  refine ⟨⟨source, hopen, attempt_of_find? hfound ?_⟩, hscratch⟩
  rintro rfl
  exact hplaces (hlocate.trans (creatable_eq_ok_iff.mp hscratch).1.locate_eq.symm)

/-- A lifting that starts leaves the whole witness or none, and no scratch file. A directory in the
place of the witness stays there: it is an error if nothing else is, and else it is told. Nothing
else changes. -/
theorem liftFile_spec (layout : Layout) (names : Bool) {bytes : Text.Bytes}
    (htrace : s.disk.stat trace = .ok (.file bytes))
    (hscratch : s.disk.creatable target.scratch = .ok q) (htarget : target.text ≠ "")
    (hplaces : s.disk.locate trace ≠ s.disk.locate target.scratch) :
    let result := (s.liftFile layout names trace target).1
    let after := (s.liftFile layout names trace target).2
    (match (layout.lift bytes).result with
      | .ok (some frames) =>
        if s.disk.isDirectory target then ∃ cause, result = .error (.storage target cause)
        else
          result = .ok (some frames) ∧
            after.disk.stat target = .ok (.file (layout.output names bytes)) ∧
            after.disk.stat target.scratch = .error .notFound
      | .ok none =>
        (if s.disk.isDirectory target then ∃ cause, result = .error (.storage target cause)
          else result = .ok none) ∧
          after.disk.Vacant target ∧ after.disk.stat target.scratch = .error .notFound
      | .error e =>
        result = .error (.trace trace e) ∧
          after.disk.Vacant target ∧ after.disk.stat target.scratch = .error .notFound ∧
          after.log = s.log ++
            if s.disk.isDirectory target then [.removeFailed target.text .isDirectory] else []) ∧
      Confined s.disk after.disk target := by
  have h := started_of_stat layout names htrace hscratch hplaces
  cases hresult : (layout.lift bytes).result with
  | ok lifted =>
    cases lifted with
    | some frames => exact h.spec_of_frames htarget hresult
    | none =>
      have hrun := h.liftFile_eq.trans (settled_of_none hscratch hresult)
      dsimp only
      rw [hrun]
      refine ⟨⟨?_, vacant_discard _ _, stat_discard hscratch⟩, confined_discard hscratch⟩
      split_ifs
      · exact ⟨_, rfl⟩
      · rfl
  | error e =>
    have hrun := h.liftFile_eq.trans (settled_of_error hscratch hresult)
    have hlog : (layout.lift bytes).log = [] := Lifter.log_of_run_error hresult
    rw [hlog, List.append_nil] at hrun
    dsimp only
    rw [hrun]
    exact ⟨⟨rfl, vacant_discard _ _, stat_discard hscratch, rfl⟩, confined_discard hscratch⟩

/-- The trace of the mixed model, and a witness from an earlier run. -/
def mixedFiles : Session :=
  ⟨{ entries := [(["m.cex"], .file Layout.mixedTrace), (["m.cexb"], .file [])] }, []⟩

theorem liftFile_spec_mixed :
    mixedFiles.disk.stat ⟨"m.cex"⟩ = .ok (.file Layout.mixedTrace) ∧
      mixedFiles.disk.creatable (Path.scratch ⟨"m.cexb"⟩) = .ok ["m.cexb.tmp"] ∧
      (mixedFiles.liftFile Layout.mixed true ⟨"m.cex"⟩ ⟨"m.cexb"⟩).1 = .ok (some 1) ∧
      (mixedFiles.liftFile Layout.mixed true ⟨"m.cex"⟩ ⟨"m.cexb"⟩).2.disk.stat ⟨"m.cexb"⟩ =
        .ok (.file (Layout.mixed.output true Layout.mixedTrace)) := by
  have htrace : mixedFiles.disk.stat ⟨"m.cex"⟩ = .ok (.file Layout.mixedTrace) := rfl
  have hscratch : mixedFiles.disk.creatable (Path.scratch ⟨"m.cexb"⟩) = .ok ["m.cexb.tmp"] := rfl
  have hspec := (liftFile_spec Layout.mixed true htrace hscratch
    (by decide) (by intro h; cases h)).1
  have hresult := ((Layout.Of.of_build Layout.build_mixed).lift_recording true
    Layout.admits_mixed Layout.begins_mixed).1
  have hfree : mixedFiles.disk.isDirectory ⟨"m.cexb"⟩ = false := rfl
  simp only [hresult, hfree, Bool.false_eq_true, if_false] at hspec
  exact ⟨htrace, hscratch, hspec.1, hspec.2.1⟩

end Disk.Session

end WitnessLift
