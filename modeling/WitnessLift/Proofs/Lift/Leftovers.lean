-- SUMMARY: Which files a lifting that yields no witness can leave behind.
import WitnessLift.Proofs.Lift.Pipeline

/-!
# What is left without a witness

A lifting that yields no witness has stopped before anything was written, or it has written a
witness that it cannot move into place, or it has cleaned up.
-/

namespace WitnessLift.Disk.Session

open Work FileStore

variable {s : Session} {layout : Layout} {names : Bool} {trace target : Path} {q : Place}
  {r : Run Text.Bytes}

/-! ## One trace -/

/-- A lifting that does not start leaves everything as it was. -/
theorem liftFile_of_not_started (h : ¬ ∃ q r, s.Started layout names trace target q r) :
    ∃ e, s.liftFile layout names trace target = (.error e, s) := by
  cases hopen : s.disk.openFile trace with
  | error cause => exact ⟨_, liftFile_of_openFile_error hopen⟩
  | ok source =>
    cases hscratch : s.disk.creatable target.scratch with
    | error cause => exact ⟨_, liftFile_of_create_error hopen hscratch⟩
    | ok q => exact absurd ⟨q, _, ⟨source, hopen, rfl⟩, hscratch⟩ h

/-- A lifting that starts and has nothing to write, or fails, leaves no file. -/
theorem Started.vacant (h : s.Started layout names trace target q r)
    (hresult : ∀ frames, r.result ≠ .ok (some frames)) :
    (s.liftFile layout names trace target).2.disk.Vacant target ∧
      (s.liftFile layout names trace target).2.disk.stat target.scratch = .error .notFound := by
  rcases hr : r.result with e | _ | frames
  · rw [h.liftFile_eq, settled_of_error h.scratch hr]
    exact ⟨vacant_discard _ _, stat_discard h.scratch⟩
  · rw [h.liftFile_eq, settled_of_none h.scratch hr]
    exact ⟨vacant_discard _ _, stat_discard h.scratch⟩
  · exact absurd hr (hresult frames)

/-- A lifting that cannot move the witness that it has written leaves it beside its place, where no
file stands. -/
theorem Started.stat_of_frames (h : s.Started layout names trace target q r) {frames : Nat}
    (hresult : r.result = .ok (some frames))
    (hnone : ∀ frames, (s.liftFile layout names trace target).1 ≠ .ok (some frames)) :
    (∃ cause, (s.liftFile layout names trace target).1 = .error (.storage target cause)) ∧
      (s.liftFile layout names trace target).2.disk.Vacant target ∧
      (s.liftFile layout names trace target).2.disk.stat target.scratch = .ok (.file r.sink) := by
  cases hrename : (s.received q r).disk.rename target.scratch target with
  | error cause =>
    rw [h.liftFile_eq, settled_of_rename_error hresult hrename]
    exact ⟨⟨cause, rfl⟩, vacant_of_rename_error h.scratch hrename, h.stat_received⟩
  | ok d =>
    rw [h.liftFile_eq, settled_of_rename hresult hrename] at hnone
    exact absurd rfl (hnone frames)

/-- A lifting that yields no witness leaves no file at its two paths if it has started and has not
got as far as a whole witness, or if there was no file there before. If it does not start, a witness
from an earlier run stays; and a whole witness that cannot be moved stays in the scratch file. -/
theorem liftFile_vacant_iff
    (h : ∀ frames, (s.liftFile layout names trace target).1 ≠ .ok (some frames)) :
    let after := (s.liftFile layout names trace target).2
    after.disk.Vacant target ∧ after.disk.Vacant target.scratch ↔
      (∃ q r, s.Started layout names trace target q r ∧ ∀ frames, r.result ≠ .ok (some frames)) ∨
        (¬ ∃ q r, s.Started layout names trace target q r) ∧
          s.disk.Vacant target ∧ s.disk.Vacant target.scratch := by
  dsimp only
  by_cases hstarted : ∃ q r, s.Started layout names trace target q r
  · obtain ⟨q, r, hstart⟩ := hstarted
    constructor
    · rintro ⟨-, hscratch⟩
      refine .inl ⟨q, r, hstart, fun frames hresult => ?_⟩
      exact hscratch _ (hstart.stat_of_frames hresult h).2.2
    · rintro (⟨q', r', hstart', hresult⟩ | ⟨hnot, -⟩)
      · obtain ⟨hvacant, hgone⟩ := hstart'.vacant hresult
        refine ⟨hvacant, fun content hstat => ?_⟩
        rw [hgone] at hstat
        cases hstat
      · exact absurd ⟨q, r, hstart⟩ hnot
  · obtain ⟨e, hrun⟩ := liftFile_of_not_started hstarted
    rw [hrun]
    constructor
    · exact fun hvacant => .inr ⟨hstarted, hvacant⟩
    · rintro (⟨q, r, hstart, -⟩ | ⟨-, hvacant⟩)
      · exact absurd ⟨q, r, hstart⟩ hstarted
      · exact hvacant

/-- A witness from an earlier run, and no trace. -/
def staleFiles : Session := ⟨{ entries := [(["m.cexb"], .file [])] }, []⟩

theorem liftFile_staleFiles (target : Path) :
    staleFiles.liftFile Layout.mixed false ⟨"m.cex"⟩ target =
      (.error (.storage ⟨"m.cex"⟩ .notFound), staleFiles) :=
  liftFile_of_openFile_error rfl

theorem liftFile_vacant_iff_staleFiles :
    (∀ frames, (staleFiles.liftFile Layout.mixed false ⟨"m.cex"⟩ ⟨"n.cexb"⟩).1 ≠
        .ok (some frames)) ∧
      (staleFiles.liftFile Layout.mixed false ⟨"m.cex"⟩ ⟨"n.cexb"⟩).2.disk.Vacant ⟨"n.cexb"⟩ := by
  have hnone : ∀ frames, (staleFiles.liftFile Layout.mixed false ⟨"m.cex"⟩ ⟨"n.cexb"⟩).1 ≠
      .ok (some frames) := by
    rw [liftFile_staleFiles]
    rintro frames ⟨⟩
  refine ⟨hnone, ((liftFile_vacant_iff hnone).mpr (.inr ⟨?_, ?_, ?_⟩)).1⟩
  · rintro ⟨q, r, ⟨source, hopen, -⟩, -⟩
    cases hopen
  · rintro content ⟨⟩
  · rintro content ⟨⟩

/-- A witness from an earlier run outlives a lifting that finds no trace. -/
theorem not_liftFile_vacant :
    ¬ ∀ (s : Session) (ds : List Declaration) (layout : Layout) (names : Bool)
      (trace target : Path), Layout.build ds = .ok layout →
      (∀ frames, (s.liftFile layout names trace target).1 ≠ .ok (some frames)) →
        (s.liftFile layout names trace target).2.disk.Vacant target ∧
          (s.liftFile layout names trace target).2.disk.Vacant target.scratch := by
  intro h
  have hvacant := (h staleFiles _ Layout.mixed false ⟨"m.cex"⟩ ⟨"m.cexb"⟩ Layout.build_mixed (by
    rw [liftFile_staleFiles]
    rintro frames ⟨⟩)).1
  rw [liftFile_staleFiles] at hvacant
  exact hvacant [] rfl

/-! ## The trace of a model -/

theorem vacant_of_liftWitness_none {result : CheckResult} {model directory : Path}
    (hresult : result.isCounterexample)
    (h : (s.liftWitness names result model directory).1 = .ok none) :
    (s.liftWitness names result model directory).2.disk.Vacant (model.witness directory) := by
  have hends := ends hresult s names model directory
  generalize (s.liftWitness names result model directory).1 = out at hends h
  generalize (s.liftWitness names result model directory).2.disk = after at hends ⊢
  cases hends with
  | model | trace | scratch => cases h
  | @started layout p q r _ _ hlayout hstarted hnames hother hout htarget hgone hconfined =>
    rw [h, eq_comm] at hout
    obtain ⟨hfree, hnone⟩ := Run.report_eq_none_iff.mp hout
    rw [Run.atTarget, hfree, hnone] at htarget
    intro content hstat
    rw [(hconfined.directories.names hnames).stat_eq_notFound htarget] at hstat
    cases hstat

/-- Where no witness is made for a model, none from an earlier run is left if the trace is what
reports no counterexample. If it is the checker, everything stays as it was. -/
theorem liftWitness_vacant_iff (s : Session) (names : Bool) (result : CheckResult)
    (model directory : Path) (h : (s.liftWitness names result model directory).1 = .ok none) :
    let after := (s.liftWitness names result model directory).2
    after.disk.Vacant (model.witness directory) ↔
      result.isCounterexample ∨ s.disk.Vacant (model.witness directory) := by
  dsimp only
  by_cases hresult : result.isCounterexample
  · exact iff_of_true (vacant_of_liftWitness_none hresult h) (.inl hresult)
  · rw [liftWitness_of_not_isCounterexample hresult]
    exact (or_iff_right hresult).symm

/-- A model without variables, the trace of a model that is safe, and a witness from an earlier
run. -/
def safeFiles : Session :=
  ⟨{ entries := [(["m"], .file []), (["m.cex"], .file (Text.encode ['0'])),
      (["m.cexb"], .file [])] }, []⟩

theorem liftWitness_vacant_iff_safeFiles :
    (safeFiles.liftWitness false .violated ⟨"m"⟩ ⟨"."⟩).1 = .ok none ∧
      (safeFiles.liftWitness false .violated ⟨"m"⟩ ⟨"."⟩).2.disk.Vacant ⟨"./m.cexb"⟩ := by
  have hnone : (safeFiles.liftWitness false .violated ⟨"m"⟩ ⟨"."⟩).1 = .ok none :=
    Fault.eq_ok_of_toOption (by decide +kernel)
  exact ⟨hnone, (liftWitness_vacant_iff safeFiles false .violated ⟨"m"⟩ ⟨"."⟩ hnone).mpr (.inl rfl)⟩

/-- A witness from an earlier run outlives a checker that finds the model safe. -/
theorem not_liftWitness_vacant :
    ¬ ∀ (s : Session) (names : Bool) (result : CheckResult) (model directory : Path),
      (s.liftWitness names result model directory).1 = .ok none →
        (s.liftWitness names result model directory).2.disk.Vacant (model.witness directory) := by
  intro h
  exact h safeFiles false .safe ⟨"m"⟩ ⟨"."⟩ rfl [] rfl

end WitnessLift.Disk.Session
