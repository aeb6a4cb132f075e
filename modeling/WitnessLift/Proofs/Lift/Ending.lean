-- SUMMARY: The report and the files of a lifting that has started.
import WitnessLift.Proofs.Lift.Files
import WitnessLift.Proofs.Storage.Beside
import WitnessLift.Proofs.Storage.Route

/-!
# How a started lifting ends

Once the trace is open and the scratch file created, all that counts is how lifting the trace ends
and whether a directory stands in the place of the witness. This decides what is reported and what
stands at the two places of the witness and its scratch file. Nothing else changes.
-/

namespace WitnessLift

/-! ## Report and remains -/

namespace Run

/-- What is reported of a run whose witness may or may not be blocked by a directory. -/
def report (r : Run Text.Bytes) (trace target : Path) (blocked : Bool) :
    Except LiftError (Option Nat) :=
  match r.result with
  | .error e => .error (.trace trace e)
  | .ok frames => if blocked then .error (.storage target .isDirectory) else .ok frames

variable {r : Run Text.Bytes} {trace target path : Path} {blocked : Bool}

/-- Nothing is said about the model once its layout is known. -/
theorem report_ne_model {e : ModelError} :
    (r.report trace target blocked).map (Option.map fun _ => target) ≠ .error (.model path e) := by
  rw [report]
  cases r.result <;> cases blocked <;> rintro ⟨⟩

theorem report_eq_trace_iff {e : TraceError} :
    (r.report trace target blocked).map (Option.map fun _ => target) = .error (.trace path e) ↔
      path = trace ∧ r.result = .error e := by
  rw [report]
  cases r.result with
  | error e' => simp [Except.map, eq_comm]
  | ok frames => cases blocked <;> simp [Except.map]

theorem report_eq_storage_iff {cause : StorageError} :
    (r.report trace target blocked).map (Option.map fun _ => target) =
        .error (.storage path cause) ↔
      path = target ∧ cause = .isDirectory ∧ blocked = true ∧ ∃ frames, r.result = .ok frames := by
  rw [report]
  cases r.result with
  | error e => simp [Except.map]
  | ok frames => cases blocked <;> simp [Except.map, eq_comm]

theorem report_eq_some_iff :
    (r.report trace target blocked).map (Option.map fun _ => target) = .ok (some path) ↔
      path = target ∧ blocked = false ∧ ∃ frames, r.result = .ok (some frames) := by
  rw [report]
  cases r.result with
  | error e => simp [Except.map]
  | ok frames => cases blocked <;> cases frames <;> simp [Except.map, eq_comm]

theorem report_eq_none_iff :
    (r.report trace target blocked).map (Option.map fun _ => target) = .ok none ↔
      blocked = false ∧ r.result = .ok none := by
  rw [report]
  cases r.result with
  | error e => simp [Except.map]
  | ok frames => cases blocked <;> cases frames <;> simp [Except.map]

/-- What stands in the place of the witness after a run. -/
def atTarget (r : Run Text.Bytes) (blocked : Bool) : Option Entry :=
  if blocked then some .directory
  else
    match r.result with
    | .ok (some _) => some (.file r.sink)
    | _ => none

/-- What stands in the place of the scratch file after a run. -/
def atScratch (r : Run Text.Bytes) (blocked : Bool) : Option Entry :=
  match r.result with
  | .ok (some _) => if blocked then some (.file r.sink) else none
  | _ => none

end Run

namespace Disk

variable {d : Disk} {path source target : Path} {p q : Place} {slash : Bool}
  {content : Text.Bytes}

/-- Whether a directory stands at a path is seen at the place that the path names. -/
theorem Names.isDirectory_eq (h : d.Names path p slash) :
    d.isDirectory path = decide (d.find? p = some .directory) := by
  rw [Bool.eq_iff_iff, isDirectory_iff, decide_eq_true_iff, h.stat_eq]
  rcases d.find? p with _ | _ | _
  · simp
  · cases slash <;> simp
  · simp

/-- A directory in the place of the new path is what keeps a file from getting it. -/
theorem rename_of_find?_directory (hsource : d.Names source q false)
    (hfile : d.find? q = some (.file content)) (htarget : d.Names target p false)
    (hdirectory : d.find? p = some .directory) :
    d.rename source target = .error .isDirectory := by
  obtain ⟨parent, name, hspot, hplace⟩ := hsource
  obtain ⟨parent', name', hspot', hplace'⟩ := htarget
  simp [rename, hspot, hplace, hfile, hspot', hplace', hdirectory, bind, Except.bind]

/-- Where a file was looked for to be removed, nothing stands but a directory. -/
theorem find?_discard (h : d.Names path p false) :
    (d.discard path).find? p = if d.isDirectory path then some .directory else none := by
  rw [h.isDirectory_eq]
  rcases d.discard_cases path with ⟨q, content, hnames, hfound, hdiscard⟩ | ⟨hvacant, hdiscard⟩
  · obtain rfl : q = p := by
      have hlocate := hnames.locate_eq
      rw [h.locate_eq] at hlocate
      exact (Except.ok.inj hlocate).symm
    simp [hdiscard, find?_erase h.ne_nil, hfound]
  · rw [hdiscard]
    cases hfound : d.find? p with
    | none => simp
    | some entry =>
      cases entry with
      | directory => simp
      | file content => exact absurd (stat_eq_file_iff.mpr ⟨p, h, hfound⟩) (hvacant content)

end Disk

namespace Disk.Session

open Work

variable {s : Session} {layout : Layout} {names : Bool} {trace target : Path} {p q : Place}
  {r : Run Text.Bytes}

namespace Started

theorem confined (h : s.Started layout names trace target q r) (hne : target.text ≠ "") :
    Confined s.disk (s.liftFile layout names trace target).2.disk target := by
  rcases hresult : r.result with e | _ | frames
  · rw [h.liftFile_eq, settled_of_error h.scratch hresult]
    exact confined_discard h.scratch
  · rw [h.liftFile_eq, settled_of_none h.scratch hresult]
    exact confined_discard h.scratch
  · exact (h.spec_of_frames hne hresult).2

/-- A directory in the place of the witness is the end of it. -/
theorem rename_of_isDirectory (h : s.Started layout names trace target q r)
    (hnames : s.disk.Names target p false) (hblocked : s.disk.isDirectory target = true) :
    (s.received q r).disk.rename target.scratch target = .error .isDirectory := by
  have hsame := sameDirectories_put h.scratch r.sink
  have hscratch := (creatable_eq_ok_iff.mp h.scratch).1
  rw [hnames.isDirectory_eq, decide_eq_true_iff] at hblocked
  exact rename_of_find?_directory (hsame.names hscratch) (find?_put hscratch.ne_nil _ _)
    (hsame.names hnames) ((hsame.directory p).mpr hblocked)

/-- A scratch file is moved to a place that no directory takes. -/
theorem rename_of_not_isDirectory (h : s.Started layout names trace target q r)
    (hnames : s.disk.Names target p false) (hfree : s.disk.isDirectory target = false) :
    (s.received q r).disk.rename target.scratch target =
      .ok ((s.disk.erase q).put p (.file r.sink)) := by
  have hsame := sameDirectories_put h.scratch r.sink
  have hscratch := (creatable_eq_ok_iff.mp h.scratch).1
  rw [hnames.isDirectory_eq, decide_eq_false_iff_not] at hfree
  refine rename_eq_ok_iff.mpr ⟨q, p, r.sink, hsame.names hscratch, find?_put hscratch.ne_nil _ _,
    hsame.names hnames, ?_, ?_⟩
  · exact fun hfound => hfree ((hsame.directory p).mp hfound)
  · rw [received, erase_put]

/-- How a lifting ends that was started and whose target is a name. -/
theorem settles (h : s.Started layout names trace target q r)
    (hnames : s.disk.Names target p false) (hother : p ≠ q) :
    let out := s.liftFile layout names trace target
    out.1 = r.report trace target (s.disk.isDirectory target) ∧
      out.2.disk.find? p = r.atTarget (s.disk.isDirectory target) ∧
      out.2.disk.find? q = r.atScratch (s.disk.isDirectory target) := by
  dsimp only
  have hscratch := (creatable_eq_ok_iff.mp h.scratch).1
  have hgone := find?_discard_of_none (find?_erase hscratch.ne_nil s.disk) target
  have htarget := find?_discard ((sameDirectories_erase h.scratch).names hnames)
  rw [isDirectory_erase h.scratch] at htarget
  rw [h.liftFile_eq]
  rcases hresult : r.result with e | _ | frames
  · rw [settled_of_error h.scratch hresult, Run.report, Run.atTarget, Run.atScratch, hresult]
    exact ⟨rfl, htarget, hgone⟩
  · rw [settled_of_none h.scratch hresult, Run.report, Run.atTarget, Run.atScratch, hresult]
    exact ⟨rfl, htarget, hgone⟩
  · cases hblocked : s.disk.isDirectory target with
    | true =>
      rw [settled_of_rename_error hresult (h.rename_of_isDirectory hnames hblocked), Run.report,
        Run.atTarget, Run.atScratch, hresult]
      refine ⟨rfl, ?_, find?_put hscratch.ne_nil _ _⟩
      rw [hnames.isDirectory_eq, decide_eq_true_iff] at hblocked
      exact (find?_put_ne hother _ _).trans hblocked
    | false =>
      rw [settled_of_rename hresult (h.rename_of_not_isDirectory hnames hblocked),
        Run.report, Run.atTarget, Run.atScratch, hresult]
      refine ⟨rfl, find?_put hnames.ne_nil _ _, ?_⟩
      rw [find?_put_ne hother.symm, find?_erase hscratch.ne_nil]
      rfl

/-- A lifting that starts in one tree starts likewise in any other with the same directories and
the same trace. -/
theorem transfer {s' : Session} (h : s.Started layout names trace target q r)
    (hsame : SameDirectories s.disk s'.disk)
    (htrace : ∀ source, s.disk.openFile trace = .ok source →
      s'.disk.find? source = s.disk.find? source) :
    s'.Started layout names trace target q r := by
  obtain ⟨⟨source, hopen, hattempt⟩, hscratch⟩ := h
  have hkept := htrace source hopen
  refine ⟨⟨source, hsame.openFile_eq_ok hopen hkept, ?_⟩, hsame.creatable_eq_ok hscratch⟩
  rw [← hattempt, attempt, attempt, Disk.read, Disk.read]
  by_cases hsource : source = q
  · have hne := (creatable_eq_ok_iff.mp hscratch).1.ne_nil
    rw [hsource, find?_put hne, find?_put hne]
  · rw [find?_put_ne hsource, find?_put_ne hsource, hkept]

end Started

end Disk.Session

end WitnessLift
