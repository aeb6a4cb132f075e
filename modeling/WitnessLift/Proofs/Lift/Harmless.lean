-- SUMMARY: Lifting spares the model, the trace and every place but two.
import WitnessLift.Proofs.Lift.Pipeline

/-!
# What lifting leaves alone

Lifting the trace of a model writes in two places, that of the witness and that of its scratch file.
However the model and the directory are spelled, neither is the place of the model or of the trace,
so what is read from these stays the same.
-/

namespace WitnessLift.Disk

open WitnessLift.Path

variable {d d' after : Disk} {model directory path target : Path} {p q : Place}
  {content : Text.Bytes}

/-! ## Places that are written -/

/-- Where a target and its scratch file are written. -/
def Written (d : Disk) (target : Path) (p : Place) : Prop :=
  d.locate target = .ok p ∨ d.locate target.scratch = .ok p

instance (d : Disk) (target : Path) (p : Place) : Decidable (d.Written target p) :=
  inferInstanceAs (Decidable (_ ∨ _))

theorem SameDirectories.written_iff (h : SameDirectories d d') :
    d'.Written target p ↔ d.Written target p :=
  or_congr ⟨h.symm.locate_eq_ok, h.locate_eq_ok⟩ ⟨h.symm.locate_eq_ok, h.locate_eq_ok⟩

theorem Confined.refl (d : Disk) (target : Path) : Confined d d target where
  directories := .refl d
  elsewhere _ _ _ := rfl

theorem Confined.find?_eq (h : Confined d after target) (hp : ¬ d.Written target p) :
    after.find? p = d.find? p :=
  h.elsewhere p (fun htarget => hp (.inl htarget)) fun hscratch => hp (.inr hscratch)

/-- The trace is not where the witness or its scratch file is written. -/
theorem Written.ne_of_openFile_trace (h : d.Written (model.witness directory) p)
    (hopen : d.openFile (model.trace directory) = .ok q) : p ≠ q := by
  have htrace := locate_of_openFile hopen
  rw [trace_eq_beside] at htrace
  rw [Written, scratch_witness, witness_eq_beside] at h
  rcases h with hp | hp
  · exact ne_of_locate_beside (by decide) (by decide) (by decide) hp htrace
  · exact ne_of_locate_beside (by decide) (by decide) (by decide) hp htrace

/-- Both are written under a name. -/
theorem Written.names (h : d.Written (model.witness directory) p) :
    d.Names (model.witness directory) p false ∨
      d.Names (model.witness directory).scratch p false := by
  rw [Written, scratch_witness, witness_eq_beside] at h
  rw [scratch_witness, witness_eq_beside]
  exact h.imp (names_of_locate_beside (by decide)) (names_of_locate_beside (by decide))

/-- Neither is a file that the path of the model names. -/
theorem Written.ne_of_names (h : d.Written (model.witness directory) p)
    (hnames : d.Names model q false) : p ≠ q := by
  rw [Written, scratch_witness, witness_eq_beside] at h
  rcases h with hp | hp
  · exact (Disk.ne_of_names hnames hp (by decide)).symm
  · exact (Disk.ne_of_names hnames hp (by decide)).symm

/-! ## What is read -/

theorem exists_file_of_bytesAt (h : d.bytesAt path = .ok content) :
    ∃ q, d.openFile path = .ok q ∧ d.find? q = some (.file content) := by
  obtain ⟨q, hopen, hread⟩ := Fault.bind_eq_ok_iff.mp h
  refine ⟨q, hopen, ?_⟩
  rw [Disk.read] at hread
  split at hread
  · next hfound =>
    cases hread
    exact hfound
  · cases hread
  · cases hread

/-- What was opened is read as before while its place is left alone. -/
theorem SameDirectories.bytesAt_eq (h : SameDirectories d d') (hopen : d.openFile path = .ok p)
    (hkept : d'.find? p = d.find? p) : d'.bytesAt path = d.bytesAt path := by
  rw [bytesAt, bytesAt, hopen, h.openFile_eq_ok hopen hkept]
  change d'.read p = d.read p
  rw [Disk.read, Disk.read, hkept]

theorem exists_file_of_layoutAt {layout : Layout} (h : (d.layoutAt model).value = .ok layout) :
    ∃ q content, d.openFile model = .ok q ∧ d.find? q = some (.file content) := by
  obtain ⟨text, ds, htext, -⟩ := layoutAt_eq_ok_iff.mp h
  cases hbytes : d.bytesAt model with
  | error cause =>
    rw [textAt, hbytes] at htext
    cases htext
  | ok content =>
    obtain ⟨q, hfile⟩ := exists_file_of_bytesAt hbytes
    exact ⟨q, content, hfile⟩

/-! ## Lifting -/

/-- Nothing changes but files where a target and its scratch file are written, and no directory
comes or goes. These places are neither that of the model file nor that of the trace, and they change only
if both were opened, so what is read from the two is the same as before. -/
structure Spares (d : Disk) (model trace target : Path) (after : Disk) : Prop where
  confined : Confined d after target
  apartFromModel : ∀ p q content, d.Written target p → d.openFile model = .ok q →
    d.find? q = some (.file content) → p ≠ q
  apartFromTrace : ∀ p q, d.Written target p → d.openFile trace = .ok q → p ≠ q
  opened : after = d ∨
    (∃ q content, d.openFile model = .ok q ∧ d.find? q = some (.file content)) ∧
      ∃ q, d.openFile trace = .ok q
  modelKept : after.bytesAt model = d.bytesAt model
  traceKept : after.bytesAt trace = d.bytesAt trace

theorem Rooted.spares (h : d.Rooted) (hconfined : Confined d after (model.witness directory))
    (hopened : after = d ∨
      (∃ q content, d.openFile model = .ok q ∧ d.find? q = some (.file content)) ∧
        ∃ q, d.openFile (model.trace directory) = .ok q) :
    Spares d model (model.trace directory) (model.witness directory) after := by
  have hmodel : ∀ p q content, d.Written (model.witness directory) p → d.openFile model = .ok q →
      d.find? q = some (.file content) → p ≠ q := fun p q content hp hopen hfile =>
    hp.ne_of_names (h.names_of_openFile hopen hfile)
  have htrace : ∀ p q, d.Written (model.witness directory) p →
      d.openFile (model.trace directory) = .ok q → p ≠ q := fun p q =>
    Written.ne_of_openFile_trace
  refine ⟨hconfined, hmodel, htrace, hopened, ?_, ?_⟩
  · rcases hopened with rfl | ⟨⟨q, content, hopen, hfile⟩, -⟩
    · rfl
    · exact hconfined.directories.bytesAt_eq hopen
        (hconfined.find?_eq fun hq => hmodel q q content hq hopen hfile rfl)
  · rcases hopened with rfl | ⟨-, q, hopen⟩
    · rfl
    · exact hconfined.directories.bytesAt_eq hopen
        (hconfined.find?_eq fun hq => htrace q q hq hopen rfl)

namespace Session

variable {s : Session} {names : Bool} {result : CheckResult} {out : Except LiftError (Option Path)}

theorem Ends.confined (h : s.Ends names model directory out after) :
    Confined s.disk after (model.witness directory) := by
  cases h with
  | model | trace | scratch => exact .refl s.disk _
  | started _ _ _ _ _ _ _ hconfined => exact hconfined

theorem liftWitness_confined (s : Session) (names : Bool) (result : CheckResult)
    (model directory : Path) :
    Confined s.disk (s.liftWitness names result model directory).2.disk
      (model.witness directory) := by
  by_cases h : result.isCounterexample
  · exact (ends h s names model directory).confined
  · rw [liftWitness_of_not_isCounterexample h]
    exact .refl s.disk _

/-- Files change only once lifting the trace has started. -/
theorem liftWitness_unchanged_or_started (s : Session) (names : Bool) (result : CheckResult)
    (model directory : Path) :
    (s.liftWitness names result model directory).2.disk = s.disk ∨
      result.isCounterexample ∧ ∃ layout q r, (s.disk.layoutAt model).value = .ok layout ∧
        s.Started layout names (model.trace directory) (model.witness directory) q r := by
  by_cases h : result.isCounterexample
  · have hends := ends h s names model directory
    generalize (s.liftWitness names result model directory).1 = out at hends
    generalize (s.liftWitness names result model directory).2.disk = after at hends ⊢
    cases hends with
    | model | trace | scratch => exact .inl rfl
    | started hlayout hstarted => exact .inr ⟨h, _, _, _, hlayout, hstarted⟩
  · rw [liftWitness_of_not_isCounterexample h]
    exact .inl rfl

/-- Whatever comes of lifting the trace of a model, the model, the trace and all other files are
left alone, and so are all directories. -/
theorem liftWitness_spares (h : s.disk.Rooted) (names : Bool) (result : CheckResult)
    (model directory : Path) :
    Spares s.disk model (model.trace directory) (model.witness directory)
      (s.liftWitness names result model directory).2.disk := by
  refine h.spares (liftWitness_confined s names result model directory) ?_
  rcases liftWitness_unchanged_or_started s names result model directory with
    hunchanged | ⟨-, layout, q, r, hlayout, hstarted⟩
  · exact .inl hunchanged
  · obtain ⟨source, hopen, -⟩ := hstarted.source
    exact .inr ⟨exists_file_of_layoutAt hlayout, source, hopen⟩

/-- A model, its trace and a witness from an earlier run, all in the working directory. -/
def besideFiles : Session :=
  ⟨{ entries := [(["out"], .directory), (["out", "m"], .file []),
      (["out", "m.cex"], .file (Text.encode ['0'])), (["out", "m.cexb"], .file [])]
     workingDirectory := ["out"] }, []⟩

theorem liftWitness_spares_beside :
    besideFiles.disk.Rooted ∧
      Spares besideFiles.disk ⟨"../out/./m"⟩ ⟨"/out/../out/m.cex"⟩ ⟨"/out/../out/m.cexb"⟩
        (besideFiles.liftWitness false .violated ⟨"../out/./m"⟩ ⟨"/out/../out/"⟩).2.disk := by
  have hrooted : besideFiles.disk.Rooted := rooted_of_entries (by decide) (by decide)
  exact ⟨hrooted, liftWitness_spares hrooted false .violated ⟨"../out/./m"⟩ ⟨"/out/../out/"⟩⟩

end Session

end WitnessLift.Disk
