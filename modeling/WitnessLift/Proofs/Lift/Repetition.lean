-- SUMMARY: Lifting is idempotent, and liftings of unrelated models commute.
import WitnessLift.Proofs.Lift.Harmless

/-!
# Lifting again

What lifting yields depends on nothing but what its paths meet on their way, and nothing but its
yield changes. So lifting once more changes nothing, and two liftings that keep out of each other's
way can change places.
-/

namespace WitnessLift.Disk

variable {d d' after : Disk} {path : Path} {p : Place}

/-! ## Trees that look the same -/

/-- At every place of two trees stands the same, and relative paths start in the same directory. -/
structure Same (d d' : Disk) : Prop where
  start : d'.workingDirectory = d.workingDirectory
  entry : ∀ p, d'.find? p = d.find? p

namespace AgreeAlong

/-- What is found in the place of a path that can be opened is the same. -/
theorem find?_of_openFile (h : AgreeAlong d d' path) (hrooted : d.Rooted)
    (hsame : SameDirectories d d') (hopen : d.openFile path = .ok p) : d'.find? p = d.find? p := by
  rcases openFile_eq_ok_iff.mp hopen with hspot | ⟨slash, entry, hnames, -⟩
  · -- A path like `..` ends in a directory that it does not look at.
    have hfound := hrooted.find?_of_spot hspot
    rw [hfound, hsame.directory]
    exact hfound
  · exact h.find?_eq hnames

theorem bytesAt_eq (h : AgreeAlong d d' path) (hrooted : d.Rooted)
    (hsame : SameDirectories d d') : d'.bytesAt path = d.bytesAt path := by
  cases hopen : d.openFile path with
  | error cause =>
    rw [bytesAt, bytesAt, h.openFile_eq, hopen]
    rfl
  | ok p => exact hsame.bytesAt_eq hopen (h.find?_of_openFile hrooted hsame hopen)

end AgreeAlong

theorem layoutAt_congr (h : d'.bytesAt path = d.bytesAt path) :
    d'.layoutAt path = d.layoutAt path := by
  rw [layoutAt, layoutAt, textAt, textAt, h]

/-! ## Tasks -/

/-- A trace that is to be lifted: what the checker reported, the model, and the directory of the
trace and the witness. -/
structure Task where
  names : Bool
  result : CheckResult
  model : Path
  directory : Path

namespace Task

def trace (t : Task) : Path := t.model.trace t.directory

def target (t : Task) : Path := t.model.witness t.directory

/-- All paths that are read or written. -/
def paths (t : Task) : List Path := [t.model, t.trace, t.target, t.target.scratch]

end Task

/-- No path of a task passes a place that another task writes, or ends there. -/
def Avoids (d : Disk) (t u : Task) : Prop :=
  ∀ path ∈ t.paths, ∀ p ∈ d.route path, ¬ d.Written u.target p

instance (d : Disk) (t u : Task) : Decidable (d.Avoids t u) :=
  inferInstanceAs (Decidable (∀ path ∈ t.paths, ∀ p ∈ d.route path, ¬ d.Written u.target p))

variable {t u : Task}

theorem Avoids.agreeAlong (h : d.Avoids t u) (hconfined : Confined d after u.target) :
    ∀ path ∈ t.paths, AgreeAlong d after path := fun path hpath =>
  ⟨hconfined.directories.start, fun p hp => hconfined.find?_eq (h path hpath p hp)⟩

/-- Tasks that avoid each other do not write in the same place. -/
theorem Avoids.not_written (h : d.Avoids t u) (hp : d.Written t.target p) :
    ¬ d.Written u.target p := by
  rcases hp.names with hnames | hnames
  · exact h t.target (by simp [Task.paths]) p hnames.mem_route
  · exact h t.target.scratch (by simp [Task.paths]) p hnames.mem_route

namespace Session

variable {s s' : Session}

/-- Lifts a trace as a task says. -/
def perform (s : Session) (t : Task) : Except LiftError (Option Path) × Session :=
  s.liftWitness t.names t.result t.model t.directory

theorem confined_perform (s : Session) (t : Task) :
    Confined s.disk (s.perform t).2.disk t.target :=
  liftWitness_confined s t.names t.result t.model t.directory

/-! ## What lifting depends on -/

/-- A task yields the same in two sessions, as a result and in the places that it writes. -/
structure YieldAlike (s s' : Session) (t : Task) : Prop where
  result : (s'.perform t).1 = (s.perform t).1
  entry : ∀ p, s.disk.Written t.target p →
    (s'.perform t).2.disk.find? p = (s.perform t).2.disk.find? p

/-- What a lifting that starts yields depends on the model and the trace, and on the directories. -/
theorem yieldAlike_of_started (h : t.result.isCounterexample) {layout : Layout} {q : Place}
    {r : Run Text.Bytes} (hlayout : (s.disk.layoutAt t.model).value = .ok layout)
    (hstarted : s.Started layout t.names t.trace t.target q r)
    (hsame : SameDirectories s.disk s'.disk)
    (hmodel : s'.disk.layoutAt t.model = s.disk.layoutAt t.model)
    (htrace : ∀ source, s.disk.openFile t.trace = .ok source →
      s'.disk.find? source = s.disk.find? source) : YieldAlike s s' t := by
  obtain ⟨p, hnames, hother⟩ := exists_names_witness hstarted.scratch
  have hplace := (creatable_eq_ok_iff.mp hstarted.scratch).1.locate_eq
  obtain ⟨hout, htarget, hscratch, -⟩ := liftWitness_of_started h hlayout hstarted hnames hother
  obtain ⟨hout', htarget', hscratch', -⟩ := liftWitness_of_started h (by rw [hmodel, hlayout])
    (hstarted.transfer hsame htrace) (hsame.names hnames) hother
  rw [hsame.isDirectory_eq] at hout' htarget' hscratch'
  refine ⟨hout'.trans hout.symm, ?_⟩
  rintro p' (hp | hp)
  · obtain rfl := Except.ok.inj (hnames.locate_eq.symm.trans hp)
    exact htarget'.trans htarget.symm
  · obtain rfl := Except.ok.inj (hplace.symm.trans hp)
    exact hscratch'.trans hscratch.symm

/-- A task ends with a result, and every file is as it was. -/
def Idle (s : Session) (t : Task) (out : Except LiftError (Option Path)) : Prop :=
  ∃ log, s.perform t = (out, ⟨s.disk, log⟩)

theorem Idle.yieldAlike {out : Except LiftError (Option Path)} (h : s.Idle t out)
    (h' : s'.Idle t out)
    (hwritten : ∀ p, s.disk.Written t.target p → s'.disk.find? p = s.disk.find? p) :
    YieldAlike s s' t := by
  obtain ⟨log, hrun⟩ := h
  obtain ⟨log', hrun'⟩ := h'
  refine ⟨?_, ?_⟩
  · rw [hrun, hrun']
  · rw [hrun, hrun']
    exact hwritten

/-- What lifting yields depends on what its paths meet, and on the directories. -/
theorem yieldAlike_of_agreeAlong (hrooted : s.disk.Rooted) (hsame : SameDirectories s.disk s'.disk)
    (hagree : ∀ path ∈ t.paths, AgreeAlong s.disk s'.disk path) : YieldAlike s s' t := by
  have hmodel := layoutAt_congr ((hagree t.model (by simp [Task.paths])).bytesAt_eq hrooted hsame)
  have htrace := hagree t.trace (by simp [Task.paths])
  have hscratch := hagree t.target.scratch (by simp [Task.paths])
  have hwritten : ∀ p, s.disk.Written t.target p → s'.disk.find? p = s.disk.find? p := by
    intro p hp
    rcases hp.names with hnames | hnames
    · exact (hagree t.target (by simp [Task.paths])).find?_eq hnames
    · exact hscratch.find?_eq hnames
  by_cases h : t.result.isCounterexample
  · cases hlayout : (s.disk.layoutAt t.model).value with
    | error e =>
      have hrun := liftWitness_of_layoutAt_error h hlayout t.names t.directory
      have hrun' := liftWitness_of_layoutAt_error h (hmodel ▸ hlayout) t.names t.directory
      exact Idle.yieldAlike ⟨_, hrun⟩ ⟨_, hrun'⟩ hwritten
    | ok layout =>
      have hlayout' : (s'.disk.layoutAt t.model).value = .ok layout := hmodel ▸ hlayout
      cases hopen : s.disk.openFile t.trace with
      | error cause =>
        obtain ⟨told, hrun⟩ := liftWitness_of_openFile_error h hlayout hopen t.names
        obtain ⟨told', hrun'⟩ := liftWitness_of_openFile_error h hlayout'
          (htrace.openFile_eq.trans hopen) t.names
        exact Idle.yieldAlike ⟨_, hrun⟩ ⟨_, hrun'⟩ hwritten
      | ok source =>
        cases hcreate : s.disk.creatable t.target.scratch with
        | error cause =>
          obtain ⟨told, hrun⟩ := liftWitness_of_create_error h hlayout hopen hcreate t.names
          obtain ⟨told', hrun'⟩ := liftWitness_of_create_error h hlayout'
            (htrace.openFile_eq.trans hopen) (hscratch.creatable_eq.trans hcreate) t.names
          exact Idle.yieldAlike ⟨_, hrun⟩ ⟨_, hrun'⟩ hwritten
        | ok q =>
          exact yieldAlike_of_started h hlayout ⟨⟨source, hopen, rfl⟩, hcreate⟩ hsame hmodel
            fun source => htrace.find?_of_openFile hrooted hsame
  · have hrun := liftWitness_of_not_isCounterexample h s t.names t.model t.directory
    have hrun' := liftWitness_of_not_isCounterexample h s' t.names t.model t.directory
    exact Idle.yieldAlike ⟨_, hrun⟩ ⟨_, hrun'⟩ hwritten

/-! ## The same task again -/

/-- A task yields the same when it is performed again. -/
theorem yieldAlike_perform (h : s.disk.Rooted) (t : Task) : YieldAlike s (s.perform t).2 t := by
  have hspares := liftWitness_spares h t.names t.result t.model t.directory
  -- A lifting that has not started finds everything as it was. One that has started finds another
  -- witness the second time, so only what it reads counts.
  rcases liftWitness_unchanged_or_started s t.names t.result t.model t.directory with
    hunchanged | ⟨hresult, layout, q, r, hlayout, hstarted⟩
  · have hdisk : (s.perform t).2.disk = s.disk := hunchanged
    refine yieldAlike_of_agreeAlong h ?_ fun path _ => ?_
    · rw [hdisk]
      exact .refl s.disk
    · rw [hdisk]
      exact .refl s.disk path
  · exact yieldAlike_of_started hresult hlayout hstarted hspares.confined.directories
      (layoutAt_congr hspares.modelKept) fun source hopen =>
        hspares.confined.find?_eq fun hp => hspares.apartFromTrace source source hp hopen rfl

theorem perform_twice (h : s.disk.Rooted) (t : Task) :
    ((s.perform t).2.perform t).1 = (s.perform t).1 ∧
      Same (s.perform t).2.disk ((s.perform t).2.perform t).2.disk := by
  have halike := yieldAlike_perform h t
  have honce := confined_perform s t
  have htwice := confined_perform (s.perform t).2 t
  refine ⟨halike.result, htwice.directories.start, fun p => ?_⟩
  by_cases hp : s.disk.Written t.target p
  · exact halike.entry p hp
  · exact htwice.find?_eq fun hp' => hp (honce.directories.written_iff.mp hp')

/-! ## Tasks that change places -/

theorem yieldAlike_of_avoids (hrooted : s.disk.Rooted) (h : s.disk.Avoids t u) :
    YieldAlike s (s.perform u).2 t :=
  yieldAlike_of_agreeAlong hrooted (confined_perform s u).directories
    (h.agreeAlong (confined_perform s u))

/-- Where a task writes, it does not matter whether a task that it avoids comes before it or
behind it. -/
theorem find?_of_avoids (hrooted : s.disk.Rooted) (h : s.disk.Avoids t u)
    (hp : s.disk.Written t.target p) :
    ((s.perform u).2.perform t).2.disk.find? p = ((s.perform t).2.perform u).2.disk.find? p := by
  have hfirst := confined_perform s t
  have hsecond := confined_perform (s.perform t).2 u
  have hother : ¬ (s.perform t).2.disk.Written u.target p := fun hp' =>
    h.not_written hp (hfirst.directories.written_iff.mp hp')
  rw [(yieldAlike_of_avoids hrooted h).entry p hp, hsecond.find?_eq hother]

/-- Where neither of two tasks writes, nothing changes. -/
theorem find?_perform_perform (ht : ¬ s.disk.Written t.target p)
    (hu : ¬ s.disk.Written u.target p) :
    ((s.perform t).2.perform u).2.disk.find? p = s.disk.find? p := by
  have hfirst := confined_perform s t
  have hsecond := confined_perform (s.perform t).2 u
  rw [hsecond.find?_eq fun hp => hu (hfirst.directories.written_iff.mp hp), hfirst.find?_eq ht]

theorem perform_swap (hrooted : s.disk.Rooted) (htu : s.disk.Avoids t u)
    (hut : s.disk.Avoids u t) :
    ((s.perform u).2.perform t).1 = (s.perform t).1 ∧
      ((s.perform t).2.perform u).1 = (s.perform u).1 ∧
      Same ((s.perform t).2.perform u).2.disk ((s.perform u).2.perform t).2.disk := by
  refine ⟨(yieldAlike_of_avoids hrooted htu).result,
    (yieldAlike_of_avoids hrooted hut).result, ?_, fun p => ?_⟩
  · rw [(confined_perform _ t).directories.start, (confined_perform _ u).directories.start,
      (confined_perform _ u).directories.start, (confined_perform _ t).directories.start]
  · by_cases ht : s.disk.Written t.target p
    · exact find?_of_avoids hrooted htu ht
    · by_cases hu : s.disk.Written u.target p
      · exact (find?_of_avoids hrooted hut hu).symm
      · rw [find?_perform_perform hu ht, find?_perform_perform ht hu]

/-- A task that is performed again gives the same result and changes nothing, and two tasks that
avoid each other's files can be performed in either order. -/
theorem perform_again_or_swapped (h : s.disk.Rooted) :
    (∀ t, ((s.perform t).2.perform t).1 = (s.perform t).1 ∧
      Same (s.perform t).2.disk ((s.perform t).2.perform t).2.disk) ∧
    ∀ t u, s.disk.Avoids t u → s.disk.Avoids u t →
      ((s.perform u).2.perform t).1 = (s.perform t).1 ∧
        ((s.perform t).2.perform u).1 = (s.perform u).1 ∧
        Same ((s.perform t).2.perform u).2.disk ((s.perform u).2.perform t).2.disk :=
  ⟨perform_twice h, fun _ _ => perform_swap h⟩

/-- Two models with their traces, and a witness of the first from an earlier run. -/
def twoModels : Session :=
  ⟨{ entries := [(["m"], .file []), (["m.cex"], .file (Text.encode ['0'])), (["m.cexb"], .file []),
      (["n"], .file []), (["n.cex"], .file (Text.encode ['0']))] }, []⟩

theorem perform_again_or_swapped_twoModels :
    twoModels.disk.Rooted ∧
      let t : Task := ⟨false, .violated, ⟨"m"⟩, ⟨"."⟩⟩
      let u : Task := ⟨true, .violated, ⟨"./n"⟩, ⟨""⟩⟩
      twoModels.disk.Avoids t u ∧ twoModels.disk.Avoids u t ∧
        Same ((twoModels.perform t).2.perform u).2.disk
          ((twoModels.perform u).2.perform t).2.disk := by
  have hrooted : twoModels.disk.Rooted := rooted_of_entries (by decide) (by decide)
  have htu : twoModels.disk.Avoids ⟨false, .violated, ⟨"m"⟩, ⟨"."⟩⟩
      ⟨true, .violated, ⟨"./n"⟩, ⟨""⟩⟩ := by decide +kernel
  have hut : twoModels.disk.Avoids ⟨true, .violated, ⟨"./n"⟩, ⟨""⟩⟩
      ⟨false, .violated, ⟨"m"⟩, ⟨"."⟩⟩ := by decide +kernel
  exact ⟨hrooted, htu, hut, ((perform_again_or_swapped hrooted).2 _ _ htu hut).2.2⟩

end Session

end WitnessLift.Disk
