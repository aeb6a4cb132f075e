-- SUMMARY: Each failure on the way from a model to its witness is attributed to its stage.
import WitnessLift.Proofs.Lift.Ending

/-!
# From a model to its witness

Lifting the trace of a model goes through stages: the result of the checker, the model, the trace,
the scratch file, and the lifting itself. A failure is blamed on the first stage that fails, and
before the last one nothing is touched. What the last stage yields is what lifting the bytes of the
trace in memory yields.
-/

namespace WitnessLift

theorem Layout.ofDeclarations_value (ds : List Declaration) :
    (Layout.ofDeclarations ds).value = Layout.build ds := by
  rw [Layout.ofDeclarations]
  cases Layout.build ds <;> rfl

namespace Disk

open WitnessLift.Path

variable {d : Disk} {model directory trace path : Path} {layout : Layout}

/-! ## The model -/

/-- The layout of the model in a file, and what is told about it. -/
def layoutAt (d : Disk) (model : Path) : Logged (Except ModelError Layout) :=
  match d.textAt model with
  | .error cause => ⟨.error (.unreadable cause), []⟩
  | .ok text => Layout.ofText text

/-- What keeps the model in a file from having a layout: it cannot be read as a text, the text is
not that of a model, or its declarations have no layout. -/
inductive ModelFault (d : Disk) (model : Path) : ModelError → Prop where
  | unreadable {cause : StorageError} (htext : d.textAt model = .error cause) :
    ModelFault d model (.unreadable cause)
  | unparsable {text : List Char} {e : ModelError} (htext : d.textAt model = .ok text)
    (hparse : parseModel text = .error e) : ModelFault d model e
  | unbuildable {text : List Char} {ds : List Declaration} {e : ModelError}
    (htext : d.textAt model = .ok text) (hparse : parseModel text = .ok ds)
    (hbuild : Layout.build ds = .error e) : ModelFault d model e

/-- The model in a file has this layout. -/
def HasLayout (d : Disk) (model : Path) (layout : Layout) : Prop :=
  ∃ text ds, d.textAt model = .ok text ∧ parseModel text = .ok ds ∧ Layout.build ds = .ok layout

theorem layoutAt_eq_error_iff {e : ModelError} :
    (d.layoutAt model).value = .error e ↔ d.ModelFault model e := by
  rw [layoutAt]
  constructor
  · intro h
    cases htext : d.textAt model with
    | error cause =>
      rw [htext] at h
      cases h
      exact .unreadable htext
    | ok text =>
      simp only [htext, Layout.ofText] at h
      cases hparse : parseModel text with
      | error e' =>
        rw [hparse] at h
        cases h
        exact .unparsable htext hparse
      | ok ds =>
        simp only [hparse, Layout.ofDeclarations_value] at h
        exact .unbuildable htext hparse h
  · intro h
    cases h with
    | unreadable htext => rw [htext]
    | unparsable htext hparse => simp only [htext, Layout.ofText, hparse]
    | unbuildable htext hparse hbuild =>
      simp only [htext, Layout.ofText, hparse, Layout.ofDeclarations_value, hbuild]

theorem layoutAt_eq_ok_iff :
    (d.layoutAt model).value = .ok layout ↔ d.HasLayout model layout := by
  rw [layoutAt, HasLayout]
  cases htext : d.textAt model with
  | error cause => simp
  | ok text =>
    cases hparse : parseModel text with
    | error e => simp [Layout.ofText, hparse]
    | ok ds => simp [Layout.ofText, hparse, Layout.ofDeclarations_value]

theorem ModelFault.eq_iff {e e' : ModelError} (h : d.ModelFault model e) :
    d.ModelFault model e' ↔ e = e' := by
  rw [← layoutAt_eq_error_iff] at h ⊢
  rw [h, Except.error.injEq]

theorem HasLayout.unique {layout' : Layout} (h : d.HasLayout model layout)
    (h' : d.HasLayout model layout') : layout = layout' := by
  rw [← layoutAt_eq_ok_iff] at h h'
  exact Except.ok.inj (h.symm.trans h')

theorem HasLayout.not_modelFault (h : d.HasLayout model layout) {e : ModelError} :
    ¬ d.ModelFault model e := by
  rw [← layoutAt_eq_ok_iff] at h
  rw [← layoutAt_eq_error_iff, h]
  rintro ⟨⟩

theorem not_hasLayout {e : ModelError} (h : d.ModelFault model e) : ¬ d.HasLayout model layout :=
  fun hlayout => hlayout.not_modelFault h

/-! ## The trace -/

/-- What keeps the trace in a file from being lifted: it cannot be read, or it is at fault. -/
inductive TraceFault (d : Disk) (trace : Path) (layout : Layout) : TraceError → Prop where
  | unreadable {cause : StorageError} (hbytes : d.bytesAt trace = .error cause) :
    TraceFault d trace layout (.storage cause)
  | faulty {bytes : Text.Bytes} {e : TraceError} (hbytes : d.bytesAt trace = .ok bytes)
    (hlift : (layout.lift bytes).result = .error e) : TraceFault d trace layout e

/-- With the layout of the model, the trace is lifted to a witness of as many frames, or to none. -/
def Lifts (d : Disk) (model trace : Path) (frames : Option Nat) : Prop :=
  ∃ layout bytes, d.HasLayout model layout ∧ d.bytesAt trace = .ok bytes ∧
    (layout.lift bytes).result = .ok frames

theorem lifts_iff (h : d.HasLayout model layout) {frames : Option Nat} :
    d.Lifts model trace frames ↔
      ∃ bytes, d.bytesAt trace = .ok bytes ∧ (layout.lift bytes).result = .ok frames := by
  constructor
  · rintro ⟨layout', bytes, hlayout, hlift⟩
    obtain rfl := h.unique hlayout
    exact ⟨bytes, hlift⟩
  · rintro ⟨bytes, hlift⟩
    exact ⟨layout, bytes, h, hlift⟩

theorem traceFault_of_bytesAt_error {cause : StorageError}
    (h : d.bytesAt trace = .error cause) {e : TraceError} :
    d.TraceFault trace layout e ↔ e = .storage cause := by
  constructor
  · intro hfault
    cases hfault with
    | unreadable hbytes =>
      rw [h] at hbytes
      cases hbytes
      rfl
    | faulty hbytes =>
      rw [h] at hbytes
      cases hbytes
  · rintro rfl
    exact .unreadable h

theorem traceFault_of_bytesAt {bytes : Text.Bytes}
    (h : d.bytesAt trace = .ok bytes) {e : TraceError} :
    d.TraceFault trace layout e ↔ (layout.lift bytes).result = .error e := by
  constructor
  · intro hfault
    cases hfault with
    | unreadable hbytes =>
      rw [h] at hbytes
      cases hbytes
    | faulty hbytes hlift =>
      rw [h] at hbytes
      cases hbytes
      exact hlift
  · exact .faulty h

theorem bytesAt_of_openFile_error {cause : StorageError}
    (h : d.openFile path = .error cause) : d.bytesAt path = .error cause := by
  rw [bytesAt, h]
  rfl

/-- What is read from a directory is that it is one. -/
theorem bytesAt_of_stat_directory {e : String} (h : IsExtension e)
    (hstat : d.stat (model.beside directory e) = .ok .directory) :
    d.bytesAt (model.beside directory e) = .error .isDirectory := by
  rcases stat_eq_ok_iff.mp hstat with ⟨p, hspot, -⟩ | ⟨p, slash, hnames, hfound, -⟩
  · obtain ⟨parent, hname⟩ := exists_spot_beside h hspot
    cases hname
  · have hopen := openFile_eq_ok_iff.mpr (.inr ⟨slash, _, hnames, hfound, fun _ => rfl⟩)
    rw [bytesAt, hopen]
    change d.read p = _
    rw [Disk.read, hfound]

/-- A trace that is a directory is at fault for that. -/
theorem traceFault_of_stat_directory
    (hstat : d.stat (model.trace directory) = .ok .directory) (layout : Layout) (e : TraceError) :
    d.TraceFault (model.trace directory) layout e ↔ e = .storage .isDirectory :=
  traceFault_of_bytesAt_error (bytesAt_of_stat_directory (e := "cex") (by decide) hstat)

/-! ## What a result tells -/

/-- The result of lifting a trace to a target tells the first stage that failed, and why. A witness
is reported exactly if no stage fails and no directory is in its place. Then it is what lifting the
bytes of the trace in memory yields. Before the last stage nothing is touched. -/
structure Attributed (d : Disk) (names : Bool) (model trace target : Path)
    (out : Except LiftError (Option Path)) (after : Disk) : Prop where
  atModel : ∀ path e, out = .error (.model path e) ↔ path = model ∧ d.ModelFault model e
  atTrace : ∀ cause, out = .error (.storage trace cause) ↔
    (∃ layout, d.HasLayout model layout) ∧ d.openFile trace = .error cause
  atScratch : ∀ cause, out = .error (.storage target.scratch cause) ↔
    (∃ layout, d.HasLayout model layout) ∧ (∃ source, d.openFile trace = .ok source) ∧
      d.creatable target.scratch = .error cause
  atLifting : ∀ path e, out = .error (.trace path e) ↔
    path = trace ∧ (∃ source, d.openFile trace = .ok source) ∧
      (∃ q, d.creatable target.scratch = .ok q) ∧
      ∃ layout, d.HasLayout model layout ∧ d.TraceFault trace layout e
  ofDirectory : d.stat trace = .ok .directory →
    ∀ layout e, d.TraceFault trace layout e ↔ e = .storage .isDirectory
  lifted : ∀ path, out = .ok (some path) ↔
    path = target ∧ (∃ q, d.creatable target.scratch = .ok q) ∧ d.isDirectory target = false ∧
      ∃ frames, d.Lifts model trace (some frames)
  dismissed : out = .ok none ↔
    (∃ q, d.creatable target.scratch = .ok q) ∧ d.isDirectory target = false ∧
      d.Lifts model trace none
  blocked : ∀ cause, out = .error (.storage target cause) ↔
    cause = .isDirectory ∧ (∃ q, d.creatable target.scratch = .ok q) ∧
      d.isDirectory target = true ∧ ∃ frames, d.Lifts model trace frames
  content : (∃ path, out = .ok (some path)) →
    ∀ layout bytes, d.HasLayout model layout → d.bytesAt trace = .ok bytes →
      after.stat target = .ok (.file (layout.output names bytes)) ∧
        ∃ text, (layout.witness names bytes).value = .ok (some text) ∧
          layout.output names bytes = Text.encode text.toList
  untouched : after = d ∨
    (∃ layout, d.HasLayout model layout) ∧ (∃ source, d.openFile trace = .ok source) ∧
      ∃ q, d.creatable target.scratch = .ok q

theorem attributed_of_modelFault {e : ModelError} (h : d.ModelFault model e) (names : Bool)
    (directory : Path) :
    Attributed d names model (model.trace directory) (model.witness directory)
      (.error (.model model e)) d := by
  have hno : ∀ layout, ¬ d.HasLayout model layout := fun layout => not_hasLayout h
  exact {
    atModel := by simp [h.eq_iff, eq_comm]
    atTrace := by simp [hno]
    atScratch := by simp [hno]
    atLifting := by simp [hno]
    ofDirectory := traceFault_of_stat_directory
    lifted := by simp [Lifts, hno]
    dismissed := by simp [Lifts, hno]
    blocked := by simp [Lifts, hno]
    content := by simp
    untouched := .inl rfl }

theorem attributed_of_openFile_error {cause : StorageError} (h : d.HasLayout model layout)
    (hopen : d.openFile (model.trace directory) = .error cause) (names : Bool) :
    Attributed d names model (model.trace directory) (model.witness directory)
      (.error (.storage (model.trace directory) cause)) d := by
  have hlaid : ∃ layout, d.HasLayout model layout := ⟨layout, h⟩
  have hbytes := bytesAt_of_openFile_error hopen
  exact {
    atModel := by simp [h.not_modelFault]
    atTrace := by simp [hlaid, hopen]
    atScratch := by simp [trace_ne_scratch, hopen]
    atLifting := by simp [hopen]
    ofDirectory := traceFault_of_stat_directory
    lifted := by simp [Lifts, hbytes]
    dismissed := by simp [Lifts, hbytes]
    blocked := by simp [Lifts, trace_ne_witness, hbytes]
    content := by simp
    untouched := .inl rfl }

theorem attributed_of_create_error {source : Place} {cause : StorageError}
    (h : d.HasLayout model layout) (hopen : d.openFile (model.trace directory) = .ok source)
    (hscratch : d.creatable (model.witness directory).scratch = .error cause) (names : Bool) :
    Attributed d names model (model.trace directory) (model.witness directory)
      (.error (.storage (model.witness directory).scratch cause)) d := by
  have hlaid : ∃ layout, d.HasLayout model layout := ⟨layout, h⟩
  exact {
    atModel := by simp [h.not_modelFault]
    atTrace := by simp [(trace_ne_scratch model directory).symm, hopen]
    atScratch := by simp [hlaid, hopen, hscratch]
    atLifting := by simp [hscratch]
    ofDirectory := traceFault_of_stat_directory
    lifted := by simp [hscratch]
    dismissed := by simp [hscratch]
    blocked := by simp [(witness_ne_scratch model directory).symm, hscratch]
    content := by simp
    untouched := .inl rfl }

namespace Session

open Work FileStore

variable {s : Session} {names : Bool} {result : CheckResult} {p q : Place} {r : Run Text.Bytes}

/-! ## Stage by stage -/

/-- Lifts the trace of a model in a directory, given what the checker reported. -/
def liftWitness (s : Session) (names : Bool) (result : CheckResult) (model directory : Path) :
    Except LiftError (Option Path) × Session :=
  (WitnessLift.liftWitness (m := Work) names result model directory).run.run s

theorem liftWitness_of_not_isCounterexample (h : ¬ result.isCounterexample) (s : Session)
    (names : Bool) (model directory : Path) :
    s.liftWitness names result model directory =
      (.ok none, { s with log := s.log ++ [.nothingToLift result] }) := by
  rw [liftWitness, WitnessLift.liftWitness, if_neg h]
  rfl

/-- Loading a layout changes no file. -/
theorem run_loadLayout (model : Path) (s : Session) :
    (loadLayout (m := Work) model).run.run s =
      ((s.disk.layoutAt model).value.mapError (.model model),
        { s with log := s.log ++ (s.disk.layoutAt model).log }) := by
  refine (run_bind (run_readText model s) _).trans ?_
  rw [layoutAt]
  cases s.disk.textAt model with
  | error cause =>
    dsimp only
    rw [List.append_nil]
    rfl
  | ok text =>
    dsimp only
    rw [run_bind (run_tellAll _ _)]
    cases (Layout.ofText text).value <;> rfl

theorem liftWitness_of_layoutAt_error (h : result.isCounterexample) {e : ModelError}
    (hlayout : (s.disk.layoutAt model).value = .error e) (names : Bool) (directory : Path) :
    s.liftWitness names result model directory =
      (.error (.model model e), { s with log := s.log ++ (s.disk.layoutAt model).log }) := by
  have hload := run_loadLayout model s
  rw [hlayout] at hload
  rw [liftWitness, WitnessLift.liftWitness, if_pos h]
  exact run_bind_error hload _

/-- Once the model has a layout, its trace is lifted, and the witness is reported by its path. -/
theorem liftWitness_of_layoutAt (h : result.isCounterexample)
    (hlayout : (s.disk.layoutAt model).value = .ok layout) (names : Bool) (directory : Path) :
    ∃ told,
      let out := { s with log := s.log ++ told }.liftFile layout names (model.trace directory)
        (model.witness directory)
      s.liftWitness names result model directory =
        (out.1.map (Option.map fun _ => model.witness directory), out.2) := by
  have hload := run_loadLayout model s
  rw [hlayout] at hload
  let event : Event := .lifting (model.trace directory).text (model.witness directory).text
  have htell := run_lift (run_tell event { s with log := s.log ++ (s.disk.layoutAt model).log })
  refine ⟨(s.disk.layoutAt model).log ++ [event], ?_⟩
  rw [liftWitness, WitnessLift.liftWitness, if_pos h, run_bind_ok hload, run_bind_ok htell,
    ← List.append_assoc]
  rcases hrun : Session.liftFile { s with log := s.log ++ (s.disk.layoutAt model).log ++ [event] }
    layout names (model.trace directory) (model.witness directory) with ⟨lifted, after⟩
  cases lifted with
  | error e => exact run_bind_error hrun _
  | ok frames => exact run_bind_ok hrun _

theorem liftWitness_of_openFile_error (h : result.isCounterexample)
    (hlayout : (s.disk.layoutAt model).value = .ok layout) {cause : StorageError}
    (hopen : s.disk.openFile (model.trace directory) = .error cause) (names : Bool) :
    ∃ told, s.liftWitness names result model directory =
      (.error (.storage (model.trace directory) cause), { s with log := s.log ++ told }) := by
  obtain ⟨told, hrun⟩ := liftWitness_of_layoutAt h hlayout names directory
  rw [liftFile_of_openFile_error (s := ⟨s.disk, s.log ++ told⟩) hopen] at hrun
  exact ⟨told, hrun⟩

theorem liftWitness_of_create_error (h : result.isCounterexample)
    (hlayout : (s.disk.layoutAt model).value = .ok layout) {source : Place} {cause : StorageError}
    (hopen : s.disk.openFile (model.trace directory) = .ok source)
    (hscratch : s.disk.creatable (model.witness directory).scratch = .error cause)
    (names : Bool) :
    ∃ told, s.liftWitness names result model directory =
      (.error (.storage (model.witness directory).scratch cause),
        { s with log := s.log ++ told }) := by
  obtain ⟨told, hrun⟩ := liftWitness_of_layoutAt h hlayout names directory
  rw [liftFile_of_create_error (s := ⟨s.disk, s.log ++ told⟩) hopen hscratch] at hrun
  exact ⟨told, hrun⟩

/-- What is left to say once the trace is open and the scratch file created is how lifting the trace
ends, and whether a directory stands in the place of the witness. -/
theorem liftWitness_of_started (h : result.isCounterexample)
    (hlayout : (s.disk.layoutAt model).value = .ok layout)
    (hstarted : s.Started layout names (model.trace directory) (model.witness directory) q r)
    (hnames : s.disk.Names (model.witness directory) p false) (hother : p ≠ q) :
    let out := s.liftWitness names result model directory
    let blocked := s.disk.isDirectory (model.witness directory)
    out.1 = (r.report (model.trace directory) (model.witness directory) blocked).map
        (Option.map fun _ => model.witness directory) ∧
      out.2.disk.find? p = r.atTarget blocked ∧ out.2.disk.find? q = r.atScratch blocked ∧
      Confined s.disk out.2.disk (model.witness directory) := by
  obtain ⟨told, hrun⟩ := liftWitness_of_layoutAt h hlayout names directory
  have hagain : Started ⟨s.disk, s.log ++ told⟩ layout names (model.trace directory)
      (model.witness directory) q r := ⟨hstarted.source, hstarted.scratch⟩
  obtain ⟨hreport, htarget, hscratch⟩ := hagain.settles hnames hother
  have hconfined := hagain.confined (text_beside_ne model directory (e := "cexb") (by decide))
  dsimp only at hrun hreport htarget hscratch ⊢
  rw [hreport] at hrun
  rw [hrun]
  dsimp only
  exact ⟨rfl, htarget, hscratch, hconfined⟩

/-! ## How lifting ends -/

/-- How lifting the trace of a model ends, given that the checker found a counterexample: at one of
the stages before the last, with every file as it was, or as lifting the trace decides. -/
inductive Ends (s : Session) (names : Bool) (model directory : Path) :
    Except LiftError (Option Path) → Disk → Prop where
  | model {e : ModelError} (hlayout : (s.disk.layoutAt model).value = .error e) :
    Ends s names model directory (.error (.model model e)) s.disk
  | trace {layout : Layout} {cause : StorageError}
    (hlayout : (s.disk.layoutAt model).value = .ok layout)
    (hopen : s.disk.openFile (model.trace directory) = .error cause) :
    Ends s names model directory (.error (.storage (model.trace directory) cause)) s.disk
  | scratch {layout : Layout} {source : Place} {cause : StorageError}
    (hlayout : (s.disk.layoutAt model).value = .ok layout)
    (hopen : s.disk.openFile (model.trace directory) = .ok source)
    (hscratch : s.disk.creatable (model.witness directory).scratch = .error cause) :
    Ends s names model directory
      (.error (.storage (model.witness directory).scratch cause)) s.disk
  | started {layout : Layout} {p q : Place} {r : Run Text.Bytes}
    {out : Except LiftError (Option Path)} {after : Disk}
    (hlayout : (s.disk.layoutAt model).value = .ok layout)
    (hstarted : s.Started layout names (model.trace directory) (model.witness directory) q r)
    (hnames : s.disk.Names (model.witness directory) p false) (hother : p ≠ q)
    (hout : out = (r.report (model.trace directory) (model.witness directory)
      (s.disk.isDirectory (model.witness directory))).map
        (Option.map fun _ => model.witness directory))
    (htarget : after.find? p = r.atTarget (s.disk.isDirectory (model.witness directory)))
    (hscratch : after.find? q = r.atScratch (s.disk.isDirectory (model.witness directory)))
    (hconfined : Confined s.disk after (model.witness directory)) :
    Ends s names model directory out after

theorem ends (h : result.isCounterexample) (s : Session) (names : Bool) (model directory : Path) :
    s.Ends names model directory (s.liftWitness names result model directory).1
      (s.liftWitness names result model directory).2.disk := by
  cases hlayout : (s.disk.layoutAt model).value with
  | error e =>
    rw [liftWitness_of_layoutAt_error h hlayout]
    exact .model hlayout
  | ok layout =>
    cases hopen : s.disk.openFile (model.trace directory) with
    | error cause =>
      obtain ⟨told, hrun⟩ := liftWitness_of_openFile_error h hlayout hopen names
      rw [hrun]
      exact .trace hlayout hopen
    | ok source =>
      cases hscratch : s.disk.creatable (model.witness directory).scratch with
      | error cause =>
        obtain ⟨told, hrun⟩ := liftWitness_of_create_error h hlayout hopen hscratch names
        rw [hrun]
        exact .scratch hlayout hopen hscratch
      | ok q =>
        have hstarted : s.Started layout names (model.trace directory) (model.witness directory) q
            (s.attempt layout names source q) := ⟨⟨source, hopen, rfl⟩, hscratch⟩
        obtain ⟨p, hnames, hother⟩ := exists_names_witness hscratch
        obtain ⟨hout, htarget, hgone, hconfined⟩ :=
          liftWitness_of_started h hlayout hstarted hnames hother
        exact .started hlayout hstarted hnames hother hout htarget hgone hconfined

namespace Started

variable {trace target : Path} {bytes : Text.Bytes}

/-- Unless the trace is where the scratch file goes, it is read as it was. -/
theorem run_eq (h : s.Started layout names trace target q r)
    (hother : s.disk.locate trace ≠ .ok q) :
    r = match s.disk.bytesAt trace with
      | .ok bytes =>
        ⟨(layout.lift bytes).result, layout.output names bytes, (layout.lift bytes).log⟩
      | .error cause => ⟨.error (.storage cause), [], []⟩ := by
  obtain ⟨⟨source, hopen, rfl⟩, -⟩ := h
  have hsource : source ≠ q := by
    rintro rfl
    exact hother (locate_of_openFile hopen)
  have hbytes : s.disk.bytesAt trace = s.disk.read source := by
    rw [bytesAt, hopen]
    rfl
  have hread : (s.disk.put q (.file [])).read source = s.disk.read source := by
    rw [Disk.read, Disk.read, find?_put_ne hsource]
  cases hcontent : s.disk.read source with
  | error cause => simp only [attempt, hread, hbytes, hcontent]
  | ok bytes => simp only [attempt, hread, hbytes, hcontent]

theorem result_eq_error_iff (h : s.Started layout names trace target q r)
    (hother : s.disk.locate trace ≠ .ok q) {e : TraceError} :
    r.result = .error e ↔ s.disk.TraceFault trace layout e := by
  rw [h.run_eq hother]
  cases hbytes : s.disk.bytesAt trace with
  | error cause =>
    rw [traceFault_of_bytesAt_error hbytes, Except.error.injEq, eq_comm]
  | ok bytes => rw [traceFault_of_bytesAt hbytes]

theorem result_eq_ok_iff (h : s.Started layout names trace target q r)
    (hother : s.disk.locate trace ≠ .ok q) {frames : Option Nat} :
    r.result = .ok frames ↔
      ∃ bytes, s.disk.bytesAt trace = .ok bytes ∧ (layout.lift bytes).result = .ok frames := by
  rw [h.run_eq hother]
  cases s.disk.bytesAt trace <;> simp

end Started

/-- The trace is not where the scratch file goes. -/
theorem Started.locate_trace_ne
    (h : s.Started layout names (model.trace directory) (model.witness directory) q r) :
    s.disk.locate (model.trace directory) ≠ .ok q := by
  have hscratch := (creatable_eq_ok_iff.mp h.scratch).1.locate_eq
  rw [scratch_witness] at hscratch
  intro htrace
  exact ne_of_locate_beside (e := "cex") (by decide) (by decide) (by decide) htrace hscratch rfl

/-- The witness that is reported is what lifting the trace in memory yields. -/
theorem Started.stat_witness {after : Disk} {bytes : Text.Bytes} {frames : Nat}
    (h : s.Started layout names (model.trace directory) (model.witness directory) q r)
    (hnames : after.Names (model.witness directory) p false)
    (htarget : after.find? p = r.atTarget false) (hframes : r.result = .ok (some frames))
    (hbytes : s.disk.bytesAt (model.trace directory) = .ok bytes) :
    after.stat (model.witness directory) = .ok (.file (layout.output names bytes)) ∧
      ∃ text, (layout.witness names bytes).value = .ok (some text) ∧
        layout.output names bytes = Text.encode text.toList := by
  have hrun := h.run_eq h.locate_trace_ne
  rw [hbytes] at hrun
  have hresult : (layout.lift bytes).result = .ok (some frames) := by
    rw [← hframes, hrun]
  refine ⟨stat_eq_file_iff.mpr ⟨p, hnames, ?_⟩, _, ?_, rfl⟩
  · rw [htarget, Run.atTarget, hframes, hrun]
    rfl
  · rw [Layout.witness, hresult]
    rfl

theorem Started.attributed {after : Disk}
    (h : s.Started layout names (model.trace directory) (model.witness directory) q r)
    (hlayout : s.disk.HasLayout model layout)
    (hnames : s.disk.Names (model.witness directory) p false)
    (htarget : after.find? p = r.atTarget (s.disk.isDirectory (model.witness directory)))
    (hconfined : Confined s.disk after (model.witness directory)) :
    Attributed s.disk names model (model.trace directory) (model.witness directory)
      ((r.report (model.trace directory) (model.witness directory)
        (s.disk.isDirectory (model.witness directory))).map
          (Option.map fun _ => model.witness directory)) after := by
  have hapart := h.locate_trace_ne
  have hfault := fun e => h.result_eq_error_iff (e := e) hapart
  have hlift : ∀ frames, r.result = .ok frames ↔
      s.disk.Lifts model (model.trace directory) frames := fun frames =>
    (h.result_eq_ok_iff hapart).trans (lifts_iff hlayout).symm
  obtain ⟨source, hopen, -⟩ := h.source
  have hopened : ∃ source, s.disk.openFile (model.trace directory) = .ok source := ⟨source, hopen⟩
  have hcreated : ∃ q, s.disk.creatable (model.witness directory).scratch = .ok q :=
    ⟨q, h.scratch⟩
  have hunique : ∀ layout', s.disk.HasLayout model layout' ↔ layout' = layout := fun layout' =>
    ⟨fun h' => h'.unique hlayout, fun h' => h' ▸ hlayout⟩
  exact {
    atModel := by simp [Run.report_ne_model, hlayout.not_modelFault]
    atTrace := by simp [Run.report_eq_storage_iff, trace_ne_witness, hopen]
    atScratch := by
      simp [Run.report_eq_storage_iff, (witness_ne_scratch model directory).symm, h.scratch]
    atLifting := by simp [Run.report_eq_trace_iff, hopened, hcreated, hunique, hfault]
    ofDirectory := traceFault_of_stat_directory
    lifted := by simp [Run.report_eq_some_iff, hcreated, hlift]
    dismissed := by simp [Run.report_eq_none_iff, hcreated, hlift]
    blocked := by simp [Run.report_eq_storage_iff, hcreated, hlift]
    content := by
      rintro ⟨path, hpath⟩ layout' bytes hlayout' hbytes
      obtain rfl := (hunique layout').mp hlayout'
      obtain ⟨-, hfree, frames, hframes⟩ := Run.report_eq_some_iff.mp hpath
      rw [hfree] at htarget
      exact h.stat_witness (hconfined.directories.names hnames) htarget hframes hbytes
    untouched := .inr ⟨⟨layout, hlayout⟩, hopened, hcreated⟩ }

theorem Ends.attributed {out : Except LiftError (Option Path)} {after : Disk}
    (h : s.Ends names model directory out after) :
    Attributed s.disk names model (model.trace directory) (model.witness directory) out after := by
  cases h with
  | model hlayout => exact attributed_of_modelFault (layoutAt_eq_error_iff.mp hlayout) names _
  | trace hlayout hopen =>
    exact attributed_of_openFile_error (layoutAt_eq_ok_iff.mp hlayout) hopen names
  | scratch hlayout hopen hscratch =>
    exact attributed_of_create_error (layoutAt_eq_ok_iff.mp hlayout) hopen hscratch names
  | started hlayout hstarted hnames hother hout htarget _ hconfined =>
    rw [hout]
    exact hstarted.attributed (layoutAt_eq_ok_iff.mp hlayout) hnames htarget hconfined

/-- Lifting the trace of a model tells exactly what came of it: which stage failed first and why, or
that a witness stands in its place as lifting the trace in memory yields it. If the checker found no
counterexample, there is nothing to lift and nothing changes. -/
theorem liftWitness_attributed (s : Session) (names : Bool) (result : CheckResult)
    (model directory : Path) :
    let out := s.liftWitness names result model directory
    if result.isCounterexample then
      Attributed s.disk names model (model.trace directory) (model.witness directory) out.1
        out.2.disk
    else out.1 = .ok none ∧ out.2.disk = s.disk := by
  split_ifs with h
  · exact (ends h s names model directory).attributed
  · rw [liftWitness_of_not_isCounterexample h]
    exact ⟨rfl, rfl⟩

end Session

end Disk

end WitnessLift
