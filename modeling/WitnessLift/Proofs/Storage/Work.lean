-- SUMMARY: Laws for running file operations on a tree.
import WitnessLift.Proofs.Storage.Lookup

/-!
# Work on a tree

What the operations of a file store do to a tree of files, one after the other.
-/

namespace WitnessLift.Disk

/-- What is read from the file at a path. -/
def bytesAt (d : Disk) (path : Path) : Except StorageError Text.Bytes :=
  d.openFile path >>= d.read

/-- The text that is read from the file at a path. -/
def textAt (d : Disk) (path : Path) : Except StorageError (List Char) :=
  match d.bytesAt path with
  | .error cause => .error cause
  | .ok bytes =>
    match Text.decode bytes with
    | some text => .ok text
    | none => .error .notText

namespace Work

open FileStore

variable {α β : Type} {a : α} {s s' : Session} {path : Path} {p : Place} {cause : StorageError}

/-- Work goes on where it has come to. -/
theorem run_bind {x : Work α} (h : x.run s = (a, s')) (f : α → Work β) :
    (x >>= f).run s = (f a).run s' := by
  rw [StateT.run_bind, h]
  rfl

theorem run_openFile (path : Path) (s : Session) :
    (FileStore.openFile (m := Work) path).run s = (s.disk.openFile path, s) := rfl

theorem run_read (p : Place) (s : Session) :
    (FileStore.read (m := Work) p).run s = (s.disk.read p, s) := rfl

theorem run_write (p : Place) (content : Text.Bytes) (s : Session) :
    (write (m := Work) p content).run s =
      (.ok (), { s with disk := s.disk.put p (.file content) }) := rfl

theorem run_create (h : s.disk.creatable path = .ok p) :
    (create (m := Work) path).run s = (.ok p, { s with disk := s.disk.put p (.file []) }) := by
  rw [StateT.run, FileStore.create, instFileStoreWorkPlace]
  simp only [h]

theorem run_create_error (h : s.disk.creatable path = .error cause) :
    (create (m := Work) path).run s = (.error cause, s) := by
  rw [StateT.run, FileStore.create, instFileStoreWorkPlace]
  simp only [h]

theorem run_rename (source target : Path) (s : Session) :
    (FileStore.rename (m := Work) source target).run s =
      s.update (s.disk.rename source target) := rfl

theorem run_remove (path : Path) (s : Session) :
    (remove (m := Work) path).run s =
      ((s.disk.removable path).map fun _ => (), { s with disk := s.disk.discard path }) := by
  change s.update ((s.disk.removable path).map s.disk.erase) = _
  rw [discard]
  cases s.disk.removable path <;> rfl

theorem run_tell (e : Event) (s : Session) :
    (tell (m := Work) e).run s = ((), { s with log := s.log ++ [e] }) := rfl

theorem run_tellAll (events : List Event) (s : Session) :
    (tellAll (m := Work) events).run s = ((), { s with log := s.log ++ events }) := by
  induction events generalizing s with
  | nil => rw [List.append_nil]; rfl
  | cons e events ih =>
    rw [List.append_cons]
    exact ih _

theorem run_readFile (path : Path) (s : Session) :
    (readFile (m := Work) path).run s = (s.disk.bytesAt path, s) := by
  rw [readFile, run_bind (run_openFile path s), bytesAt]
  cases s.disk.openFile path <;> rfl

/-- Reading a text changes nothing. -/
theorem run_readText (path : Path) (s : Session) :
    (readText (m := Work) path).run s = (s.disk.textAt path, s) := by
  rw [readText, run_bind (run_readFile path s), textAt]
  rcases s.disk.bytesAt path with cause | bytes
  · rfl
  · dsimp only
    cases Text.decode bytes <;> rfl

/-- Where only absence keeps anyone from a path, only a directory cannot be removed from it. -/
theorem run_removeStale (h : ∀ cause, s.disk.stat path = .error cause → cause = .notFound) :
    (removeStale (m := Work) path).run s =
      (if s.disk.isDirectory path then .error .isDirectory else .ok (),
        { s with disk := s.disk.discard path }) := by
  rw [removeStale, run_bind (run_remove path s), removable_eq, isDirectory]
  cases hstat : s.disk.stat path with
  | error cause =>
    rw [h cause hstat]
    rfl
  | ok entry =>
    cases entry with
    | directory => rfl
    | file content =>
      obtain ⟨p, hnames, -⟩ := stat_eq_file_iff.mp hstat
      simp only [hnames.locate_eq]
      rfl

end Work

end WitnessLift.Disk
