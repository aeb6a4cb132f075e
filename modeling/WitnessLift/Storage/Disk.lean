-- SUMMARY: A tree of files as a value, and what the file operations do to it.
import WitnessLift.Storage.FileStore

/-!
# A tree of files

The files of a machine as a value: what stands at which place, and the directory in which relative
paths start. Every operation looks up its path name by name, as far as directories lead, and fails
with the cause that comes first on the way.
-/

namespace WitnessLift

/-- A place in the tree: the names on the way from the root. -/
abbrev Place := List String

/-- What stands at a place. -/
inductive Entry where
  | file (content : Text.Bytes)
  | directory
  deriving DecidableEq, Repr

/-- The entries of the tree below its root, and the working directory. -/
structure Disk where
  entries : List (Place × Entry) := []
  workingDirectory : Place := []
  deriving Repr

namespace Disk

/-- What stands at a place. At the root stands a directory. -/
def find? (d : Disk) (p : Place) : Option Entry :=
  if p = [] then some .directory else d.entries.lookup p

/-- The tree without what stands at a place. -/
def erase (d : Disk) (p : Place) : Disk :=
  { d with entries := d.entries.filter fun e => e.1 != p }

/-- The tree with an entry at a place. -/
def put (d : Disk) (p : Place) (e : Entry) : Disk :=
  { d.erase p with entries := (p, e) :: (d.erase p).entries }

theorem lookup_filter_ne [BEq α] [LawfulBEq α] {p q : α} (h : q ≠ p) (l : List (α × β)) :
    (l.filter fun e => e.1 != p).lookup q = l.lookup q := by
  induction l with
  | nil => rfl
  | cons e l ih =>
    obtain ⟨k, v⟩ := e
    by_cases hk : k = p
    · subst hk
      simp [List.lookup_cons, beq_eq_false_iff_ne.mpr h, ih]
    · simp [List.lookup_cons, hk, ih]

/-- Nothing changes at other places. -/
@[simp] theorem find?_erase_ne {p q : Place} (h : q ≠ p) (d : Disk) :
    (d.erase p).find? q = d.find? q := by
  simp [find?, erase, lookup_filter_ne h]

/-- Nothing changes at other places. -/
@[simp] theorem find?_put_ne {p q : Place} (h : q ≠ p) (d : Disk) (e : Entry) :
    (d.put p e).find? q = d.find? q := by
  simp [find?, put, erase, List.lookup_cons, beq_eq_false_iff_ne.mpr h, lookup_filter_ne h]

/-- What was put at a place stands there. -/
@[simp] theorem find?_put {p : Place} (h : p ≠ []) (d : Disk) (e : Entry) :
    (d.put p e).find? p = some e := by
  simp [find?, put, h]

/-! ## Looking up paths -/

/-- The greatest size of a path in bytes. -/
def maxPath : Nat := 4095

/-- The greatest size of a name in bytes. -/
def maxName : Nat := 255

/-- What a path names: a directory, by `.`, `..` or the root, or a name in a directory, with or
without a separator behind it. -/
inductive Spot where
  | directory (place : Place)
  | name (parent : Place) (name : List Char) (slash : Bool)
  deriving DecidableEq, Repr

/-- Follows names from a directory to a directory. -/
def walk (d : Disk) (here : Place) : List (List Char) → Except StorageError Place
  | [] => .ok here
  | segment :: rest =>
    if segment = ['.'] then walk d here rest
    else if segment = ['.', '.'] then walk d here.dropLast rest
    else if maxName < Text.byteSize segment then .error .nameTooLong
    else
      let there := here ++ [String.ofList segment]
      match d.find? there with
      | none => .error .notFound
      | some (.file _) => .error .notDirectory
      | some .directory => walk d there rest

/-- Finds what a path names. Whether anything stands there is not looked at. -/
def spot (d : Disk) (path : Path) : Except StorageError Spot :=
  let text := path.text.toList
  if '\x00' ∈ text then .error .nulInPath
  else if text = [] then .error .notFound
  else if maxPath < Text.byteSize text then .error .nameTooLong
  else
    let segments := (Path.segments text).filter (· ≠ [])
    match segments.getLast? with
    | none => .ok (.directory [])
    | some last => do
      let parent ← d.walk (if path.isAbsolute then [] else d.workingDirectory) segments.dropLast
      if last = ['.'] then return .directory parent
      else if last = ['.', '.'] then return .directory parent.dropLast
      else return .name parent last (text.getLast? = some '/')

/-- The place of a name in a directory. -/
def place (parent : Place) (name : List Char) : Except StorageError Place :=
  if maxName < Text.byteSize name then .error .nameTooLong
  else .ok (parent ++ [String.ofList name])

/-! ## Operations -/

/-- The place of a path that is opened to be read. Directories can be opened as well. -/
def openFile (d : Disk) (path : Path) : Except StorageError Place := do
  match ← d.spot path with
  | .directory p => return p
  | .name parent name slash =>
    let p ← place parent name
    match d.find? p with
    | none => .error .notFound
    | some (.file _) => if slash then .error .notDirectory else .ok p
    | some .directory => .ok p

/-- What is read from an open file. -/
def read (d : Disk) (p : Place) : Except StorageError Text.Bytes :=
  match d.find? p with
  | some (.file content) => .ok content
  | some .directory => .error .isDirectory
  | none => .error .notFound

/-- The place at which a file can be created. -/
def creatable (d : Disk) (path : Path) : Except StorageError Place := do
  match ← d.spot path with
  | .directory _ => .error .isDirectory
  | .name parent name slash =>
    if slash then .error .isDirectory
    else do
      let p ← place parent name
      if d.find? p = some .directory then .error .isDirectory else return p

/-- The place of a file that can be removed. -/
def removable (d : Disk) (path : Path) : Except StorageError Place := do
  match ← d.spot path with
  | .directory _ => .error .isDirectory
  | .name parent name slash =>
    let p ← place parent name
    match d.find? p with
    | none => .error .notFound
    | some .directory => .error .isDirectory
    | some (.file _) => if slash then .error .notDirectory else .ok p

/-- The tree after a file got a new path. -/
def rename (d : Disk) (source target : Path) : Except StorageError Disk := do
  match ← d.spot source, ← d.spot target with
  | .name parent name slash, .name parent' name' slash' =>
    let p ← place parent name
    match d.find? p with
    | none => .error .notFound
    | some .directory => .error .isDirectory
    | some (.file content) =>
      let p' ← place parent' name'
      if slash || slash' then .error .notDirectory
      else if d.find? p' = some .directory then .error .isDirectory
      else return (d.erase p).put p' (.file content)
  | _, _ => .error .busy

/-! ## As a file store -/

/-- A tree of files that is worked on, and what was told meanwhile. -/
structure Session where
  disk : Disk
  log : List Event := []

/-- Work on a tree of files. -/
abbrev Work := StateM Session

/-- Changes the tree, unless that fails. -/
def Session.update (s : Session) : Except StorageError Disk → Except StorageError Unit × Session
  | .ok disk => (.ok (), { s with disk })
  | .error cause => (.error cause, s)

instance : FileStore Work Place Place where
  openFile path s := (s.disk.openFile path, s)
  read p s := (s.disk.read p, s)
  create path s :=
    match s.disk.creatable path with
    | .ok p => (.ok p, { s with disk := s.disk.put p (.file []) })
    | .error cause => (.error cause, s)
  write p content s := (.ok (), { s with disk := s.disk.put p (.file content) })
  rename source target s := s.update (s.disk.rename source target)
  remove path s := s.update ((s.disk.removable path).map s.disk.erase)
  tell e s := ((), { s with log := s.log ++ [e] })

end Disk

end WitnessLift
