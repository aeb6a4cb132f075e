-- SUMMARY: The interface of file operations, and what is derived from it.
import WitnessLift.Log
import WitnessLift.Storage.Path
import WitnessLift.Text.Utf8

/-!
# File stores

What lifting asks of a file system. The same pipeline runs on the files of the machine and on a
tree of files that is a plain value.
-/

namespace WitnessLift

/-- File operations in `m`. A file is opened before it is read and created before it is written;
`Source` and `Target` stand for files that are open for the one and for the other. Creating a file
empties it, renaming replaces the file at the new path, and removing takes files only. Events are
told in the order in which they happen. -/
class FileStore (m : Type → Type) (Source Target : outParam Type) where
  openFile : Path → m (Except StorageError Source)
  read : Source → m (Except StorageError Text.Bytes)
  create : Path → m (Except StorageError Target)
  write : Target → Text.Bytes → m (Except StorageError Unit)
  rename : Path → Path → m (Except StorageError Unit)
  remove : Path → m (Except StorageError Unit)
  tell : Event → m Unit

namespace FileStore

variable [Monad m] [FileStore m Source Target]

/-- The bytes of the file at a path. -/
def readFile (path : Path) : m (Except StorageError Text.Bytes) := do
  match ← openFile path with
  | .error cause => return .error cause
  | .ok source => read source

/-- The text of the file at a path. -/
def readText (path : Path) : m (Except StorageError (List Char)) := do
  match ← readFile path with
  | .error cause => return .error cause
  | .ok bytes =>
    match Text.decode bytes with
    | some text => return .ok text
    | none => return .error .notText

/-- Tells events in order. -/
def tellAll : List Event → m Unit
  | [] => return ()
  | e :: rest => do
    tell e
    tellAll rest

/-- Removes the file at a path, if there is one. -/
def removeStale (path : Path) : m (Except StorageError Unit) := do
  match ← remove path with
  | .error .notFound => return .ok ()
  | result => return result

end FileStore

end WitnessLift
