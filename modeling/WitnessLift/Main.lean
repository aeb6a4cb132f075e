-- SUMMARY: The file store of the machine and the entry point.
import WitnessLift.CommandLine.Run

/-!
# Entry point

The command on the files of the machine.
-/

namespace WitnessLift.Machine

/-- Work on the files of the machine. The context says whether every event is shown. -/
abbrev Work := ReaderT Bool IO

/-- The cause of a failed operation. -/
def causeOf : IO.Error → StorageError
  | .noFileOrDirectory .. => .notFound
  | .inappropriateType _ 20 _ => .notDirectory
  | .inappropriateType _ 21 _ => .isDirectory
  | .invalidArgument _ 36 _ => .nameTooLong
  | .resourceBusy 16 _ => .busy
  | .permissionDenied _ code details => .other s!"{details} (os error {code})"
  | .resourceExhausted _ code details => .other s!"{details} (os error {code})"
  | .invalidArgument _ code details => .other s!"{details} (os error {code})"
  | e => .other (toString e)

/-- Does something that may fail. -/
def attempt (action : IO α) : Work (Except StorageError α) := do
  try
    return .ok (← action)
  catch e =>
    return .error (causeOf e)

/-- Whether a directory stands at a path. -/
def isDirectory (path : Path) : IO Bool := do
  try
    let handle ← IO.FS.Handle.mk path.text .read
    let _ ← handle.read 1
    return false
  catch e =>
    return causeOf e == .isDirectory

/-- Removes a file. The system would remove an empty directory as well, so that is ruled out. -/
def removeFile (path : Path) : Work (Except StorageError Unit) := do
  if ← isDirectory path then return .error .isDirectory
  attempt (IO.FS.removeFile path.text)

/-- The word for a level. -/
def word : Level → String
  | .debug => "DEBUG"
  | .info => "INFO"
  | .warn => "WARN"

instance : FileStore Work IO.FS.Handle IO.FS.Handle where
  openFile path := attempt (IO.FS.Handle.mk path.text .read)
  read source := attempt do return (← source.readBinToEnd).toList
  create path := attempt (IO.FS.Handle.mk path.text .write)
  write target content := attempt do
    target.write content.toByteArray
    target.flush
  rename source target := attempt (IO.FS.rename source.text target.text)
  remove := removeFile
  tell e := do
    if (← readThe Bool) || e.level == .warn then
      IO.eprintln ("[" ++ word e.level ++ "] " ++ e.message)

end WitnessLift.Machine

open WitnessLift in
/-- Runs the command on the arguments that it was started with. -/
def main (arguments : List String) : IO UInt32 := do
  let verbose :=
    match CommandLine.Options.ofArguments arguments with
    | .ok o => o.verbose
    | .error _ => false
  let outcome ← (CommandLine.run (m := Machine.Work) arguments).run verbose
  IO.print outcome.output
  if let some complaint := outcome.complaint then IO.eprintln complaint
  return outcome.exit
