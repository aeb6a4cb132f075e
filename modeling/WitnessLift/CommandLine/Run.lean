-- SUMMARY: The command: lift the trace of one model, given what the checker printed.
import WitnessLift.CommandLine.Options
import WitnessLift.Lift.Files

/-!
# The command

Lifts the trace of one model and says where the witness is. The output of the checker, if it is
given, decides whether there is a trace to lift at all.
-/

namespace WitnessLift.CommandLine

/-- What a run of the command leaves: its exit code, its output and a complaint. -/
structure Outcome where
  exit : UInt32
  output : String := ""
  complaint : Option String := none
  deriving DecidableEq, Repr

/-- The name and the version of the command. -/
def banner : String := "lift 0.1.0"

/-- How the command is used. -/
def usage : String :=
  "Lifts the trace of a flattened btor2 model to a btor2 witness.\n\n"
    ++ "Usage: lift [OPTIONS] --witness-dir <WITNESS_DIR> <BTOR2>\n\n"
    ++ "Options:\n"
    ++ "  -v, --verbose                  Tell more\n"
    ++ "      --names                    Append signal names to every assignment\n"
    ++ "  -w, --witness-dir <DIR>        Directory of the trace and of the witness\n"
    ++ "      --checker-output <FILE>    Console output of the checker\n"
    ++ "  -h, --help                     Print this help\n"
    ++ "  -V, --version                  Print the version\n"

/-- The outcome of a command line that asks for nothing to be lifted. -/
def Interrupt.outcome : Interrupt → Outcome
  | .help => { exit := 0, output := usage }
  | .version => { exit := 0, output := banner ++ "\n" }
  | .misuse cause => { exit := 2, complaint := some ("error: " ++ cause.message) }

/-- What a lifting has to say for itself. -/
def outcomeOf : Except LiftError (Option Path) → Outcome
  | .ok (some path) => { exit := 0, output := path.text ++ "\n" }
  | .ok none => { exit := 0, output := "No counterexample to translate.\n" }
  | .error e => { exit := 1, complaint := some ("error: " ++ e.message) }

variable [Monad m] [FileStore m Source Target]

/-- Does what the options ask for. -/
def perform (o : Options) : m Outcome := do
  let result ←
    match o.checkerOutput with
    | none => pure (some CheckResult.violated)
    | some path => do
      match ← FileStore.readText path with
      | .ok text => pure (some (CheckResult.ofOutput text))
      | .error _ => pure none
  match result with
  | none => return { exit := 101, complaint := some "Failed to read checker output!" }
  | some result => return outcomeOf (← (liftWitness o.names result o.model o.witnessDirectory).run)

/-- Runs a command line. -/
def run (arguments : List String) : m Outcome :=
  match Options.ofArguments arguments with
  | .ok o => perform o
  | .error i => return i.outcome

end WitnessLift.CommandLine
