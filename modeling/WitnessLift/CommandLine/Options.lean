-- SUMMARY: The options of the command and how its arguments are read.
import WitnessLift.Storage.Path

/-!
# Options

How a command line is read. Options come in a short and a long form; short flags can be joined, and
a value can stand in the argument after its option or be attached to it. After `--` every argument
is taken as it is.
-/

namespace WitnessLift.CommandLine

/-- What the command line asks for. -/
structure Options where
  verbose : Bool
  names : Bool
  witnessDirectory : Path
  checkerOutput : Option Path
  model : Path
  deriving DecidableEq, Repr

/-- The options that stand alone. -/
inductive Flag where
  | verbose
  | names
  | help
  | version
  deriving DecidableEq, Repr

/-- The options that take a value. -/
inductive Setting where
  | witnessDirectory
  | checkerOutput
  deriving DecidableEq, Repr

/-- The name of a flag on the command line. -/
def Flag.name : Flag → String
  | .verbose => "--verbose"
  | .names => "--names"
  | .help => "--help"
  | .version => "--version"

/-- The name of a setting on the command line. -/
def Setting.name : Setting → String
  | .witnessDirectory => "--witness-dir"
  | .checkerOutput => "--checker-output"

/-- Why a command line cannot be read. -/
inductive Misuse where
  | unexpected (argument : String)
  | repeated (option : String)
  | unwantedValue (option : String)
  | missingValue (option : String)
  | emptyValue (option : String)
  | required (what : String)
  deriving DecidableEq, Repr

/-- The words for a misuse. -/
def Misuse.message : Misuse → String
  | .unexpected argument => "unexpected argument '" ++ argument ++ "' found"
  | .repeated option => "the argument '" ++ option ++ "' cannot be used multiple times"
  | .unwantedValue option => "unexpected value for '" ++ option ++ "' found; no more were expected"
  | .missingValue option => "a value is required for '" ++ option ++ "' but none was supplied"
  | .emptyValue option => "a value is required for '" ++ option ++ "' but none was supplied"
  | .required what => "the required argument '" ++ what ++ "' was not provided"

/-- Why reading ends before the last argument. -/
inductive Interrupt where
  | help
  | version
  | misuse (cause : Misuse)
  deriving DecidableEq, Repr

/-- The options so far. `pending` is a setting whose value is the next argument, and `plain` tells
that `--` has come. -/
structure Draft where
  verbose : Bool := false
  names : Bool := false
  witnessDirectory : Option Path := none
  checkerOutput : Option Path := none
  model : Option Path := none
  pending : Option Setting := none
  plain : Bool := false
  deriving DecidableEq, Repr

namespace Draft

/-- Stops at a misuse. -/
def refuse (cause : Misuse) : Except Interrupt α := .error (.misuse cause)

/-- Raises a flag. No flag can be raised twice. -/
def raise (d : Draft) : Flag → Except Interrupt Draft
  | .verbose =>
    if d.verbose then refuse (.repeated Flag.verbose.name) else .ok { d with verbose := true }
  | .names => if d.names then refuse (.repeated Flag.names.name) else .ok { d with names := true }
  | .help => .error .help
  | .version => .error .version

/-- The value of a setting so far. -/
def value? (d : Draft) : Setting → Option Path
  | .witnessDirectory => d.witnessDirectory
  | .checkerOutput => d.checkerOutput

/-- Gives a setting its value. No setting can have two, and no path is empty. -/
def assign (d : Draft) (s : Setting) (value : List Char) : Except Interrupt Draft :=
  if value = [] then refuse (.emptyValue s.name)
  else if (d.value? s).isSome then refuse (.repeated s.name)
  else
    let path : Path := ⟨String.ofList value⟩
    match s with
    | .witnessDirectory => .ok { d with witnessDirectory := some path, pending := none }
    | .checkerOutput => .ok { d with checkerOutput := some path, pending := none }

/-- Takes an argument for the model. -/
def takeModel (d : Draft) (argument : List Char) : Except Interrupt Draft :=
  if d.model.isSome then refuse (.unexpected (String.ofList argument))
  else if argument = [] then refuse (.emptyValue "<BTOR2>")
  else .ok { d with model := some ⟨String.ofList argument⟩ }

/-- Reads what follows a single `-`: flags, the last of which may be a setting with its value. -/
def short (d : Draft) : List Char → Except Interrupt Draft
  | [] => .ok d
  | 'v' :: rest => do short (← d.raise .verbose) rest
  | 'h' :: _ => d.raise .help
  | 'V' :: _ => d.raise .version
  | ['w'] => .ok { d with pending := some .witnessDirectory }
  | 'w' :: '=' :: value => d.assign .witnessDirectory value
  | 'w' :: value => d.assign .witnessDirectory value
  | c :: _ => refuse (.unexpected (String.ofList ['-', c]))

/-- What a long option stands for. -/
def long? (name : List Char) : Option (Flag ⊕ Setting) :=
  let name := "--" ++ String.ofList name
  match [Flag.verbose, .names, .help, .version].find? (·.name == name) with
  | some flag => some (.inl flag)
  | none => ([Setting.witnessDirectory, .checkerOutput].find? (·.name == name)).map .inr

/-- Reads what follows `--`: the name of an option, and a value after `=` if there is one. -/
def long (d : Draft) (text : List Char) : Except Interrupt Draft :=
  let name := text.takeWhile (· != '=')
  match long? name, text.dropWhile (· != '=') with
  | none, _ => refuse (.unexpected ("--" ++ String.ofList name))
  | some (.inl flag), [] => d.raise flag
  | some (.inl flag), _ :: _ => refuse (.unwantedValue flag.name)
  | some (.inr setting), [] => .ok { d with pending := some setting }
  | some (.inr setting), _ :: value => d.assign setting value

/-- Reads one argument. -/
def argument (d : Draft) (argument : String) : Except Interrupt Draft :=
  let text := argument.toList
  let looksLikeOption : Bool := text.head? = some '-' ∧ text ≠ ['-']
  if d.plain then d.takeModel text
  else
    match d.pending with
    | some setting =>
      if looksLikeOption then refuse (.missingValue setting.name) else d.assign setting text
    | none =>
      match text with
      | ['-', '-'] => .ok { d with plain := true }
      | '-' :: '-' :: option => d.long option
      | '-' :: c :: options => d.short (c :: options)
      | _ => d.takeModel text

/-- The options of a whole command line. -/
def finish (d : Draft) : Except Interrupt Options :=
  match d.pending, d.witnessDirectory, d.model with
  | some setting, _, _ => refuse (.missingValue setting.name)
  | none, none, _ => refuse (.required "--witness-dir <WITNESS_DIR>")
  | none, some _, none => refuse (.required "<BTOR2>")
  | none, some witnessDirectory, some model =>
    .ok
      { verbose := d.verbose
        names := d.names
        checkerOutput := d.checkerOutput
        witnessDirectory
        model }

end Draft

/-- Reads the arguments of a command line. -/
def Options.ofArguments (arguments : List String) : Except Interrupt Options := do
  let d ← arguments.foldlM Draft.argument {}
  d.finish

end WitnessLift.CommandLine
