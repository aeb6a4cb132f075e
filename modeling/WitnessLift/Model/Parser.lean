-- SUMMARY: Parser of models: from the lines of a text to declarations and errors.
import WitnessLift.Model.Error
import WitnessLift.Model.Suggestion
import WitnessLift.Model.Token
import WitnessLift.Text.Lines
import WitnessLift.Text.Numeral

/-!
# Reading a model

A model is read line by line. A line is blank, or it holds an id, an operation and what the
operation asks for; tokens beyond that are ignored. A faulty line yields one error and no
declaration, and the lines after it are still read.
-/

namespace WitnessLift

/-! ## One line -/

/-- A fault that covers one token. -/
def Token.fault (t : Token) (fault : SyntaxFault) : LineFault :=
  ⟨fault, t.start, t.stop⟩

/-- The text of a token as a string. -/
def Token.name (t : Token) : String := String.ofList t.text

/-- The id that a token spells. -/
def Token.id? (t : Token) : Except LineFault Id :=
  match Text.word? t.text with
  | some id => .ok id
  | none => .error (t.fault .idExpected)

/-- The width that a token spells: a positive numeral. -/
def Token.width? (t : Token) : Except LineFault UInt32 :=
  match Text.word? t.text with
  | some width => if width = 0 then .error (t.fault .widthExpected) else .ok width
  | none => .error (t.fault .widthExpected)

/-- The fault of a line that ends too early. It covers the operation and all tokens behind it. -/
def tooFew (operation : Token) (arguments : List Token) (needed : Nat) : LineFault where
  fault := .tooFewTokens operation.name needed (2 + arguments.length)
  start := operation.start
  stop := (arguments.getLastD operation).stop

/-- The kind of sort that the tokens behind `sort` describe. -/
def SortKind.ofTokens (operation : Token) (arguments : List Token) : Except LineFault SortKind :=
  match arguments with
  | [] => .error (tooFew operation arguments 3)
  | kind :: more =>
    if kind.name = "bitvec" then
      match more with
      | [] => .error (tooFew operation arguments 4)
      | width :: _ => SortKind.bitVec <$> width.width?
    else if kind.name = "array" then
      match more with
      | index :: element :: _ => do
        let _ ← index.id?
        let _ ← element.id?
        return .array
      | _ => .error (tooFew operation arguments 5)
    else .error (kind.fault (.sortKindExpected kind.name))

/-- The sort and the name of a variable, from the tokens behind `input` or `state`. -/
def Declaration.variableOfTokens (operation : Token) (arguments : List Token) :
    Except LineFault (Id × Option String) :=
  match arguments with
  | [] => .error (tooFew operation arguments 3)
  | sortRef :: more => do
    let sortId ← sortRef.id?
    return (sortId, more.head?.map Token.name)

/-- The state that `init` or `next` is about. A sort stands before it and a value behind it. -/
def Declaration.targetOfTokens (operation : Token) (arguments : List Token) :
    Except LineFault Id :=
  match arguments with
  | sortRef :: stateRef :: _ :: _ => do
    let _ ← sortRef.id?
    stateRef.id?
  | _ => .error (tooFew operation arguments 5)

/-- The declaration `id` that an operation and the tokens behind it make. -/
def Declaration.ofOperation (id : Id) (operation : Token) (arguments : List Token) :
    Except LineFault Declaration :=
  match Operation.role? operation.name with
  | some .sort => .sort id <$> SortKind.ofTokens operation arguments
  | some .input =>
    (fun v => .input id v.1 v.2) <$> variableOfTokens operation arguments
  | some .state =>
    (fun v => .state id v.1 v.2) <$> variableOfTokens operation arguments
  | some .init => .init id <$> targetOfTokens operation arguments
  | some .next => .next id <$> targetOfTokens operation arguments
  | some .other => .ok (.other id)
  | none =>
    .error (operation.fault
      (.unknownOperation operation.name (Suggestion.suggest operation.text)))

/-- The declaration that the tokens of a line make; `none` for a line without tokens. -/
def Declaration.ofTokens? : List Token → Except LineFault (Option Declaration)
  | [] => .ok none
  | id :: rest => do
    let number ← id.id?
    match rest with
    | [] => .error (id.fault .operationExpected)
    | operation :: arguments => some <$> ofOperation number operation arguments

/-- The declaration on a line. -/
def Declaration.ofLine? (line : List Char) : Except LineFault (Option Declaration) :=
  ofTokens? (LineTokens.ofLine line).tokens

/-! ## All lines -/

/-- A model that is being read: the number of lines so far, the offset of the next one, and what
the lines so far declare. An offset takes every line end for one byte. -/
structure Reading where
  lines : Nat := 0
  offset : Nat := 0
  declarations : Array Declaration := #[]
  errors : Array SyntaxError := #[]

/-- A fault of the next line, placed in the text. -/
def Reading.place (r : Reading) (e : LineFault) : SyntaxError :=
  ⟨e.fault, r.lines + 1, r.offset + e.start, r.offset + e.stop⟩

/-- Goes past a line. -/
def Reading.pass (r : Reading) (line : List Char) : Reading :=
  { r with lines := r.lines + 1, offset := r.offset + Text.byteSize line + 1 }

/-- Reads one more line. -/
def Reading.line (r : Reading) (line : List Char) : Reading :=
  match Declaration.ofLine? line with
  | .ok none => r.pass line
  | .ok (some d) => { r with declarations := r.declarations.push d }.pass line
  | .error e => { r with errors := r.errors.push (r.place e) }.pass line

/-- Reads all lines of a text. -/
def Reading.ofText (text : List Char) : Reading :=
  (Text.lines text).foldl Reading.line {}

/-- The declarations of a model, or every error in it. -/
def parseModel (text : List Char) : Except ModelError (List Declaration) :=
  let r := Reading.ofText text
  if r.errors.isEmpty then .ok r.declarations.toList else .error (.malformed r.errors.toList)

end WitnessLift
