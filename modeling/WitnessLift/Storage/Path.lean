-- SUMMARY: Paths, their last names, and the files around a model.
import WitnessLift.Text.Utf8

/-!
# Paths

A path is a text in which `/` separates names. A witness is looked for and written in a directory
of its own, under the name of its model.
-/

namespace WitnessLift

/-- Where a file is. -/
structure Path where
  text : String
  deriving DecidableEq, Repr

namespace Path

/-- The pieces of a path between its separators, empty ones included. -/
def segments : List Char → List (List Char)
  | [] => [[]]
  | c :: rest =>
    if c = '/' then [] :: segments rest
    else
      match segments rest with
      | [] => [[c]]
      | piece :: pieces => (c :: piece) :: pieces

/-- The last name of a path. Separators and `.` at its end do not count; a path that ends in `..`,
or that has nothing else, has no name. -/
def fileName? (p : Path) : Option String :=
  match (segments p.text.toList).reverse.dropWhile (fun s => s = [] ∨ s = ['.']) with
  | [] => none
  | last :: _ => if last = ['.', '.'] then none else some (String.ofList last)

/-- The last name of a path, or the whole path if it has none. -/
def baseName (p : Path) : Path :=
  ⟨p.fileName?.getD p.text⟩

/-- A path with a dot and an extension behind it. -/
def withExtension (p : Path) (extension : String) : Path :=
  ⟨p.text ++ "." ++ extension⟩

/-- Whether a path starts at the root. -/
def isAbsolute (p : Path) : Bool := p.text.toList.head? == some '/'

/-- A path taken from a directory on. An absolute path stays what it is. -/
def join (directory p : Path) : Path :=
  if p.isAbsolute then p
  else if directory.text.toList = [] ∨ directory.text.toList.getLast? = some '/' then
    ⟨directory.text ++ p.text⟩
  else ⟨directory.text ++ "/" ++ p.text⟩

/-! ## The files around a model -/

/-- The flattened model, beside the model. -/
def flattened (model : Path) : Path := model.withExtension "aig"

/-- The trace that a checker of the flattened model writes. -/
def trace (model directory : Path) : Path :=
  directory.join (model.baseName.withExtension "cex")

/-- The witness that the trace is lifted to. -/
def witness (model directory : Path) : Path :=
  directory.join (model.baseName.withExtension "cexb")

/-- Where a file is written before it is moved into place. -/
def scratch (p : Path) : Path := p.withExtension "tmp"

end Path

end WitnessLift
