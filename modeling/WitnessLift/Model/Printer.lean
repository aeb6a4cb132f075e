-- SUMMARY: Printer of models: the shortest line for each declaration.
import WitnessLift.Model.Declaration

/-!
# Writing a model

Each declaration on a line of its own, in the shortest form that says all of it. Where a
declaration leaves a reference open, line 1 is named.
-/

namespace WitnessLift

/-- The text of a name behind the tokens before it. -/
def nameSuffix : Option String → String
  | none => ""
  | some name => " " ++ name

/-- The line of a declaration. -/
def Declaration.render : Declaration → String
  | .sort id (.bitVec width) => s!"{id} sort bitvec {width}"
  | .sort id .array => s!"{id} sort array 1 1"
  | .input id sortId name => s!"{id} input {sortId}" ++ nameSuffix name
  | .state id sortId name => s!"{id} state {sortId}" ++ nameSuffix name
  | .init id target => s!"{id} init 1 {target} 1"
  | .next id target => s!"{id} next 1 {target} 1"
  | .other id => s!"{id} zero 1"

/-- The text of a model. -/
def renderModel (declarations : List Declaration) : String :=
  String.join (declarations.map fun d => d.render ++ "\n")

end WitnessLift
