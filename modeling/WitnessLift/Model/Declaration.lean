-- SUMMARY: The declarations of a model that matter for its bit layout.
/-!
# Declarations of a model

What a line of a word-level model says, as far as it matters for finding the bits of a variable in
a witness of the flattened model.
-/

namespace WitnessLift

/-- The number that names a line of a model. -/
abbrev Id := UInt32

/-- What a `sort` line introduces. -/
inductive SortKind where
  | bitVec (width : UInt32)
  | array
  deriving DecidableEq, Repr

/-- One line of a model. `init` and `next` give a state its initial value and its update; of an
operation that introduces no variable only the id is kept. -/
inductive Declaration where
  | sort (id : Id) (kind : SortKind)
  | input (id : Id) (sort : Id) (name : Option String)
  | state (id : Id) (sort : Id) (name : Option String)
  | init (id : Id) (state : Id)
  | next (id : Id) (state : Id)
  | other (id : Id)
  deriving DecidableEq, Repr

/-- The id that a declaration introduces. -/
def Declaration.id : Declaration → Id
  | .sort id _ => id
  | .input id _ _ => id
  | .state id _ _ => id
  | .init id _ => id
  | .next id _ => id
  | .other id => id

end WitnessLift
