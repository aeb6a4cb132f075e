-- SUMMARY: The operations of a model and the roles of those that declare something.
/-!
# Operations of a model

The names that may stand behind the id of a line, and which of them introduce something that a
witness refers to.
-/

namespace WitnessLift.Operation

/-- Every operation, in the order in which suggestions list them. -/
def all : List String :=
  [ -- one operand
    "not", "inc", "dec", "neg", "redand", "redor", "redxor", "slice", "uext", "sext",
    -- two operands
    "iff", "implies", "sgt", "ugt", "sgte", "ugte", "slt", "ult", "slte", "ulte", "and", "nand",
    "nor", "or", "xnor", "xor", "rol", "ror", "sll", "sra", "srl", "add", "mul", "sdiv", "udiv",
    "smod", "srem", "urem", "sub", "saddo", "uaddo", "sdivo", "udivo", "smulo", "umulo", "ssubo",
    "usubo", "concat", "eq", "neq", "read",
    -- three operands
    "ite", "write",
    -- declarations, properties and constants
    "sort", "input", "output", "bad", "constraint", "fair", "justice", "state", "next", "init",
    "const", "constd", "consth", "zero", "one", "ones"]

/-- The role of an operation in a model. -/
inductive Role where
  | sort
  | input
  | state
  | init
  | next
  | other
  deriving DecidableEq, Repr

/-- The role of the operation of this name; `none` if there is no such operation. -/
def role? (name : String) : Option Role :=
  if name = "sort" then some .sort
  else if name = "input" then some .input
  else if name = "state" then some .state
  else if name = "init" then some .init
  else if name = "next" then some .next
  else if name ∈ all then some .other
  else none

end WitnessLift.Operation
