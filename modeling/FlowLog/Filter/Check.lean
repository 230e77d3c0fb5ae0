import FlowLog.Filter.Error
import FlowLog.Filter.Expr
import FlowLog.Schema

/-!
# Checking expressions against a schema

Every leaf of an expression has to name a field of the record version, and no connective may be
without operands. The first fault from left to right is reported.
-/

namespace FlowLog.Filter

/-- What is wrong with an expression for a schema. -/
inductive CheckError where
  | shape (error : Error)
  | field (fault : Schema.Fault)
  deriving DecidableEq, Repr

/-- The sentence that reports a fault. -/
def CheckError.message : CheckError → String
  | .shape error => error.message
  | .field fault => fault.message

/-- Checks the field of a leaf. -/
def checkLeaf (schema : Schema) (version : Number) (condition : Leaf) : Except CheckError Unit :=
  (schema.checkField condition.name version).mapError .field

mutual

/-- Checks an expression for a version. -/
def check (schema : Schema) (version : Number) : Expr → Except CheckError Unit
  | .leaf condition => checkLeaf schema version condition
  | .node connective [] => .error (.shape (.childless connective))
  | .node _ children => checkAll schema version children
  | .not child => check schema version child

/-- Checks some expressions, up to the first fault. -/
def checkAll (schema : Schema) (version : Number) : List Expr → Except CheckError Unit
  | [] => .ok ()
  | child :: rest => do
      check schema version child
      checkAll schema version rest

end

end FlowLog.Filter
