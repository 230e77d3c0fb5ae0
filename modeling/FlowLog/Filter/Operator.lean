/-!
# Operators and connectives of filters

A filter text knows eight operators: six comparisons and the two pattern operators. Conditions are
combined by the connectives `and` and `or`.
-/

namespace FlowLog

/-- The comparisons of a field with a literal. -/
inductive Comparison where
  | eq
  | ne
  | gt
  | lt
  | ge
  | le
  deriving DecidableEq, Repr

/-- How a comparison is written, both in a filter text and in a query. -/
def Comparison.symbol : Comparison → String
  | .eq => "="
  | .ne => "!="
  | .gt => ">"
  | .lt => "<"
  | .ge => ">="
  | .le => "<="

/-- The operators of a filter text. -/
inductive Operator where
  | compare (comparison : Comparison)
  | like
  | notLike
  deriving DecidableEq, Repr

namespace Operator

/-- How an operator is written. -/
def symbol : Operator → String
  | .compare comparison => comparison.symbol
  | .like => "like"
  | .notLike => "not like"

/-- All operators in the order in which they are searched for: an operator comes before the shorter
ones it contains. -/
def scanOrder : List Operator :=
  [.compare .ne, .notLike, .compare .ge, .compare .le, .compare .gt, .compare .lt, .compare .eq, .like]

/-- The operators of fields that are equal or match but have no order. -/
def equality : List Operator := [.compare .eq, .compare .ne, .like, .notLike]

/-- The operators of fields that have an order. -/
def ordered : List Operator :=
  [.compare .eq, .compare .ne, .compare .gt, .compare .lt, .compare .ge, .compare .le]

/-- The operator with a given symbol. -/
def ofSymbol? (symbol : String) : Option Operator := scanOrder.find? (·.symbol == symbol)

/-- Whether an operator asks for the opposite of equality or of a match. -/
def isNegated : Operator → Bool
  | .compare .ne => true
  | .notLike => true
  | _ => false

end Operator

/-- The connectives between conditions. -/
inductive Connective where
  | and
  | or
  deriving DecidableEq, Repr

/-- How a connective is written. -/
def Connective.keyword : Connective → String
  | .and => "and"
  | .or => "or"

end FlowLog
