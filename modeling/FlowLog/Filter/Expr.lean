import FlowLog.Filter.Literal
import FlowLog.Filter.Operator

/-!
# Filter expressions

A leaf is one condition on one field. An expression combines leaves by connectives and negation.

A leaf whose field was expanded into a computation remembers the name that stood in the filter as
its source. Rendering never looks at sources; `Expr.fields` does.
-/

namespace FlowLog

/-- One condition on one field. -/
inductive Leaf where
  | compare (comparison : Comparison) (field : String) (value : Literal) (source : Option String)
  | like (negated : Bool) (field : String) (pattern : String) (source : Option String)
  | inSubnet (field : String) (block : String)
  deriving DecidableEq, Repr

/-- A filter expression. -/
inductive Expr where
  | leaf (condition : Leaf)
  | node (connective : Connective) (children : List Expr)
  | not (child : Expr)
  deriving Repr

instance : Inhabited Expr := ⟨.node .and []⟩

namespace Leaf

/-- The field as it is written in the query. -/
def field : Leaf → String
  | .compare _ field _ _ => field
  | .like _ field _ _ => field
  | .inSubnet field _ => field

/-- The name of the record field that a leaf is about: its source if it has one, else its field. -/
def name : Leaf → String
  | .compare _ field _ source => source.getD field
  | .like _ field _ source => source.getD field
  | .inSubnet field _ => field

/-- Marks a leaf as coming from the field `source`. Subnet conditions carry no mark. -/
def withSource (source : String) : Leaf → Leaf
  | .compare comparison field value _ => .compare comparison field value (some source)
  | .like negated field pattern _ => .like negated field pattern (some source)
  | .inSubnet field block => .inSubnet field block

/-- Whether a character shows that a field is a computation. -/
def isArithmetic (c : Char) : Bool :=
  c == ' ' || c == '-' || c == '/' || c == '*' || c == '+' || c == '(' || c == ')'

/-- A field as the left side of a comparison: a computation is put in parentheses. -/
def formatField (field : String) : String :=
  if field.toList.any isArithmetic then "(" ++ field ++ ")" else field

/-- How a leaf is written in a query. -/
def render : Leaf → String
  | .compare comparison field value _ =>
      formatField field ++ " " ++ comparison.symbol ++ " " ++ value.render
  | .like negated field pattern _ =>
      field ++ (if negated then " not like " else " like ") ++ Literal.quoted pattern
  | .inSubnet field block => "isIpv4InSubnet(" ++ field ++ ", '" ++ block ++ "')"

end Leaf

namespace Expr

mutual

/-- Marks every leaf of an expression as coming from the field `source`. -/
def withSource (source : String) : Expr → Expr
  | .leaf condition => .leaf (condition.withSource source)
  | .node connective children => .node connective (withSourceAll source children)
  | .not child => .not (withSource source child)

/-- Marks every leaf of some expressions. -/
def withSourceAll (source : String) : List Expr → List Expr
  | [] => []
  | child :: rest => withSource source child :: withSourceAll source rest

end

mutual

/-- The leaves of an expression from left to right. -/
def leaves : Expr → List Leaf
  | .leaf condition => [condition]
  | .node _ children => leavesAll children
  | .not child => leaves child

/-- The leaves of some expressions from left to right. -/
def leavesAll : List Expr → List Leaf
  | [] => []
  | child :: rest => leaves child ++ leavesAll rest

end

/-- The names of the record fields that an expression refers to, leaf by leaf. -/
def fields (expr : Expr) : List String := expr.leaves.map Leaf.name

mutual

/-- How an expression is written in a query. An `or` is always in parentheses and an `and` never
is. -/
def render : Expr → String
  | .leaf condition => condition.render
  | .node .and children => " and ".intercalate (renderAll children)
  | .node .or [] => ""
  | .node .or children => "(" ++ " or ".intercalate (renderAll children) ++ ")"
  | .not child => "not " ++ render child

/-- How some expressions are written. -/
def renderAll : List Expr → List String
  | [] => []
  | child :: rest => render child :: renderAll rest

end

end Expr

end FlowLog
