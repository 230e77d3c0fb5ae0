import FlowLog.Address
import FlowLog.Filter.Error
import FlowLog.Filter.Expr
import FlowLog.Text.Fold

/-!
# From clauses to conditions

What the three parts of a clause mean depends on the class of the field. `comparison` is the plain
rule, `FieldClass.condition` the rule of each class, and `FieldClass.checkValue` the check that some
classes make first.
-/

namespace FlowLog

/-- The condition of an operator without regard to the class of the field: comparisons read the
value as a literal, pattern operators take it as it is. -/
def comparison (field : String) (operator : Operator) (value : String) : Leaf :=
  match operator with
  | .compare comparison => .compare comparison field (.ofText value) none
  | .like => .like false field value none
  | .notLike => .like true field value none

/-- The protocols known by name. -/
def protocolNumbers : List (String × Nat) :=
  [("tcp", 6), ("udp", 17), ("icmp", 1), ("icmpv6", 58), ("esp", 50), ("ah", 51)]

/-- The number of a protocol known by name, in any letter case. -/
def protocolNumber? (name : String) : Option Nat := protocolNumbers.lookup (Text.folded name)

/-- The largest port. -/
def maxPort : Nat := 65535

namespace FieldClass

/-- The condition on an address field follows from the shape of the value: a block asks for
membership, an address for equality and a dotted prefix for a match. The operator only says whether
the condition is negated. -/
def addressCondition (field : String) (operator : Operator) (value : String) :
    Except Filter.Error Expr :=
  let negated := operator.isNegated
  if '/' ∈ value.toList then
    if Address.isBlock value.toList then
      let subnet := Expr.leaf (.inSubnet field value)
      .ok (if negated then .not subnet else subnet)
    else .error (.badBlock field value)
  else if (Address.family? value.toList).isSome then
    .ok (.leaf (.compare (if negated then .ne else .eq) field (.text value) none))
  else if Address.isDottedPrefix value.toList then
    .ok (.leaf (.like negated field value none))
  else .error (.badAddress field value)

/-- The condition on a protocol field: a known name stands for its number. -/
def protocolCondition (field : String) (operator : Operator) (value : String) : Leaf :=
  match Numeral.integer? value.toList with
  | some _ => comparison field operator value
  | none =>
      match protocolNumber? value with
      | some number => comparison field operator (String.ofList (Numeral.digits number))
      | none => comparison field operator value

/-- The condition on a numeric field, whose value has to be a number. -/
def numericCondition (field : String) (operator : Operator) (value : String) :
    Except Filter.Error Leaf :=
  if (Literal.ofText value).isNumeric then .ok (comparison field operator value)
  else .error (.badNumber field value)

/-- The condition on a text field, whose value stays a text. -/
def textCondition (field : String) (operator : Operator) (value : String) :
    Except Filter.Error Leaf :=
  match operator with
  | .compare .eq => .ok (.compare .eq field (.text value) none)
  | .compare .ne => .ok (.compare .ne field (.text value) none)
  | .like => .ok (.like false field value none)
  | .notLike => .ok (.like true field value none)
  | operator => .error (.unorderedText field operator)

/-- The condition that a clause means for a field of a class. -/
def condition (fieldClass : FieldClass) (field : String) (operator : Operator) (value : String) :
    Except Filter.Error Expr :=
  match fieldClass with
  | .address => addressCondition field operator value
  | .port => .ok (.leaf (comparison field operator value))
  | .protocol => .ok (.leaf (protocolCondition field operator value))
  | .numeric => (numericCondition field operator value).map .leaf
  | .text => (textCondition field operator value).map .leaf

/-- A port is an integer numeral whose nearest number is from 0 to 65535. -/
def checkPort (value : String) : Except Filter.Error Unit :=
  match (Numeral.integer? value.toList).map Number.ofInt with
  | none => .error (.badPort value)
  | some nearest =>
      if nearest.isBetween 0 maxPort then .ok () else .error (.portOutOfRange value nearest)

/-- The check that a class makes on a value text before a condition is made of it. -/
def checkValue (fieldClass : FieldClass) (value : String) : Except Filter.Error Unit :=
  match fieldClass with
  | .port => checkPort value
  | _ => .ok ()

end FieldClass

end FlowLog
