import FlowLog.Filter.Operator

/-!
# Field classes

Every field belongs to a class, which says which operators it takes and which values. A field that
nobody registered is a text field.

The classes are the five below and no others: a field can be given one of them, but a class with
rules of its own cannot be added.
-/

namespace FlowLog

/-- The classes of fields. -/
inductive FieldClass where
  | address
  | port
  | protocol
  | numeric
  | text
  deriving DecidableEq, Repr

namespace FieldClass

/-- The name of a class in messages. -/
def name : FieldClass → String
  | .address => "ip"
  | .port => "port"
  | .protocol => "protocol"
  | .numeric => "numeric"
  | .text => "string"

/-- All classes. -/
def all : List FieldClass := [.address, .port, .protocol, .numeric, .text]

/-- The class with a given name. -/
def ofName? (name : String) : Option FieldClass := all.find? (·.name == name)

/-- The operators that fields of a class take, in the order in which messages list them. -/
def operators : FieldClass → List Operator
  | .address => Operator.equality
  | .port => Operator.ordered
  | .protocol => Operator.ordered
  | .numeric => Operator.ordered
  | .text => Operator.equality

/-- Whether a class checks value texts before a condition is made of them. -/
def checksValues : FieldClass → Bool
  | .port => true
  | _ => false

end FieldClass

end FlowLog
