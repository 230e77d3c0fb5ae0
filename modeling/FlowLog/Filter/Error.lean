import FlowLog.Filter.FieldClass
import FlowLog.Number.Shortest

/-!
# What is wrong with a filter

Each cause carries the piece of text at fault. The wording, the stage at which the fault shows, and
the hint are functions of the cause.
-/

namespace FlowLog.Filter

/-- The reasons for which a filter is refused. -/
inductive Error where
  | noOperator (clause : String)
  | noField (clause : String)
  | emptyGroup (group : String)
  | unsupportedOperator (fieldClass : FieldClass) (field : String) (operator : Operator)
    (clause : String)
  | badBlock (field value : String)
  | badAddress (field value : String)
  | badPort (value : String)
  | portOutOfRange (value : String) (port : Number)
  | badNumber (field value : String)
  | unorderedText (field : String) (operator : Operator)
  | childless (connective : Connective)
  deriving DecidableEq, Repr

namespace Error

/-- The stages at which a fault can show. -/
inductive Stage where
  | lexer
  | parser
  | validator
  deriving DecidableEq, Repr

/-- The name of a stage in reports. -/
def Stage.name : Stage → String
  | .lexer => "lexer"
  | .parser => "parser"
  | .validator => "validator"

/-- The stage at which a fault shows. -/
def stage : Error → Stage
  | .noOperator _ => .lexer
  | .childless _ => .validator
  | _ => .parser

/-- The sentence that reports a fault. -/
def message : Error → String
  | .noOperator clause => "invalid filter clause: \"" ++ clause ++ "\""
  | .noField clause => "missing field name in filter clause: \"" ++ clause ++ "\""
  | .emptyGroup group => "empty group in filter: \"" ++ group ++ "\""
  | .unsupportedOperator fieldClass field operator _ =>
      "unsupported operator for " ++ fieldClass.name ++ " field " ++ field ++ ": \"" ++
        operator.symbol ++ "\""
  | .badBlock _ value => "invalid CIDR block: " ++ value
  | .badAddress field value =>
      "invalid IP, CIDR, or prefix value for field " ++ field ++ ": " ++ value
  | .badPort value => "invalid port value: " ++ value
  | .portOutOfRange _ port => "port out of range: " ++ String.ofList port.text
  | .badNumber field value => "invalid numeric value for field " ++ field ++ ": " ++ value
  | .unorderedText _ operator =>
      "unsupported operator for non-numeric field: \"" ++ operator.symbol ++ "\""
  | .childless connective => "empty " ++ connective.keyword ++ " expression in filter"

/-- The piece of text at fault. -/
def snippet? : Error → Option String
  | .noOperator clause => some clause
  | .noField clause => some clause
  | .emptyGroup group => some group
  | .unsupportedOperator _ _ _ clause => some clause
  | .badBlock _ value => some value
  | .badAddress _ value => some value
  | .badPort value => some value
  | .portOutOfRange value _ => some value
  | .badNumber _ value => some value
  | .unorderedText _ operator => some operator.symbol
  | .childless _ => none

/-- The field of the clause at fault, where the report names one. -/
def field? : Error → Option String
  | .unsupportedOperator _ field _ _ => some field
  | .badBlock field _ => some field
  | .badAddress field _ => some field
  | .badNumber field _ => some field
  | .unorderedText field _ => some field
  | _ => none

/-- What to do about a fault. -/
def hint : Error → String
  | .noOperator _ =>
      "Each clause needs a field, an operator (=, !=, >, <, >=, <=, like, not like) and a value"
  | .noField _ => "Put the field before the operator, e.g. dstport = 443"
  | .emptyGroup _ => "Parentheses must contain at least one comparison"
  | .unsupportedOperator fieldClass field _ _ =>
      "Supported operators for " ++ field ++ ": " ++
        ", ".intercalate (fieldClass.operators.map Operator.symbol)
  | .badBlock _ _ => "CIDR blocks look like 10.0.0.0/24"
  | .badAddress _ _ =>
      "Use a full address (10.0.0.1), a CIDR block (10.0.0.0/24) or a prefix (10.0)"
  | .badPort _ => "Ports are integers between 0 and 65535"
  | .portOutOfRange _ _ => "Ports are integers between 0 and 65535"
  | .badNumber _ _ => "Numeric fields compare against integers or decimals, e.g. bytes > 1000"
  | .unorderedText _ _ => "String fields support =, !=, like and not like"
  | .childless connective => "Give " ++ connective.keyword ++ "() at least one condition"

end Error

end FlowLog.Filter
