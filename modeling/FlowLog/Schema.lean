import FlowLog.Number.Shortest

/-!
# Schemas

A schema is the query dialect of a log source: which fields its records have in each version, how
records are parsed, which fields are numeric and which are computed from others.
-/

namespace FlowLog

namespace Schema

/-- The reasons for which a schema refuses a version or a field. -/
inductive Fault where
  | noPattern (version : Number)
  | unknownVersion (version : Number) (field : Option String)
  | unknownField (field : String) (version : Number)
  /-- A fault of a dialect with a wording of its own. -/
  | other (message : String)
  /-- A refusal that is nothing but a text, and so is never kept as a cause. -/
  | bare (text : String)
  deriving DecidableEq, Repr

namespace Fault

/-- The sentence that reports a fault. -/
def message : Fault → String
  | .noPattern version =>
      "unsupported VPC Flow Log version for parse pattern: " ++ String.ofList version.text
  | .unknownVersion version _ => "invalid flow log version: " ++ String.ofList version.text
  | .unknownField field version =>
      "invalid field '" ++ field ++ "' for version " ++ String.ofList version.text
  | .other message => message
  | .bare text => text

/-- The version at fault. -/
def version? : Fault → Option Number
  | .noPattern version => some version
  | .unknownVersion version _ => some version
  | .unknownField _ version => some version
  | _ => none

/-- The field at fault. -/
def field? : Fault → Option String
  | .unknownVersion _ field => field
  | .unknownField field _ => some field
  | _ => none

end Fault

end Schema

/-- The query dialect of a log source. -/
structure Schema where
  /-- The version that is meant when none is given. -/
  defaultVersion : Number
  /-- The statement that parses records of a version. -/
  parsePattern : Number → Except Schema.Fault String
  /-- Accepts the fields that a version has. -/
  checkField : String → Number → Except Schema.Fault Unit
  /-- Accepts the versions that exist. -/
  checkVersion : Number → Except Schema.Fault Unit
  /-- Whether a field is a number. -/
  isNumeric : String → Bool
  /-- The computation that a field stands for, which is the same in every version. -/
  computed : String → Option String
  /-- The fields of the records of a version, in record order. -/
  fields : Number → Except Schema.Fault (List String)
  /-- The fields that stand for computations. -/
  computedFields : List String

end FlowLog
