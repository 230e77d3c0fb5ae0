import FlowLog.Json.Basic
import FlowLog.Request

/-!
# Tool arguments

Arguments arrive as JSON of any shape. Each reader narrows them to what a tool takes, or says what
is wrong first.
-/

namespace FlowLog.Service

/-- The reasons for which arguments are refused. -/
inductive ArgumentError where
  | notObject
  | unknown (name : String)
  | noVerb
  | notStringList (name : String)
  | notAllStrings (name : String)
  | filterNotString
  | noFilter
  | badLimit (value : Json)
  | badVersion (value : Json)

/-- The names of the arguments of a query. -/
def requestNames : List String := ["verb", "fields", "groupBy", "filter", "limit", "version"]

/-- The sentence that reports a fault. -/
def ArgumentError.message : ArgumentError → String
  | .notObject => "Arguments must be an object"
  | .unknown name =>
      "Unknown argument: \"" ++ name ++ "\". Must be one of: " ++ ", ".intercalate requestNames
  | .noVerb => "verb is required and must be a non-empty string"
  | .notStringList name => name ++ " must be a string or an array of strings"
  | .notAllStrings name => name ++ " must contain only strings"
  | .filterNotString => "filter must be a string"
  | .noFilter => "filter is required and must be a string"
  | .badLimit value =>
      "limit must be a non-negative integer, got " ++ String.ofList value.plainText
  | .badVersion value => "version must be an integer, got " ++ String.ofList value.plainText

/-- The members of arguments that are an object. -/
def membersOf : Json → Except ArgumentError (Record Json)
  | .object members => .ok members
  | _ => .error .notObject

/-- The texts of a list that has nothing but texts. -/
def textsOf? : List Json → Option (List String)
  | [] => some []
  | .text value :: rest => (textsOf? rest).map (value :: ·)
  | _ :: _ => none

/-- A list of names: a list of texts, or one text. -/
def readNames (name : String) : Option Json → Except ArgumentError (Option (List String))
  | none => .ok none
  | some (.text value) => .ok (some [value])
  | some (.array items) =>
      match textsOf? items with
      | some values => .ok (some values)
      | none => .error (.notAllStrings name)
  | some _ => .error (.notStringList name)

/-- A verb is a text that is not blank. -/
def readVerb : Option Json → Except ArgumentError String
  | some (.text value) => if Text.blank value.toList then .error .noVerb else .ok value
  | _ => .error .noVerb

/-- A filter that may be left out. -/
def readFilter : Option Json → Except ArgumentError (Option String)
  | none => .ok none
  | some (.text value) => .ok (some value)
  | some _ => .error .filterNotString

/-- A limit is an integer that is not negative. -/
def readLimit : Option Json → Except ArgumentError (Option Number)
  | none => .ok none
  | some (.number value) =>
      if value.isInteger && !value.isNegative then .ok (some value)
      else .error (.badLimit (.number value))
  | some value => .error (.badLimit value)

/-- A version is an integer. -/
def readVersion : Option Json → Except ArgumentError (Option Number)
  | none => .ok none
  | some (.number value) =>
      if value.isInteger then .ok (some value) else .error (.badVersion (.number value))
  | some value => .error (.badVersion value)

/-- The arguments of a query; arguments that are not there are no object. -/
def readRequest (arguments : Option Json) : Except ArgumentError Request := do
  let members ← membersOf (arguments.getD .null)
  match (Record.names members).find? fun name => !requestNames.contains name with
  | some name => throw (.unknown name)
  | none =>
      let verb ← readVerb (Record.get? members "verb")
      let fields ← readNames "fields" (Record.get? members "fields")
      let groupBy ← readNames "groupBy" (Record.get? members "groupBy")
      let filter ← readFilter (Record.get? members "filter")
      let limit ← readLimit (Record.get? members "limit")
      let version ← readVersion (Record.get? members "version")
      return { verb, fields, groupBy, filter, limit, version }

/-- A filter to be checked for a version. -/
structure FilterRequest where
  filter : String
  version : Option Number := none
  deriving DecidableEq, Repr

/-- The arguments of a filter check. -/
def readFilterRequest (arguments : Option Json) : Except ArgumentError FilterRequest := do
  let members ← membersOf (arguments.getD .null)
  match Record.get? members "filter" with
  | some (.text filter) =>
      let version ← readVersion (Record.get? members "version")
      return { filter, version }
  | _ => throw .noFilter

/-- The arguments of a listing: a version, which may be left out together with all arguments. -/
def readListRequest : Option Json → Except ArgumentError (Option Number)
  | none => .ok none
  | some arguments => do
      let members ← membersOf arguments
      readVersion (Record.get? members "version")

end FlowLog.Service
