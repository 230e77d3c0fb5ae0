import FlowLog.Json.Writer
import FlowLog.Service.Failure

/-!
# Tools

A service answers three tools over one schema and one configuration: compiling a query, checking a
filter and listing fields.
-/

namespace FlowLog

/-- A schema and the defaults for requests. -/
structure Service where
  schema : Schema
  config : Config

namespace Service

/-- The tools of a service. -/
inductive Tool where
  | compileQuery
  | validateFilter
  | listFields
  deriving DecidableEq, Repr

namespace Tool

/-- The name of a tool. -/
def name : Tool → String
  | .compileQuery => "compile_query"
  | .validateFilter => "validate_filter"
  | .listFields => "list_fields"

/-- All tools. -/
def all : List Tool := [.compileQuery, .validateFilter, .listFields]

/-- The tool with a given name. -/
def ofName? (name : String) : Option Tool := all.find? (·.name == name)

end Tool

/-- The text of the query that a request describes. -/
def compileQuery (service : Service) (request : Request) : Except Failure String :=
  (request.compile service.schema service.config).mapError .ofRequest

/-- The vocabulary in which a service reads filters. -/
def vocabulary (service : Service) : Filter.Vocabulary := .ofSchema service.schema .flowRecords

/-- The expression of a filter that holds for a version, or nothing for a blank filter. -/
def checkFilter (service : Service) (filter : String) (version : Number) :
    Except Failure (Option Expr) := do
  (service.schema.checkVersion version).mapError .schema
  let expr ← (Filter.parse service.vocabulary filter).mapError .filter
  match expr with
  | some expr =>
      (Filter.check service.schema version expr).mapError .ofCheck
      return some expr
  | none => return none

/-- The report on a filter that holds for a version. -/
def filterReport (version : Number) (expr : Option Expr) : Json :=
  .object [
    ("valid", .bool true),
    ("version", .number version),
    ("rendered", .text ((expr.map Expr.render).getD "")),
    ("fields", .texts ((expr.map Expr.fields).getD []))]

/-- Checks a filter and reports how it is compiled. -/
def validateFilter (service : Service) (request : FilterRequest) : Except Failure String := do
  let version := request.version.getD service.config.defaultVersion
  let expr ← service.checkFilter request.filter version
  return (filterReport version expr).page

/-- The description of a record field. -/
def fieldReport (schema : Schema) (name : String) : Json :=
  .object [("name", .text name), ("numeric", .bool (schema.isNumeric name))]

/-- The description of a computed field. -/
def computedReport (schema : Schema) (name : String) : Json :=
  .object [("name", .text name), ("numeric", .bool (schema.isNumeric name)),
    ("expression", .text ((schema.computed name).getD ""))]

/-- The descriptions of all fields of a version, the computed ones last. -/
def listReport (service : Service) (version : Number) : Except Failure Json := do
  let fields ← (service.schema.fields version).mapError .schema
  return .object [
    ("version", .number version),
    ("fields", .array (fields.map (fieldReport service.schema) ++
      service.schema.computedFields.map (computedReport service.schema)))]

/-- Lists the fields of a version. -/
def listFields (service : Service) (version : Option Number) : Except Failure String := do
  let report ← service.listReport (version.getD service.config.defaultVersion)
  return report.page

/-- Arguments for tools that need some: arguments that are not there are an empty object. -/
def orEmpty : Option Json → Option Json
  | none => some (.object [])
  | some .null => some (.object [])
  | arguments => arguments

/-- The answer of a tool to arguments of any shape. -/
def answer (service : Service) (arguments : Option Json) : Tool → Except Failure String
  | .compileQuery => do
      let request ← (readRequest (orEmpty arguments)).mapError .arguments
      service.compileQuery request
  | .validateFilter => do
      let request ← (readFilterRequest (orEmpty arguments)).mapError .arguments
      service.validateFilter request
  | .listFields => do
      let version ← (readListRequest arguments).mapError .arguments
      service.listFields version

/-- The answer to a call by name. -/
def call (service : Service) (name : String) (arguments : Option Json) : Except Failure String :=
  match Tool.ofName? name with
  | some tool => service.answer arguments tool
  | none => .error (.unknownTool name)

/-- What a caller gets back. -/
structure Reply where
  text : String
  isError : Bool
  deriving DecidableEq, Repr

/-- The reply to a call by name: a failure is a reply too. -/
def reply (service : Service) (name : String) (arguments : Option Json) : Reply :=
  match service.call name arguments with
  | .ok text => { text, isError := false }
  | .error failure => { text := "Error: " ++ failure.message, isError := true }

end Service

end FlowLog
