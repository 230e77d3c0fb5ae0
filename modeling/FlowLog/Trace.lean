import FlowLog.Log.Event
import FlowLog.Service.Tool

/-!
# What operations log

The events that each operation of the library gives rise to, in order. They follow from the
operation's input alone, so that the operations themselves stay plain functions.
-/

namespace FlowLog.Trace

open FlowLog.Log

/-- A debug event with members as its payload. -/
def debugEvent (category : Category) (message : String) (members : List (String × Payload)) : Event where
  channel := .debug category
  message := message
  payload := .object members

/-- A schema of flow log records is made. -/
def schemaReady : Event :=
  debugEvent .schema "flow log schema ready" [
    ("versions", .array (Schema.FlowRecords.versions.map .number)),
    ("defaultVersion", .number Schema.FlowRecords.defaultVersion)]

/-- A filter text is read. -/
def filterRead (text : String) (expr : Expr) : Event :=
  debugEvent .parser "filter parsed" [
    ("filter", .text (Text.trimmed text)), ("fields", .texts expr.fields)]

/-- Reading a filter text: only a filter that is there and without fault is logged. -/
def parse (vocabulary : Filter.Vocabulary) (text : String) : List Event :=
  match Filter.parse vocabulary text with
  | .ok (some expr) => [filterRead text expr]
  | _ => []

/-- An aggregation as a payload. -/
def aggregationPayload (aggregation : Aggregation) : Payload :=
  .object [("field", .text aggregation.field), ("verb", .text aggregation.function.name)]

/-- A query is built. -/
def queryBuilt (query : Query) : Event :=
  debugEvent .builder "query builder created" [
    ("version", .number query.version),
    ("aggregations", .array (query.aggregations.map aggregationPayload)),
    ("groupBy", .texts query.groupBy),
    ("filterCount", .number (.ofInt query.filters.length)),
    ("limit", .number query.limit)]

/-- Writing a query as an empty text when it has none is logged with the reason. -/
def renderOrEmpty (schema : Schema) (query : Query) : List Event :=
  match query.render schema with
  | .ok _ => []
  | .error error => [
      { channel := .warn
        message := "query render failed"
        payload := .object [
          ("version", .number query.version), ("error", (Service.Failure.query error).payload)] }]

/-- A request is compiled to a text. -/
def queryCompiled (request : Request) (query : Query) (text : String) : Event :=
  debugEvent .builder "query compiled" [
    ("verb", .text request.verb), ("version", .number query.version), ("query", .text text)]

/-- Turning a request into settings: the filter is read once the verb is known. -/
def settings (vocabulary : Filter.Vocabulary) (request : Request) : List Event :=
  match request.readVerb, request.filter with
  | .ok _, some text => parse vocabulary text
  | _, _ => []

/-- Compiling a request. -/
def compile (schema : Option Schema) (config : Config) (request : Request) : List Event :=
  settings (Request.vocabulary schema) request ++
    match request.query schema config with
    | .error _ => []
    | .ok query =>
        queryBuilt query ::
          match schema.map query.render with
          | some (.ok text) => if text = "" then [] else [queryCompiled request query text]
          | _ => []

/-- Checking a filter: it is read once the version is accepted. -/
def validateFilter (service : Service) (request : Service.FilterRequest) : List Event :=
  match service.schema.checkVersion (request.version.getD service.config.defaultVersion) with
  | .ok _ => parse service.vocabulary request.filter
  | .error _ => []

/-- Answering a call with a tool, once its arguments are read. -/
def answer (service : Service) (arguments : Option Json) : Service.Tool → List Event
  | .compileQuery =>
      match Service.readRequest (Service.orEmpty arguments) with
      | .ok request => compile (some service.schema) service.config request
      | .error _ => []
  | .validateFilter =>
      match Service.readFilterRequest (Service.orEmpty arguments) with
      | .ok request => validateFilter service request
      | .error _ => []
  | .listFields => []

/-- The size of arguments: the number of units of their text. Arguments that are not there have
none. -/
def argumentsSize : Option Json → Nat
  | none => 0
  | some .null => 0
  | some arguments => arguments.compact.length

/-- A call is taken up. -/
def callStarted (name : String) (arguments : Option Json) : Event :=
  debugEvent .server "request:start" [
    ("tool", .text name), ("argumentsSize", .number (.ofInt (argumentsSize arguments)))]

/-- A call is over; its duration is measured from its start. -/
def callFinished (now : Number) (name status : String) : Event :=
  let timer : Timer := { name := "tool:" ++ name, started := now }
  timer.finish now [("tool", .text name), ("status", .text status)]

/-- A call has failed. -/
def callFailed (name : String) (failure : Service.Failure) : Event where
  channel := .warn
  message := "Error handling tool \"" ++ name ++ "\""
  payload := .object [("tool", .text name), ("error", failure.payload)]

/-- Answering a call by name at an instant. -/
def call (service : Service) (now : Number) (name : String) (arguments : Option Json) : List Event :=
  let answering :=
    match Service.Tool.ofName? name with
    | some tool => answer service arguments tool
    | none => []
  let ending :=
    match service.call name arguments with
    | .ok _ => [callFinished now name "success"]
    | .error failure => [callFinished now name "error", callFailed name failure]
  callStarted name arguments :: answering ++ ending

/-- A service starts with a configuration. -/
def configured (config : Config) : Event where
  channel := .info
  message := "configuration loaded"
  payload := .object [
    ("defaultLimit", .number config.defaultLimit), ("defaultVersion", .number config.defaultVersion)]

end FlowLog.Trace
