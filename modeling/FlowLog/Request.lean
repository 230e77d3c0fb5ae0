import FlowLog.Config
import FlowLog.Filter.Parse
import FlowLog.Query.Render

/-!
# Requests

A request describes a query the way a caller types it: the name of a verb, lists of field names, and
a filter text. `Request.compile` turns it into the text of a query.
-/

namespace FlowLog

/-- A query as a caller describes it. -/
structure Request where
  verb : String
  fields : Option (List String) := none
  groupBy : Option (List String) := none
  filter : Option String := none
  limit : Option Number := none
  version : Option Number := none
  deriving DecidableEq, Repr

namespace Request

/-- The reasons for which a request is refused. -/
inductive Error where
  | filter (error : Filter.Error)
  | query (error : QueryError)
  deriving DecidableEq, Repr

/-- The names in some values, each of which may hold several with commas between them. Blanks around
a name do not count, and an empty name is no name. -/
def fieldList (values : List String) : List String :=
  values.flatMap fun value =>
    ((value.toList.splitOn ',').map Text.trim).filterMap fun name =>
      if name.isEmpty then none else some (String.ofList name)

/-- The verb that a request names. -/
def readVerb (request : Request) : Except QueryError Verb :=
  match Verb.ofText? request.verb with
  | some verb => .ok verb
  | none => .error (.invalidVerb request.verb)

/-- The setting that the fields of a request stand for: listed fields, or one aggregation for
each. -/
def fieldSettings (verb : Verb) (fields : List String) : List Setting :=
  if fields.isEmpty then []
  else
    match verb with
    | .raw => [.fields fields]
    | .aggregate function => [.aggregations (fields.map fun field => ⟨field, function⟩)]

/-- The setting for a grouping, if there is one. -/
def groupSettings (fields : List String) : List Setting :=
  if fields.isEmpty then [] else [.groupBy fields]

/-- The setting for a filter text, if it is there and not empty. -/
def filterSettings (vocabulary : Filter.Vocabulary) (text : Option String) :
    Except Filter.Error (List Setting) :=
  match text with
  | none => .ok []
  | some text =>
      if text = "" then .ok [] else (Filter.parse vocabulary text).map fun filter => [.filter filter]

/-- The settings of a request in the order in which they apply. -/
def settings (vocabulary : Filter.Vocabulary) (config : Config) (request : Request) :
    Except Error (List Setting) := do
  let verb ← request.readVerb.mapError .query
  let filters ← (filterSettings vocabulary request.filter).mapError .filter
  return [.version (request.version.getD config.defaultVersion),
      .limit (request.limit.getD config.defaultLimit), .verb verb] ++
    fieldSettings verb (fieldList (request.fields.getD [])) ++
    groupSettings (fieldList (request.groupBy.getD [])) ++ filters

/-- The vocabulary of filters for a schema that may be missing. -/
def vocabulary : Option Schema → Filter.Vocabulary
  | some schema => .ofSchema schema .flowRecords
  | none => {}

/-- The query that a request describes. -/
def query (schema : Option Schema) (config : Config) (request : Request) : Except Error Query := do
  let settings ← request.settings (vocabulary schema) config
  (Query.create schema settings).mapError .query

/-- The text of the query that a request describes. -/
def compile (schema : Schema) (config : Config) (request : Request) : Except Error String := do
  let query ← request.query (some schema) config
  let text ← (query.render schema).mapError .query
  if text = "" then
    throw (.query .emptyQuery)
  return text

end Request

end FlowLog
