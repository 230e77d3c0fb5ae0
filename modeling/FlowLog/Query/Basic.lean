import FlowLog.Query.Error

/-!
# Queries

A query starts from the defaults of its schema and is changed by settings, one after another. The
first setting that is refused decides the error.

While a query aggregates, fields set for it name what is aggregated; they also wait in `pending` and
are listed if the verb later becomes `raw`.
-/

namespace FlowLog

/-- A query over the records of a schema. -/
structure Query where
  /-- What is computed; a query without aggregations lists records. -/
  aggregations : List Aggregation := [.countAll]
  /-- The fields that are listed. -/
  fields : List String := []
  /-- The fields to list if the verb becomes `raw`. -/
  pending : List String := []
  groupBy : List String := []
  filters : List Expr := []
  /-- The largest number of rows, where zero stands for any number. -/
  limit : Number := 100
  version : Number

/-- One step in the making of a query. -/
inductive Setting where
  | verb (verb : Verb)
  | fields (fields : List String)
  | aggregations (aggregations : List Aggregation)
  | groupBy (fields : List String)
  | limit (limit : Number)
  | filter (filter : Option Expr)
  | version (version : Number)

namespace Query

/-- The query that counts all records of the default version. -/
def start (schema : Schema) : Query where
  version := schema.defaultVersion

/-- Accepts the fields that the schema has in a version. -/
def checkField (schema : Schema) (version : Number) (part : QueryPart) (field : String) :
    Except QueryError Unit :=
  (schema.checkField field version).mapError (.badField part field)

/-- Accepts some fields, up to the first that the schema does not have. -/
def checkFields (schema : Schema) (version : Number) (part : QueryPart) (fields : List String) :
    Except QueryError Unit :=
  fields.forM (checkField schema version part)

/-- Functions other than counting need a numeric field. -/
def requireNumeric (schema : Schema) (part : QueryPart) (field : String) (function : Aggregate) :
    Except QueryError Unit :=
  if function = .count ∨ schema.isNumeric field then .ok () else .error (.notNumeric part field function)

/-- Lists records: fields that were waiting are listed, else those set before, else all. -/
def listRecords (query : Query) : Query :=
  if query.pending ≠ [] then
    { query with aggregations := [], fields := query.pending, pending := [] }
  else
    { query with aggregations := [], fields := if query.fields = [] then ["*"] else query.fields }

/-- Sets the function of the first aggregation, or starts to aggregate. -/
def aggregateBy (schema : Schema) (query : Query) (function : Aggregate) : Except QueryError Query :=
  match query.aggregations with
  | [] => .ok { query with aggregations := [⟨"*", function⟩] }
  | first :: rest => do
      if first.field ≠ "*" then
        requireNumeric schema .verb first.field function
      return { query with aggregations := ⟨first.field, function⟩ :: rest }

/-- Sets the fields that are listed, or the field of the first aggregation. -/
def setFields (schema : Schema) (query : Query) (fields : List String) : Except QueryError Query := do
  checkFields schema query.version .fields fields
  match query.aggregations, fields with
  | [], _ => return { query with fields }
  | _, [] => return { query with pending := [] }
  | first :: rest, field :: _ =>
      requireNumeric schema .fields field first.function
      return { query with pending := fields, aggregations := ⟨field, first.function⟩ :: rest }

/-- Accepts an aggregation whose field exists and suits its function. -/
def checkAggregation (schema : Schema) (version : Number) (aggregation : Aggregation) :
    Except QueryError Unit := do
  checkField schema version .aggregations aggregation.field
  requireNumeric schema .aggregations aggregation.field aggregation.function

/-- Sets the aggregations, of which there has to be one. -/
def setAggregations (schema : Schema) (query : Query) (aggregations : List Aggregation) :
    Except QueryError Query := do
  if aggregations = [] then
    throw .noAggregation
  aggregations.forM (checkAggregation schema query.version)
  return { query with aggregations }

/-- Sets the fields by which rows are grouped. -/
def setGroupBy (schema : Schema) (query : Query) (fields : List String) : Except QueryError Query := do
  checkFields schema query.version .groupBy fields
  return { query with groupBy := fields }

/-- Sets the largest number of rows. -/
def setLimit (query : Query) (limit : Number) : Except QueryError Query :=
  if !limit.isInteger then .error (.limitNotInteger limit)
  else if limit.isNegative then .error .limitNegative
  else .ok { query with limit }

/-- Adds a filter to those that are there. -/
def addFilter (schema : Schema) (query : Query) (filter : Expr) : Except QueryError Query := do
  (Filter.check schema query.version filter).mapError .badFilter
  return { query with filters := query.filters ++ [filter] }

/-- Sets the record version. -/
def setVersion (schema : Schema) (query : Query) (version : Number) : Except QueryError Query := do
  (schema.checkVersion version).mapError (.badVersion version)
  return { query with version }

/-- Changes a query by one setting. -/
def apply (schema : Schema) (query : Query) : Setting → Except QueryError Query
  | .verb .raw => .ok query.listRecords
  | .verb (.aggregate function) => query.aggregateBy schema function
  | .fields fields => query.setFields schema fields
  | .aggregations aggregations => query.setAggregations schema aggregations
  | .groupBy fields => query.setGroupBy schema fields
  | .limit limit => query.setLimit limit
  | .filter none => .ok query
  | .filter (some filter) => query.addFilter schema filter
  | .version version => query.setVersion schema version

/-- The query that settings make, one after another. -/
def build (schema : Schema) (settings : List Setting) : Except QueryError Query :=
  settings.foldlM (apply schema) (start schema)

/-- The query that settings make for a schema that may be missing. -/
def create : Option Schema → List Setting → Except QueryError Query
  | none, _ => .error .noSchema
  | some schema, settings => build schema settings

end Query

end FlowLog
