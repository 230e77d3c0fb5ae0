import FlowLog.Query.Basic

/-!
# Writing queries

A query is written as a pipeline: the statement that parses records, the filter, the aggregation and
its order or the list of fields, and the limit.
-/

namespace FlowLog.Query

/-- A field as a column: a computed field is its computation under its name. -/
def column (schema : Schema) (field : String) : String :=
  match schema.computed field with
  | some computation => computation ++ " as " ++ field
  | none => field

/-- An aggregation as a column. -/
def aggregateColumn (schema : Schema) (aggregation : Aggregation) : String :=
  aggregation.function.name ++ "(" ++ (schema.computed aggregation.field).getD aggregation.field ++
    ") as " ++ aggregation.columnName

/-- Columns with a comma between each two. -/
def columns (schema : Schema) (fields : List String) : String :=
  ", ".intercalate (fields.map (column schema))

/-- The stage that drops records, if there are filters. -/
def filterStage (query : Query) : List String :=
  if query.filters.isEmpty then [] else ["filter " ++ (Expr.node .and query.filters).render]

/-- The grouping at the end of the aggregating stage. -/
def grouping (schema : Schema) (query : Query) : String :=
  if query.groupBy.isEmpty then "" else " by " ++ columns schema query.groupBy

/-- The stages that make the columns: aggregations ordered by the first of them, or listed
fields. -/
def columnStages (schema : Schema) (query : Query) : List String :=
  match query.aggregations with
  | first :: _ =>
      ["stats " ++ ", ".intercalate (query.aggregations.map (aggregateColumn schema)) ++
          grouping schema query,
        "sort " ++ first.columnName ++ " desc"]
  | [] =>
      if query.fields.isEmpty || query.fields.head? == some "*" then []
      else ["display " ++ columns schema query.fields]

/-- The stage that bounds the number of rows, if there is a bound. -/
def limitStage (query : Query) : List String :=
  if query.limit.isPositive then ["limit " ++ String.ofList query.limit.text] else []

/-- The stages after the statement that parses records. -/
def stages (schema : Schema) (query : Query) : List String :=
  query.filterStage ++ query.columnStages schema ++ query.limitStage

/-- The text of a query. -/
def render (schema : Schema) (query : Query) : Except QueryError String := do
  let pattern ← (schema.parsePattern query.version).mapError .noPattern
  return " | ".intercalate (pattern :: query.stages schema)

/-- The text of a query, or an empty text if it has none. -/
def renderOrEmpty (schema : Schema) (query : Query) : String :=
  match query.render schema with
  | .ok text => text
  | .error _ => ""

end FlowLog.Query
