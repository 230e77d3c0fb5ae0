import FlowLog.Filter.Check
import FlowLog.Query.Verb

/-!
# What is wrong with a query

Each cause names the part of the query at fault and may carry the fault of the schema or of the
filter behind it.
-/

namespace FlowLog

/-- The parts of a query that can be at fault. -/
inductive QueryPart where
  | schema
  | verb
  | fields
  | aggregations
  | groupBy
  | limit
  | filter
  | version
  | render
  deriving DecidableEq, Repr

/-- The name of a part in reports. -/
def QueryPart.name : QueryPart → String
  | .schema => "schema"
  | .verb => "verb"
  | .fields => "fields"
  | .aggregations => "aggregations"
  | .groupBy => "groupBy"
  | .limit => "limit"
  | .filter => "filter"
  | .version => "version"
  | .render => "render"

/-- The reasons for which a query is refused. -/
inductive QueryError where
  | noSchema
  | unknownVerb (text : String)
  | invalidVerb (text : String)
  | badField (part : QueryPart) (field : String) (fault : Schema.Fault)
  | notNumeric (part : QueryPart) (field : String) (function : Aggregate)
  | noAggregation
  | limitNotInteger (limit : Number)
  | limitNegative
  | badFilter (error : Filter.CheckError)
  | badVersion (version : Number) (fault : Schema.Fault)
  | noPattern (fault : Schema.Fault)
  | emptyQuery
  deriving DecidableEq, Repr

namespace QueryError

/-- The part of the query at fault. -/
def part : QueryError → QueryPart
  | .noSchema => .schema
  | .unknownVerb _ => .verb
  | .invalidVerb _ => .verb
  | .badField part _ _ => part
  | .notNumeric part _ _ => part
  | .noAggregation => .aggregations
  | .limitNotInteger _ => .limit
  | .limitNegative => .limit
  | .badFilter _ => .filter
  | .badVersion _ _ => .version
  | .noPattern _ => .render
  | .emptyQuery => .render

/-- The sentence for a text that names no verb. -/
def unknownVerbMessage (text : String) : String :=
  "unknown verb: " ++ text ++ ". Must be one of: " ++ ", ".intercalate (Verb.all.map Verb.name)

/-- The sentence that reports a fault. -/
def message : QueryError → String
  | .noSchema => "schema is required"
  | .unknownVerb text => unknownVerbMessage text
  | .invalidVerb text => "invalid verb '" ++ text ++ "': " ++ unknownVerbMessage text
  | .badField part field fault =>
      "invalid " ++ (if part = .groupBy then "group by field" else "field") ++ " '" ++ field ++ "': " ++
        fault.message
  | .notNumeric _ field function =>
      "field '" ++ field ++ "' must be numeric for verb '" ++ function.name ++ "'"
  | .noAggregation => "at least one aggregation is required"
  | .limitNotInteger limit => "limit must be an integer, got " ++ String.ofList limit.text
  | .limitNegative => "limit must be non-negative"
  | .badFilter error => error.message
  | .badVersion version fault =>
      "invalid version " ++ String.ofList version.text ++ ": " ++ fault.message
  | .noPattern fault => fault.message
  | .emptyQuery => "failed to build query"

end QueryError

end FlowLog
