import FlowLog.Text.Fold

/-!
# Verbs and aggregations

A query either lists records (`raw`) or aggregates them with one of five functions.
-/

namespace FlowLog

/-- The aggregating functions. -/
inductive Aggregate where
  | count
  | sum
  | avg
  | min
  | max
  deriving DecidableEq, Repr

/-- How an aggregating function is written. -/
def Aggregate.name : Aggregate → String
  | .count => "count"
  | .sum => "sum"
  | .avg => "avg"
  | .min => "min"
  | .max => "max"

/-- What a query does with records. -/
inductive Verb where
  | raw
  | aggregate (function : Aggregate)
  deriving DecidableEq, Repr

namespace Verb

/-- How a verb is written. -/
def name : Verb → String
  | .raw => "raw"
  | .aggregate function => function.name

/-- All verbs, in the order in which messages list them. -/
def all : List Verb :=
  [.raw, .aggregate .count, .aggregate .sum, .aggregate .avg, .aggregate .min, .aggregate .max]

/-- Whether a verb aggregates. -/
def isAggregation (verb : Verb) : Bool := verb != .raw

/-- The verb that a text names, whatever its letter case and the blanks around it. -/
def ofText? (text : String) : Option Verb :=
  all.find? (·.name == Text.normalized text)

end Verb

/-- A function applied to a field. -/
structure Aggregation where
  field : String
  function : Aggregate
  deriving DecidableEq, Repr

namespace Aggregation

/-- Counting records, whatever their fields. -/
def countAll : Aggregation := ⟨"*", .count⟩

/-- The name of the column that an aggregation makes. -/
def columnName (aggregation : Aggregation) : String :=
  if aggregation = countAll then "flows"
  else aggregation.field ++ "_" ++ aggregation.function.name

end Aggregation

end FlowLog
