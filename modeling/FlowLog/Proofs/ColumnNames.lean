import Mathlib.Data.List.Nodup
import FlowLog.Query.Render
import FlowLog.Schema.FlowRecords
import FlowLog.Text.Search

/-!
# The names of aggregated columns

The column of an aggregation is named after the field and the function, with an underscore between
them. Fields may contain underscores and the names of functions, but no function has an underscore
in its name. So the last underscore of a column name shows where the field ends, and a name without
one is that of the count of all records. `Aggregation.ofColumnName?` reads a column name in this
way.

It follows that distinct aggregations have distinct columns, and that a query is sorted by the
column of its first aggregation and by no other.
-/

namespace FlowLog

namespace Aggregate

/-- The function that is written in a given way. -/
def ofName? (name : String) : Option Aggregate :=
  [count, sum, avg, min, max].find? (·.name == name)

theorem ofName?_name (function : Aggregate) : ofName? function.name = some function := by
  cases function <;> decide

theorem underscore_notMem_name (function : Aggregate) : '_' ∉ function.name.toList := by
  cases function <;> decide

end Aggregate

namespace Aggregation

/-- The aggregation whose column has a given name. -/
def ofColumnName? (name : String) : Option Aggregation :=
  match Text.splitLast? '_' name.toList with
  | none => if name = "flows" then some countAll else none
  | some (field, function) =>
      (Aggregate.ofName? (String.ofList function)).map fun function => ⟨String.ofList field, function⟩

theorem ofColumnName?_joined (field : String) (function : Aggregate) :
    ofColumnName? (field ++ "_" ++ function.name) = some ⟨field, function⟩ := by
  have cut : Text.splitLast? '_' (field ++ "_" ++ function.name).toList =
      some (field.toList, function.name.toList) := by
    have units : (field ++ "_" ++ function.name).toList =
        field.toList ++ '_' :: function.name.toList := by
      simp
    rw [units, Text.splitLast?_append function.underscore_notMem_name]
  rw [ofColumnName?, cut]
  simp [Aggregate.ofName?_name]

/-- The name of a column tells its aggregation, whatever the field is called. -/
theorem ofColumnName?_columnName (aggregation : Aggregation) :
    ofColumnName? aggregation.columnName = some aggregation := by
  rw [columnName]
  split
  · next isCount =>
      rw [isCount]
      decide
  · exact ofColumnName?_joined aggregation.field aggregation.function

theorem columnName_injective : Function.Injective columnName := by
  intro first second same
  have read := ofColumnName?_columnName first
  rw [same, ofColumnName?_columnName second] at read
  exact (Option.some.inj read).symm

end Aggregation

namespace Query

/-- An aggregation without the name of its column. -/
def call (schema : Schema) (aggregation : Aggregation) : String :=
  aggregation.function.name ++ "(" ++ (schema.computed aggregation.field).getD aggregation.field ++ ")"

theorem aggregateColumn_eq (schema : Schema) (aggregation : Aggregation) :
    aggregateColumn schema aggregation =
      call schema aggregation ++ " as " ++ aggregation.columnName := by
  apply String.toList_inj.1
  simp [aggregateColumn, call]

theorem columnStages_of_aggregations (schema : Schema) {query : Query} {first : Aggregation}
    {rest : List Aggregation} (aggregates : query.aggregations = first :: rest) :
    query.columnStages schema =
      ["stats " ++ ", ".intercalate (List.zipWith
          (fun aggregation name => call schema aggregation ++ " as " ++ name)
          query.aggregations (query.aggregations.map Aggregation.columnName)) ++ grouping schema query,
        "sort " ++ first.columnName ++ " desc"] := by
  have columns_eq : query.aggregations.map (aggregateColumn schema) = List.zipWith
      (fun aggregation name => call schema aggregation ++ " as " ++ name)
      query.aggregations (query.aggregations.map Aggregation.columnName) := by
    rw [List.zipWith_map_right, List.zipWith_self]
    exact List.map_congr_left fun aggregation _ => aggregateColumn_eq schema aggregation
  rw [← columns_eq, columnStages, aggregates]

/-- Column names tell aggregations apart, for any fields. So in a query with distinct aggregations
the names of the columns are distinct, and the name by which it is sorted is that of the first
column only. -/
theorem columnNames_unambiguous :
    Function.Injective Aggregation.columnName ∧
      ∀ (schema : Schema) (query : Query) (first : Aggregation) (rest : List Aggregation),
        query.aggregations = first :: rest → query.aggregations.Nodup →
        let names := query.aggregations.map Aggregation.columnName
        query.columnStages schema =
            ["stats " ++ ", ".intercalate (List.zipWith
                (fun aggregation name => call schema aggregation ++ " as " ++ name)
                query.aggregations names) ++ grouping schema query,
              "sort " ++ first.columnName ++ " desc"] ∧
          names.Nodup ∧
          ∀ position, names[position]? = some first.columnName ↔ position = 0 := by
  refine ⟨Aggregation.columnName_injective, ?_⟩
  intro schema query first rest aggregates distinct names
  have namesDistinct : names.Nodup := distinct.map Aggregation.columnName_injective
  refine ⟨columnStages_of_aggregations schema aggregates, namesDistinct, ?_⟩
  have firstName : names[0]? = some first.columnName := by
    simp [names, aggregates]
  intro position
  constructor
  · intro found
    have inside : position < names.length := (List.getElem?_eq_some_iff.1 found).1
    exact (List.getElem?_inj inside namesDistinct).1 (found.trans firstName.symm)
  · rintro rfl
    exact firstName

/-- A field that ends like the column of another one, beside that column and the count of all
records. -/
theorem columnNames_unambiguous_nested :
    let query : Query :=
      { version := 2, aggregations := [⟨"bytes", .sum⟩, ⟨"bytes_sum", .count⟩, .countAll] }
    query.aggregations.Nodup ∧
      query.columnStages .flowRecords =
        ["stats sum(bytes) as bytes_sum, count(bytes_sum) as bytes_sum_count, count(*) as flows",
          "sort bytes_sum desc"] ∧
      ["bytes_sum", "bytes_sum_count", "flows"].Nodup := by
  intro query
  have distinct : query.aggregations.Nodup := by decide
  have unambiguous := columnNames_unambiguous.2 .flowRecords query _ _ rfl distinct
  exact ⟨distinct, unambiguous.1, unambiguous.2.1⟩

end Query

end FlowLog
