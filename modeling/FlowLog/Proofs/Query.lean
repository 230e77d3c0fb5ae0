import FlowLog.Query.Render
import FlowLog.Schema.FlowRecords
import FlowLog.Proofs.Fallible

/-!
# Queries made by settings

`Query.Step` lists what an accepted setting may do to a query, with all that was checked on the way.
What holds of a query however it was made follows from it by `Query.build_induction`, one rule at a
time.
-/

namespace FlowLog

/-- The filter that a setting adds. -/
def Setting.filter? : Setting → Option Expr
  | .filter added => added
  | _ => none

namespace Query

variable {schema : Schema} {query next : Query} {setting : Setting}

/-- Whether a function can be applied to a field: all but counting need numbers. -/
def Applies (schema : Schema) (function : Aggregate) (field : String) : Prop :=
  function = .count ∨ schema.isNumeric field = true

/-- What is listed if a query changes to listing records. -/
def listing (query : Query) : List String :=
  if query.pending ≠ [] then query.pending else if query.fields = [] then ["*"] else query.fields

/-- What an accepted setting does to a query. -/
inductive Step (schema : Schema) (query : Query) : Setting → Query → Prop
  | list : Step schema query (.verb .raw)
      { query with aggregations := [], fields := query.listing, pending := [] }
  | aggregate {function : Aggregate} (lists : query.aggregations = []) :
      Step schema query (.verb (.aggregate function))
        { query with aggregations := [⟨"*", function⟩] }
  | function {function : Aggregate} {first : Aggregation} {rest : List Aggregation}
      (aggregates : query.aggregations = first :: rest)
      (applies : first.field ≠ "*" → Applies schema function first.field) :
      Step schema query (.verb (.aggregate function))
        { query with aggregations := ⟨first.field, function⟩ :: rest }
  | fields {fields : List String} (lists : query.aggregations = [])
      (checked : ∀ field ∈ fields, schema.checkField field query.version = .ok ()) :
      Step schema query (.fields fields) { query with fields }
  | noField {first : Aggregation} {rest : List Aggregation}
      (aggregates : query.aggregations = first :: rest) :
      Step schema query (.fields []) { query with pending := [] }
  | field {first : Aggregation} {rest : List Aggregation} {field : String} {others : List String}
      (aggregates : query.aggregations = first :: rest)
      (checked : ∀ name ∈ field :: others, schema.checkField name query.version = .ok ())
      (applies : Applies schema first.function field) :
      Step schema query (.fields (field :: others))
        { query with pending := field :: others, aggregations := ⟨field, first.function⟩ :: rest }
  | aggregations {aggregations : List Aggregation} (nonempty : aggregations ≠ [])
      (checked : ∀ aggregation ∈ aggregations,
        schema.checkField aggregation.field query.version = .ok () ∧
          Applies schema aggregation.function aggregation.field) :
      Step schema query (.aggregations aggregations) { query with aggregations }
  | groupBy {fields : List String}
      (checked : ∀ field ∈ fields, schema.checkField field query.version = .ok ()) :
      Step schema query (.groupBy fields) { query with groupBy := fields }
  | limit {limit : Number} (natural : ∃ n ∈ limit.toInt?, 0 ≤ n) :
      Step schema query (.limit limit) { query with limit }
  | noFilter : Step schema query (.filter none) query
  | filter {filter : Expr} (checked : Filter.check schema query.version filter = .ok ()) :
      Step schema query (.filter (some filter)) { query with filters := query.filters ++ [filter] }
  | version {version : Number} (checked : schema.checkVersion version = .ok ()) :
      Step schema query (.version version) { query with version }

theorem requireNumeric_eq_ok {part : QueryPart} {field : String} {function : Aggregate} :
    requireNumeric schema part field function = .ok () ↔ Applies schema function field := by
  rw [requireNumeric, Applies]
  split
  · next applies => simpa using applies
  · next refused => simpa using refused

theorem checkFields_eq_ok {version : Number} {part : QueryPart} {fields : List String} :
    checkFields schema version part fields = .ok () ↔
      ∀ field ∈ fields, schema.checkField field version = .ok () := by
  simp only [checkFields, Fallible.forM_eq_ok, checkField, Fallible.mapError_eq_ok]

theorem checkAggregation_eq_ok {version : Number} {aggregation : Aggregation} :
    checkAggregation schema version aggregation = .ok () ↔
      schema.checkField aggregation.field version = .ok () ∧
        Applies schema aggregation.function aggregation.field := by
  rw [checkAggregation, Fallible.bind_eq_ok]
  simp only [checkField, Fallible.mapError_eq_ok, requireNumeric_eq_ok]
  constructor
  · rintro ⟨⟨⟩, hasField, applies⟩
    exact ⟨hasField, applies⟩
  · rintro ⟨hasField, applies⟩
    exact ⟨(), hasField, applies⟩

theorem listRecords_eq (query : Query) :
    query.listRecords = { query with aggregations := [], fields := query.listing, pending := [] } := by
  rw [listRecords, listing]
  by_cases waiting : query.pending = []
  · simp [waiting]
  · simp [waiting]

theorem step_of_aggregateBy {function : Aggregate}
    (accepted : query.aggregateBy schema function = .ok next) :
    Step schema query (.verb (.aggregate function)) next := by
  rw [aggregateBy] at accepted
  split at accepted
  · next lists =>
      cases accepted
      exact .aggregate lists
  · next first rest aggregates =>
      dsimp only at accepted
      split at accepted
      · rcases Fallible.check_then_eq_ok.1 accepted with ⟨checked, rfl⟩
        exact .function aggregates fun _ => requireNumeric_eq_ok.1 checked
      · next isStar =>
          cases accepted
          exact .function aggregates fun notStar => absurd notStar isStar

theorem step_of_setFields {fields : List String}
    (accepted : query.setFields schema fields = .ok next) : Step schema query (.fields fields) next := by
  rcases Fallible.bind_eq_ok.1 accepted with ⟨⟨⟩, checked, rest⟩
  rw [checkFields_eq_ok] at checked
  split at rest
  · next lists =>
      cases rest
      exact .fields lists checked
  · next aggregates =>
      cases rest
      rcases List.exists_cons_of_ne_nil aggregates with ⟨first, others, shape⟩
      exact .noField shape
  · next aggregates =>
      rcases Fallible.check_then_eq_ok.1 rest with ⟨applies, rfl⟩
      exact .field aggregates checked (requireNumeric_eq_ok.1 applies)

theorem step_of_setAggregations {aggregations : List Aggregation}
    (accepted : query.setAggregations schema aggregations = .ok next) :
    Step schema query (.aggregations aggregations) next := by
  rw [setAggregations] at accepted
  split at accepted
  · cases accepted
  · next nonempty =>
      rcases Fallible.check_then_eq_ok.1 accepted with ⟨checked, rfl⟩
      simp only [Fallible.forM_eq_ok, checkAggregation_eq_ok] at checked
      exact .aggregations nonempty checked

theorem step_of_setGroupBy {fields : List String}
    (accepted : query.setGroupBy schema fields = .ok next) :
    Step schema query (.groupBy fields) next := by
  rcases Fallible.check_then_eq_ok.1 accepted with ⟨checked, rfl⟩
  exact .groupBy (checkFields_eq_ok.1 checked)

theorem step_of_setLimit {limit : Number} (accepted : query.setLimit limit = .ok next) :
    Step schema query (.limit limit) next := by
  rw [setLimit] at accepted
  split at accepted
  · cases accepted
  · next isInteger =>
      split at accepted
      · cases accepted
      · next notNegative =>
          cases accepted
          apply Step.limit
          cases limit with
          | integer n => simpa [Number.toInt?, Number.isNegative] using notNegative
          | fraction numerator scale => exact absurd rfl isInteger
          | infinite negative => exact absurd rfl isInteger

theorem step_of_apply (accepted : query.apply schema setting = .ok next) :
    Step schema query setting next := by
  cases setting with
  | verb verb =>
      cases verb with
      | raw =>
          cases accepted
          rw [listRecords_eq]
          exact .list
      | aggregate function => exact step_of_aggregateBy accepted
  | fields fields => exact step_of_setFields accepted
  | aggregations aggregations => exact step_of_setAggregations accepted
  | groupBy fields => exact step_of_setGroupBy accepted
  | limit limit => exact step_of_setLimit accepted
  | filter filter =>
      cases filter with
      | none =>
          cases accepted
          exact .noFilter
      | some filter =>
          rcases Fallible.check_then_eq_ok.1 accepted with ⟨checked, rfl⟩
          exact .filter (Fallible.mapError_eq_ok.1 checked)
  | version version =>
      rcases Fallible.check_then_eq_ok.1 accepted with ⟨checked, rfl⟩
      exact .version (Fallible.mapError_eq_ok.1 checked)

theorem setLimit_of_natural {limit : Number} (natural : ∃ n ∈ limit.toInt?, 0 ≤ n) :
    query.setLimit limit = .ok { query with limit } := by
  rcases natural with ⟨n, isInteger, notNegative⟩
  cases limit with
  | integer m =>
      cases isInteger
      simp [setLimit, Number.isInteger, Number.toInt?, Number.isNegative, notNegative]
  | fraction _ _ => cases isInteger
  | infinite _ => cases isInteger

theorem apply_of_step (step : Step schema query setting next) :
    query.apply schema setting = .ok next := by
  cases step with
  | list => rw [apply, listRecords_eq]
  | aggregate lists => rw [apply, aggregateBy, lists]
  | @function function first rest aggregates applies =>
      rw [apply, aggregateBy, aggregates]
      by_cases isStar : first.field = "*"
      · simp [isStar, pure, Except.pure]
      · simp only [ne_eq, isStar, not_false_eq_true, if_true]
        exact Fallible.check_then_eq_ok.2 ⟨requireNumeric_eq_ok.2 (applies isStar), rfl⟩
  | fields lists checked =>
      refine Fallible.bind_eq_ok.2 ⟨(), checkFields_eq_ok.2 checked, ?_⟩
      simp only [lists]
      rfl
  | noField aggregates =>
      refine Fallible.bind_eq_ok.2 ⟨(), rfl, ?_⟩
      simp only [aggregates]
      rfl
  | field aggregates checked applies =>
      refine Fallible.bind_eq_ok.2 ⟨(), checkFields_eq_ok.2 checked, ?_⟩
      simp only [aggregates]
      exact Fallible.check_then_eq_ok.2 ⟨requireNumeric_eq_ok.2 applies, rfl⟩
  | aggregations nonempty checked =>
      rw [apply, setAggregations, if_neg nonempty]
      refine Fallible.check_then_eq_ok.2 ⟨?_, rfl⟩
      simpa only [Fallible.forM_eq_ok, checkAggregation_eq_ok] using checked
  | groupBy checked => exact Fallible.check_then_eq_ok.2 ⟨checkFields_eq_ok.2 checked, rfl⟩
  | limit natural => exact setLimit_of_natural natural
  | noFilter => rfl
  | filter checked => exact Fallible.check_then_eq_ok.2 ⟨Fallible.mapError_eq_ok.2 checked, rfl⟩
  | version checked => exact Fallible.check_then_eq_ok.2 ⟨Fallible.mapError_eq_ok.2 checked, rfl⟩

theorem apply_eq_ok : query.apply schema setting = .ok next ↔ Step schema query setting next :=
  ⟨step_of_apply, apply_of_step⟩

theorem Step.filters_eq (step : Step schema query setting next) :
    next.filters = query.filters ++ setting.filter?.toList := by
  cases step <;> simp [Setting.filter?]

theorem Step.checked_filter (step : Step schema query setting next) :
    ∀ filter ∈ setting.filter?, Filter.check schema query.version filter = .ok () := by
  intro added isAdded
  cases step with
  | filter checked =>
      cases isAdded
      exact checked
  | _ => cases isAdded

theorem Step.checkVersion (step : Step schema query setting next)
    (versionOk : schema.checkVersion query.version = .ok ()) :
    schema.checkVersion next.version = .ok () := by
  cases step with
  | version checked => exact checked
  | _ => exact versionOk

/-- What every query has that was made by settings with given filters. -/
structure Made (schema : Schema) (filters : List Expr) (query : Query) : Prop where
  filters_eq : query.filters = filters
  checked : ∀ filter ∈ filters, ∃ version, Filter.check schema version filter = .ok ()
  version_ok : schema.checkVersion query.version = .ok ()

theorem Made.apply {filters : List Expr} (made : Made schema filters query)
    (accepted : query.apply schema setting = .ok next) :
    Made schema (filters ++ setting.filter?.toList) next := by
  have step := step_of_apply accepted
  refine ⟨?_, ?_, step.checkVersion made.version_ok⟩
  · rw [step.filters_eq, made.filters_eq]
  · intro filter isFilter
    rcases List.mem_append.1 isFilter with isEarlier | isLast
    · exact made.checked filter isEarlier
    · exact ⟨query.version, step.checked_filter filter (Option.mem_toList.1 isLast)⟩

theorem build_induction {motive : List Setting → Query → Prop} (atStart : motive [] (start schema))
    (preserves : ∀ {done query setting next}, motive done query →
      query.apply schema setting = .ok next → motive (done ++ [setting]) next)
    {settings : List Setting} (built : build schema settings = .ok query) : motive settings query :=
  Fallible.foldlM_induction atStart preserves built

theorem made_of_build (defaultOk : schema.checkVersion schema.defaultVersion = .ok ())
    {settings : List Setting} (built : build schema settings = .ok query) :
    Made schema (settings.filterMap Setting.filter?) query := by
  refine build_induction (motive := fun done query => Made schema (done.filterMap Setting.filter?) query)
    ?_ ?_ built
  · exact ⟨rfl, by simp, defaultOk⟩
  · intro done query setting next made accepted
    have grown := made.apply accepted
    have added : [setting].filterMap Setting.filter? = setting.filter?.toList := by
      cases found : setting.filter? with
      | none => simp [found]
      | some filter => simp [found]
    rwa [List.filterMap_append, added]

end Query

end FlowLog
