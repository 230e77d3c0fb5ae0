import FlowLog.Proofs.Settings
import FlowLog.Proofs.Text

/-!
# The settings that a query shows

Filters add up, and of the version, the limit and the groups only the last setting shows. Whether a
query aggregates or lists records was decided by the last verb or the last aggregations: fields
never change it. The stages of the query follow from this, and each stage is known by its first
word.
-/

namespace FlowLog

namespace Setting

/-- The version that a setting gives, if it is a setting of the version. -/
def version? : Setting → Option Number
  | .version given => some given
  | _ => none

/-- The limit that a setting gives, if it is a setting of the limit. -/
def limit? : Setting → Option Number
  | .limit given => some given
  | _ => none

/-- The groups that a setting gives, if it is a setting of the groups. -/
def groupBy? : Setting → Option (List String)
  | .groupBy given => some given
  | _ => none

/-- Whether a setting decides between aggregating and listing. -/
def isMode : Setting → Bool
  | .verb _ => true
  | .aggregations _ => true
  | _ => false

/-- The value that the last setting of a kind gives, or a default if there is none. -/
def latest {α : Type} (kind : Setting → Option α) (default : α) (settings : List Setting) : α :=
  (settings.filterMap kind).getLast?.getD default

theorem latest_append {α : Type} (kind : Setting → Option α) (default : α) (settings : List Setting)
    (setting : Setting) :
    latest kind default (settings ++ [setting]) =
      (kind setting).getD (latest kind default settings) := by
  cases given : kind setting <;> simp [latest, given]

end Setting

open Schema.FlowRecords
open Setting (latest)

namespace Query

variable {schema : Schema} {query next : Query} {setting : Setting} {settings : List Setting}

/-! ## The last setting of a kind -/

theorem Step.version_latest (step : Step schema query setting next) :
    next.version = setting.version?.getD query.version := by
  cases step <;> rfl

theorem Step.limit_latest (step : Step schema query setting next) :
    next.limit = setting.limit?.getD query.limit := by
  cases step <;> rfl

theorem Step.groupBy_latest (step : Step schema query setting next) :
    next.groupBy = setting.groupBy?.getD query.groupBy := by
  cases step <;> rfl

theorem Step.lists_iff (step : Step schema query setting next) :
    next.aggregations = [] ↔
      if setting.isMode then setting = .verb .raw else query.aggregations = [] := by
  cases step <;> simp_all [Setting.isMode]

/-- What each step takes from its setting, or leaves as it is, was given by the last setting. -/
theorem latest_of_build {α : Type} {part : Query → α} {kind : Setting → Option α}
    (follows : ∀ {query setting next}, Step schema query setting next →
      part next = (kind setting).getD (part query))
    (built : build schema settings = .ok query) :
    part query = latest kind (part (start schema)) settings := by
  refine build_induction (motive := fun done query =>
    part query = latest kind (part (start schema)) done) rfl ?_ built
  intro done query setting next soFar accepted
  rw [Setting.latest_append, ← soFar]
  exact follows (step_of_apply accepted)

theorem lists_of_build (built : build schema settings = .ok query) :
    query.aggregations = [] ↔ (settings.filter Setting.isMode).getLast? = some (.verb .raw) := by
  refine build_induction (motive := fun done query =>
    query.aggregations = [] ↔ (done.filter Setting.isMode).getLast? = some (.verb .raw)) ?_ ?_ built
  · simp [start]
  · intro done query setting next soFar accepted
    rw [(step_of_apply accepted).lists_iff, List.filter_append]
    by_cases decides : setting.isMode = true
    · simp [decides]
    · simpa [decides] using soFar

/-- What the settings of a query say about it. -/
structure Reflects (query : Query) (settings : List Setting) : Prop where
  filters : query.filters = settings.filterMap Setting.filter?
  version : query.version = latest Setting.version? 2 settings
  limit : query.limit = latest Setting.limit? 100 settings
  groupBy : query.groupBy = latest Setting.groupBy? [] settings
  lists : query.aggregations = [] ↔ (settings.filter Setting.isMode).getLast? = some (.verb .raw)

theorem reflects_of_build (built : build .flowRecords settings = .ok query) :
    query.Reflects settings where
  filters := (made_of_build rfl built).filters_eq
  version := latest_of_build Step.version_latest built
  limit := latest_of_build Step.limit_latest built
  groupBy := latest_of_build Step.groupBy_latest built
  lists := lists_of_build built

/-! ## Stages -/

/-- The word that a stage begins with. -/
def keyword (stage : String) : String := String.ofList (stage.toList.takeWhile (· ≠ ' '))

theorem keyword_append {front word : String} (starts : front = word ++ " ")
    (spaceless : ' ' ∉ word.toList) (rest : String) : keyword (front ++ rest) = word := by
  have written : (word ++ " " ++ rest).toList = word.toList ++ ' ' :: rest.toList := by simp
  rw [starts, keyword, written, Text.takeWhile_append_space spaceless, String.ofList_toList]

theorem keyword_patternOf (fields : List String) : keyword (patternOf fields) = "parse" := by
  have starts : "parse @message \"" = "parse " ++ "@message \"" := by decide
  unfold patternOf
  simp only [starts, String.append_assoc]
  exact keyword_append (by decide) (by decide) _

theorem keyword_filterStage : ∀ stage ∈ query.filterStage, keyword stage = "filter" := by
  rw [filterStage]
  split
  · simp
  · exact List.forall_mem_singleton.2 (keyword_append (by decide) (by decide) _)

theorem keyword_limitStage : ∀ stage ∈ query.limitStage, keyword stage = "limit" := by
  rw [limitStage]
  split
  · exact List.forall_mem_singleton.2 (keyword_append (by decide) (by decide) _)
  · simp

theorem columnStages_of_aggregates (schema : Schema) {first : Aggregation} {rest : List Aggregation}
    (aggregates : query.aggregations = first :: rest) :
    ∃ stats, query.columnStages schema = [stats, "sort " ++ first.columnName ++ " desc"] ∧
      keyword stats = "stats" := by
  rw [columnStages, aggregates]
  refine ⟨_, rfl, ?_⟩
  rw [String.append_assoc]
  exact keyword_append (by decide) (by decide) _

theorem keywords_of_aggregates (schema : Schema) (aggregates : query.aggregations ≠ []) :
    (query.columnStages schema).map keyword = ["stats", "sort"] := by
  rcases List.exists_cons_of_ne_nil aggregates with ⟨first, rest, shape⟩
  rcases columnStages_of_aggregates schema shape with ⟨stats, stages, isStats⟩
  have sort : keyword ("sort " ++ first.columnName ++ " desc") = "sort" := by
    rw [String.append_assoc]
    exact keyword_append (by decide) (by decide) _
  rw [stages, List.map_cons, List.map_singleton, isStats, sort]

theorem keywords_of_lists (schema : Schema) (lists : query.aggregations = []) :
    (query.columnStages schema).map keyword =
      if ∃ first ∈ query.fields.head?, first ≠ "*" then ["display"] else [] := by
  have display : keyword ("display " ++ columns schema query.fields) = "display" :=
    keyword_append (by decide) (by decide) _
  rw [columnStages, lists]
  cases shape : query.fields with
  | nil => simp
  | cons field others =>
      rw [shape] at display
      by_cases isStar : field = "*" <;> simp [isStar, display]

theorem mem_keywords {fields : List String} {word : String}
    (isColumn : word ≠ "parse" ∧ word ≠ "filter" ∧ word ≠ "limit") :
    word ∈ (patternOf fields :: query.stages schema).map keyword ↔
      word ∈ (query.columnStages schema).map keyword := by
  rcases isColumn with ⟨notParse, notFilter, notLimit⟩
  have notInFilter : word ∉ query.filterStage.map keyword := by
    intro inFilter
    rcases List.mem_map.1 inFilter with ⟨stage, isStage, rfl⟩
    exact notFilter (keyword_filterStage stage isStage)
  have notInLimit : word ∉ query.limitStage.map keyword := by
    intro inLimit
    rcases List.mem_map.1 inLimit with ⟨stage, isStage, rfl⟩
    exact notLimit (keyword_limitStage stage isStage)
  rw [List.map_cons, keyword_patternOf, List.mem_cons, stages, List.map_append, List.map_append,
    List.mem_append, List.mem_append]
  simp only [notParse, notInFilter, notInLimit, false_or, or_false]

/-- The stages of a query: records are aggregated and sorted by the first aggregation, or fields are
displayed, and never both. -/
structure Staged (query : Query) (pipeline : List String) : Prop where
  stats : "stats" ∈ pipeline.map keyword ↔ query.aggregations ≠ []
  sort : ∀ first ∈ query.aggregations.head?, ∃ before stats after,
    pipeline = before ++ stats :: ("sort " ++ first.columnName ++ " desc") :: after ∧
      keyword stats = "stats"
  display : "display" ∈ pipeline.map keyword ↔
    query.aggregations = [] ∧ ∃ first ∈ query.fields.head?, first ≠ "*"
  once : ¬("stats" ∈ pipeline.map keyword ∧ "display" ∈ pipeline.map keyword)

theorem staged (schema : Schema) (query : Query) (fields : List String) :
    query.Staged (patternOf fields :: query.stages schema) := by
  have stats : "stats" ∈ (patternOf fields :: query.stages schema).map keyword ↔
      query.aggregations ≠ [] := by
    rw [mem_keywords (by decide)]
    by_cases lists : query.aggregations = []
    · rw [keywords_of_lists schema lists]
      split <;> simp [lists]
    · simp [keywords_of_aggregates schema lists, lists]
  have display : "display" ∈ (patternOf fields :: query.stages schema).map keyword ↔
      query.aggregations = [] ∧ ∃ first ∈ query.fields.head?, first ≠ "*" := by
    rw [mem_keywords (by decide)]
    by_cases lists : query.aggregations = []
    · rw [keywords_of_lists schema lists]
      split <;> simp_all
    · simp [keywords_of_aggregates schema lists, lists]
  refine ⟨stats, ?_, display, ?_⟩
  · intro first isFirst
    rcases List.head?_eq_some_iff.1 isFirst with ⟨rest, shape⟩
    rcases columnStages_of_aggregates schema shape with ⟨stats, stages, isStats⟩
    refine ⟨patternOf fields :: query.filterStage, stats, query.limitStage, ?_, isStats⟩
    rw [Query.stages, stages]
    simp
  · rintro ⟨hasStats, hasDisplay⟩
    exact stats.1 hasStats (display.1 hasDisplay).1

/-- A query keeps all filters and shows the last version, limit and groups that were set. It lists
records exactly if `raw` was the last word on that, and its stages say which of the two it does. -/
theorem create_reflects (created : create (some .flowRecords) settings = .ok query) :
    query.Reflects settings ∧ ∃ pattern, Schema.flowRecords.parsePattern query.version = .ok pattern ∧
      query.render .flowRecords =
        .ok (" | ".intercalate (pattern :: query.stages .flowRecords)) ∧
      query.Staged (pattern :: query.stages .flowRecords) := by
  have known := known_of_create created
  refine ⟨reflects_of_build created, _, parsePattern_eq known, render_flowRecords known, ?_⟩
  exact staged .flowRecords query _

/-- Fields that were set while the query aggregated are displayed, and two filters and the last
limit are kept. -/
theorem create_reflects_raw :
    let first : Expr := .leaf (.compare .gt "end - start" (.number 60) (some "duration"))
    let second : Expr := .leaf (.inSubnet "srcaddr" "10.0.0.0/8")
    let settings : List Setting := [.limit 5, .fields ["bytes"], .filter (some first), .version 3,
      .verb .raw, .filter none, .groupBy ["vpc_id"], .filter (some second), .limit 0, .version 2]
    ∃ query, create (some .flowRecords) settings = .ok query ∧ query.filters = [first, second] ∧
      query.fields = ["bytes"] ∧ query.Reflects settings ∧
      ∃ pattern, query.render .flowRecords =
          .ok (" | ".intercalate (pattern :: query.stages .flowRecords)) ∧
        "display" ∈ (pattern :: query.stages .flowRecords).map keyword := by
  intro first second settings
  obtain ⟨query, created, filtered, listed, aggregates⟩ : ∃ query,
      create (some .flowRecords) settings = .ok query ∧ query.filters = [first, second] ∧
      query.fields = ["bytes"] ∧ query.aggregations = [] := ⟨_, rfl, rfl, rfl, rfl⟩
  rcases create_reflects created with ⟨reflects, pattern, -, rendered, staged⟩
  refine ⟨query, created, filtered, listed, reflects, pattern, rendered,
    staged.display.2 ⟨aggregates, ?_⟩⟩
  exact ⟨"bytes", by rw [listed]; rfl, by decide⟩

end Query

end FlowLog
