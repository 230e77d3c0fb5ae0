import FlowLog.Request
import FlowLog.Proofs.Check
import FlowLog.Proofs.Parse
import FlowLog.Proofs.Query

/-!
# The demands on a request

A request about flow log records is turned into settings, the settings are applied one after
another, and the query that they make is written. A fault may show in any of these steps, and a
request may have several. `Request.decision` lists the demands on a request in the order in which
they are made. Each of them is about the request alone, without the query that is in the making. The
theorem `Request.compile_decision` says that a request is refused for the first demand that it does
not meet, and compiled if it meets them all.

The filter text is read before any setting is applied, so a fault in it hides a wrong version. What
is left for the filter setting are the names of fields: a filter that was read has no connective
without operands.

Of the version the demands ask only which fields it has, and the text of a query shows it only in
the statement that parses records. Later versions have more fields, so by
`Request.compile_atVersion` a request may be moved to them.
-/

namespace FlowLog

open Fallible Schema.FlowRecords

namespace Request

/-- Why a request is refused: for a fault in its filter text, or for a part of the query. -/
inductive Refusal where
  | filter (error : Filter.Error)
  | query (part : QueryPart)
  deriving DecidableEq, Repr

/-- What an error refuses a request for. -/
def Error.refusal : Error → Refusal
  | .filter error => .filter error
  | .query error => .query error.part

/-- What an error in the making of a query refuses a request for. -/
def Refusal.ofQuery (error : QueryError) : Refusal := .query error.part

/-- The names of the fields that a request aggregates or lists. -/
def columns (request : Request) : List String := fieldList (request.fields.getD [])

/-- The names of the fields that a request groups by. -/
def groups (request : Request) : List String := fieldList (request.groupBy.getD [])

/-- The version that a request is about. -/
def versionIn (config : Config) (request : Request) : Number :=
  request.version.getD config.defaultVersion

/-- The limit on the rows that a request asks for. -/
def limitIn (config : Config) (request : Request) : Number := request.limit.getD config.defaultLimit

/-- What the filter text of a request means; a request without a text has no filter. -/
def readFilter (request : Request) : Except Filter.Error (Option Expr) :=
  match request.filter with
  | none => .ok none
  | some text => if text = "" then .ok none else Filter.parse (.ofSchema .flowRecords .flowRecords) text

/-- Whether a verb can be applied to a field: all but `raw` and `count` need numbers. -/
def Suits (verb : Verb) (version : Number) (field : String) : Prop :=
  Has version field ∧ (verb ≠ .raw → verb ≠ .aggregate .count → field ∈ numericFields)

instance (verb : Verb) (version : Number) (field : String) : Decidable (Suits verb version field) :=
  inferInstanceAs (Decidable (Has version field ∧
    (verb ≠ .raw → verb ≠ .aggregate .count → field ∈ numericFields)))

/-- The part of a query that the fields of a request belong to. -/
def columnPart : Verb → QueryPart
  | .raw => .fields
  | .aggregate _ => .aggregations

/-- What is computed from some fields. -/
def aggregationsOf : Verb → List String → List Aggregation
  | .raw, _ => []
  | .aggregate function, [] => [⟨"*", function⟩]
  | .aggregate function, fields => fields.map fun field => ⟨field, function⟩

/-- The fields that are listed. -/
def listedOf : Verb → List String → List String
  | .raw, [] => ["*"]
  | .raw, fields => fields
  | .aggregate _, _ => []

/-- The query with given parts. -/
def draft (version limit : Number) (verb : Verb) (columns groups : List String)
    (filter : Option Expr) : Query where
  aggregations := aggregationsOf verb columns
  fields := listedOf verb columns
  groupBy := groups
  filters := filter.toList
  limit := limit
  version := version

/-- The query of a request with a given verb and filter. -/
def described (config : Config) (request : Request) (verb : Verb) (filter : Option Expr) : Query :=
  draft (request.versionIn config) (request.limitIn config) verb request.columns request.groups filter

/-- The demands on a request in the order in which they are made, and the query of a request that
meets them. -/
def decision (config : Config) (request : Request) : Except Refusal Query :=
  match Verb.ofText? request.verb with
  | none => .error (.query .verb)
  | some verb => do
      let filter ← request.readFilter.mapError .filter
      let version := request.versionIn config
      let limit := request.limitIn config
      demand (.query .version) (version = 2 ∨ version = 3 ∨ version = 5)
      demand (.query .limit) (∃ n ∈ limit.toInt?, 0 ≤ n)
      demand (.query (columnPart verb)) (∀ field ∈ request.columns, Suits verb version field)
      demand (.query .groupBy) (∀ field ∈ request.groups, Has version field)
      demand (.query .filter) (∀ expr ∈ filter, ∀ field ∈ expr.fields, Has version field)
      return request.described config verb filter

end Request

namespace Query

open Request

variable {version limit : Number} {query : Query}

/-! ## One setting -/

theorem part_of_checkField {schema : Schema} {part : QueryPart} {field : String} {error : QueryError}
    (refused : checkField schema version part field = .error error) : error.part = part := by
  rw [checkField] at refused
  cases checked : schema.checkField field version with
  | ok =>
      rw [checked] at refused
      cases refused
  | error fault =>
      rw [checked] at refused
      cases refused
      rfl

theorem part_of_requireNumeric {schema : Schema} {part : QueryPart} {field : String}
    {function : Aggregate} {error : QueryError}
    (refused : requireNumeric schema part field function = .error error) : error.part = part := by
  rw [requireNumeric] at refused
  split at refused
  · cases refused
  · cases refused
    rfl

theorem part_of_checkAggregation {schema : Schema} {aggregation : Aggregation} {error : QueryError}
    (refused : checkAggregation schema version aggregation = .error error) :
    error.part = .aggregations := by
  rw [checkAggregation] at refused
  cases checked : checkField schema version .aggregations aggregation.field with
  | error fault =>
      rw [checked] at refused
      cases refused
      exact part_of_checkField checked
  | ok =>
      rw [checked] at refused
      exact part_of_requireNumeric refused

theorem applies_flowRecords {function : Aggregate} {field : String} :
    Applies .flowRecords function field ↔ (function ≠ .count → field ∈ numericFields) := by
  have numeric : Schema.flowRecords.isNumeric field = true ↔ field ∈ numericFields :=
    List.contains_iff_mem
  rw [Applies, numeric, Decidable.or_iff_not_imp_left]

theorem mapError_checkFields (known : Known version) (part : QueryPart) (fields : List String) :
    (checkFields .flowRecords version part fields).mapError Refusal.ofQuery =
      demand (.query part) (∀ field ∈ fields, Has version field) := by
  apply mapError_eq_demand
  · rw [checkFields_eq_ok]
    apply forall₂_congr
    intro field _
    rw [checkField_eq_ok known]
  · intro error refused
    rcases exists_of_forM_eq_error refused with ⟨field, -, fieldRefused⟩
    rw [Refusal.ofQuery, part_of_checkField fieldRefused]

theorem mapError_checkAggregations (known : Known version) (function : Aggregate)
    (fields : List String) :
    ((fields.map fun field => (⟨field, function⟩ : Aggregation)).forM
        (checkAggregation .flowRecords version)).mapError Refusal.ofQuery =
      demand (.query .aggregations) (∀ field ∈ fields, Suits (.aggregate function) version field) := by
  apply mapError_eq_demand
  · rw [forM_eq_ok, List.forall_mem_map]
    apply forall₂_congr
    intro field _
    rw [checkAggregation_eq_ok, checkField_eq_ok known, applies_flowRecords]
    simp [Suits]
  · intro error refused
    rcases exists_of_forM_eq_error refused with ⟨aggregation, -, aggregationRefused⟩
    rw [Refusal.ofQuery, part_of_checkAggregation aggregationRefused]

theorem mapError_setVersion :
    (query.setVersion .flowRecords version).mapError Refusal.ofQuery = (do
      demand (.query .version) (version = 2 ∨ version = 3 ∨ version = 5)
      return { query with version }) := by
  have checked : ((Schema.flowRecords.checkVersion version).mapError (.badVersion version)).mapError
      Refusal.ofQuery = demand (.query .version) (Known version) := by
    rw [mapError_mapError]
    apply mapError_eq_demand checkVersion_eq_ok
    intro fault _
    rfl
  rw [setVersion, mapError_bind, checked]
  rfl

theorem mapError_setLimit :
    (query.setLimit limit).mapError Refusal.ofQuery = (do
      demand (.query .limit) (∃ n ∈ limit.toInt?, 0 ≤ n)
      return { query with limit }) := by
  cases limit with
  | integer n =>
      by_cases negative : n < 0
      · have refused : query.setLimit (.integer n) = .error .limitNegative := by
          simp [setLimit, Number.isInteger, Number.toInt?, Number.isNegative, negative]
        have unmet : ¬∃ m ∈ (Number.integer n).toInt?, 0 ≤ m := by
          simpa [Number.toInt?] using negative
        rw [refused, demand, if_neg unmet]
        rfl
      · have met : ∃ m ∈ (Number.integer n).toInt?, 0 ≤ m := ⟨n, rfl, Int.not_lt.1 negative⟩
        rw [setLimit_of_natural met, demand_bind_of_true met]
        rfl
  | fraction numerator scale => rfl
  | infinite negative => rfl

theorem mapError_setFields (known : Known query.version) (lists : query.aggregations = [])
    (fields : List String) :
    (query.setFields .flowRecords fields).mapError Refusal.ofQuery = (do
      demand (.query .fields) (∀ field ∈ fields, Has query.version field)
      return { query with fields }) := by
  have setting : query.setFields .flowRecords fields = (do
      checkFields .flowRecords query.version .fields fields
      return { query with fields }) := by
    rw [setFields]
    exact lists
  rw [setting, mapError_bind, mapError_checkFields known]
  rfl

theorem mapError_setAggregations (known : Known query.version) (function : Aggregate)
    {fields : List String} (nonempty : fields ≠ []) :
    (query.setAggregations .flowRecords (fields.map fun field => ⟨field, function⟩)).mapError
        Refusal.ofQuery = (do
      demand (.query .aggregations) (∀ field ∈ fields, Suits (.aggregate function) query.version field)
      return { query with aggregations := fields.map fun field => ⟨field, function⟩ }) := by
  rw [setAggregations, if_neg (by simpa using nonempty)]
  change (_ >>= fun _ => pure _ : Except QueryError Query).mapError Refusal.ofQuery = _
  rw [mapError_bind, mapError_checkAggregations known]
  rfl

theorem mapError_setGroupBy (known : Known query.version) (fields : List String) :
    (query.setGroupBy .flowRecords fields).mapError Refusal.ofQuery = (do
      demand (.query .groupBy) (∀ field ∈ fields, Has query.version field)
      return { query with groupBy := fields }) := by
  rw [setGroupBy, mapError_bind, mapError_checkFields known]
  rfl

theorem check_eq_ok (known : Known version) {expr : Expr} (populated : expr.Populated) :
    Filter.check .flowRecords version expr = .ok () ↔ ∀ field ∈ expr.fields, Has version field := by
  simp only [Filter.check_eq_ok populated, checkField_eq_ok known]

theorem mapError_addFilter (known : Known query.version) {expr : Expr} (populated : expr.Populated) :
    (query.addFilter .flowRecords expr).mapError Refusal.ofQuery = (do
      demand (.query .filter) (∀ field ∈ expr.fields, Has query.version field)
      return { query with filters := query.filters ++ [expr] }) := by
  have checked : ((Filter.check .flowRecords query.version expr).mapError .badFilter).mapError
      Refusal.ofQuery = demand (.query .filter) (∀ field ∈ expr.fields, Has query.version field) := by
    rw [mapError_mapError]
    apply mapError_eq_demand (check_eq_ok known populated)
    intro error _
    rfl
  rw [addFilter, mapError_bind, checked]
  rfl

/-! ## The settings of a request -/

theorem foldlM_apply_singleton (schema : Schema) (setting : Setting) :
    [setting].foldlM (apply schema) query = query.apply schema setting := by
  rw [List.foldlM_cons]
  exact bind_pure _

theorem apply_verb (verb : Verb) :
    ({ start .flowRecords with version, limit } : Query).apply .flowRecords (.verb verb) =
      .ok (draft version limit verb [] [] none) := by
  cases verb <;> rfl

theorem mapError_fieldSettings (known : Known version) (verb : Verb) (columns : List String) :
    ((fieldSettings verb columns).foldlM (apply .flowRecords)
        (draft version limit verb [] [] none)).mapError Refusal.ofQuery = (do
      demand (.query (columnPart verb)) (∀ field ∈ columns, Suits verb version field)
      return draft version limit verb columns [] none) := by
  cases columns with
  | nil =>
      rw [demand_bind_of_true (by simp)]
      rfl
  | cons first rest =>
      cases verb with
      | raw =>
          have suits : (∀ field ∈ first :: rest, Suits .raw version field) ↔
              ∀ field ∈ first :: rest, Has version field := by
            simp [Suits]
          have setting : fieldSettings .raw (first :: rest) = [.fields (first :: rest)] := rfl
          rw [setting, foldlM_apply_singleton, apply, mapError_setFields known rfl, demand_congr suits]
          rfl
      | aggregate function =>
          have setting : fieldSettings (.aggregate function) (first :: rest) =
              [.aggregations ((first :: rest).map fun field => ⟨field, function⟩)] := rfl
          rw [setting, foldlM_apply_singleton, apply,
            mapError_setAggregations known function (List.cons_ne_nil first rest)]
          rfl

theorem mapError_groupSettings (known : Known version) (verb : Verb) (columns groups : List String) :
    ((groupSettings groups).foldlM (apply .flowRecords)
        (draft version limit verb columns [] none)).mapError Refusal.ofQuery = (do
      demand (.query .groupBy) (∀ field ∈ groups, Has version field)
      return draft version limit verb columns groups none) := by
  cases groups with
  | nil =>
      rw [demand_bind_of_true (by simp)]
      rfl
  | cons first rest =>
      have setting : groupSettings (first :: rest) = [.groupBy (first :: rest)] := rfl
      rw [setting, foldlM_apply_singleton, apply, mapError_setGroupBy known]
      rfl

theorem mapError_filterSetting (known : Known version) (verb : Verb) (columns groups : List String)
    {filter : Option Expr} (populated : ∀ expr ∈ filter, expr.Populated) :
    ((draft version limit verb columns groups none).apply .flowRecords (.filter filter)).mapError
        Refusal.ofQuery = (do
      demand (.query .filter) (∀ expr ∈ filter, ∀ field ∈ expr.fields, Has version field)
      return draft version limit verb columns groups filter) := by
  cases filter with
  | none =>
      rw [demand_bind_of_true (by simp)]
      rfl
  | some expr =>
      have names : (∀ other ∈ some expr, ∀ field ∈ other.fields, Has version field) ↔
          ∀ field ∈ expr.fields, Has version field := by
        simp
      rw [apply, mapError_addFilter known (populated expr rfl), demand_congr names]
      rfl

theorem mapError_build (version limit : Number) (verb : Verb) (columns groups : List String)
    {filter : Option Expr} {filters : List Setting} (populated : ∀ expr ∈ filter, expr.Populated)
    (adds : ∀ query : Query, filters.foldlM (apply .flowRecords) query =
      query.apply .flowRecords (.filter filter)) :
    (build .flowRecords ([.version version, .limit limit, .verb verb] ++ fieldSettings verb columns ++
        groupSettings groups ++ filters)).mapError Refusal.ofQuery = (do
      demand (.query .version) (version = 2 ∨ version = 3 ∨ version = 5)
      demand (.query .limit) (∃ n ∈ limit.toInt?, 0 ≤ n)
      demand (.query (columnPart verb)) (∀ field ∈ columns, Suits verb version field)
      demand (.query .groupBy) (∀ field ∈ groups, Has version field)
      demand (.query .filter) (∀ expr ∈ filter, ∀ field ∈ expr.fields, Has version field)
      return draft version limit verb columns groups filter) := by
  simp only [build, List.foldlM_append, List.foldlM_cons, List.foldlM_nil, bind_assoc, bind_pure]
  rw [mapError_bind, apply, mapError_setVersion, bind_assoc]
  apply demand_bind_congr
  intro known
  rw [pure_bind, mapError_bind, apply, mapError_setLimit, bind_assoc]
  apply demand_bind_congr
  intro _
  rw [pure_bind, apply_verb]
  change (((fieldSettings verb columns).foldlM (apply .flowRecords)
    (draft version limit verb [] [] none)) >>= _).mapError Refusal.ofQuery = _
  rw [mapError_bind, mapError_fieldSettings known, bind_assoc]
  apply demand_bind_congr
  intro _
  rw [pure_bind, mapError_bind, mapError_groupSettings known, bind_assoc]
  apply demand_bind_congr
  intro _
  rw [pure_bind, adds, mapError_filterSetting known verb columns groups populated]

/-! ## The text of a query -/

/-- The text of a query about flow log records. -/
def text (query : Query) : String :=
  " | ".intercalate (patternOf (recordFields query.version) :: query.stages .flowRecords)

/-- The stages behind the statement that parses records, each with the bar in front of it. -/
def tail (query : Query) : String := String.join ((query.stages .flowRecords).map (" | " ++ ·))

theorem text_eq (query : Query) : query.text = patternOf (recordFields query.version) ++ query.tail := by
  have joined : ∀ (first : String) (rest : List String),
      " | ".intercalate (first :: rest) = first ++ String.join (rest.map (" | " ++ ·)) := by
    intro first rest
    induction rest generalizing first with
    | nil => simp
    | cons next rest ih =>
        rw [String.intercalate_cons_cons, ih, List.map_cons, String.join_cons]
        simp only [String.append_assoc]
  exact joined _ _

theorem text_ne_empty (query : Query) : query.text ≠ "" := by
  intro isEmpty
  rw [text_eq, String.append_eq_empty_iff] at isEmpty
  exact patternOf_ne_empty _ isEmpty.1

theorem render_flowRecords (known : Known query.version) :
    query.render .flowRecords = .ok query.text := by
  rw [render, parsePattern_eq known]
  rfl

end Query

namespace Request

variable {request : Request} {filter : Option Expr}

theorem populated_of_readFilter (read : request.readFilter = .ok filter) :
    ∀ expr ∈ filter, expr.Populated := by
  rintro expr rfl
  rw [readFilter] at read
  split at read
  · cases read
  · split at read
    · cases read
    · exact Filter.populated_of_parse read

theorem filterSettings_of_error {error : Filter.Error} (read : request.readFilter = .error error) :
    filterSettings (.ofSchema .flowRecords .flowRecords) request.filter = .error error := by
  rw [readFilter] at read
  split at read
  · cases read
  · next text given =>
      split at read
      · cases read
      · next notEmpty =>
          rw [given, filterSettings]
          simp only [notEmpty, if_false, read]
          rfl

/-- The filter of a request is applied as one setting, or not at all if there is none. -/
theorem filterSettings_of_ok (read : request.readFilter = .ok filter) :
    ∃ filters, filterSettings (.ofSchema .flowRecords .flowRecords) request.filter = .ok filters ∧
      ∀ query : Query, filters.foldlM (Query.apply .flowRecords) query =
        query.apply .flowRecords (.filter filter) := by
  rw [readFilter] at read
  split at read
  · next absent =>
      cases read
      exact ⟨[], by rw [absent, filterSettings], fun _ => rfl⟩
  · next text given =>
      split at read
      · next isEmpty =>
          cases read
          exact ⟨[], by rw [given, filterSettings]; simp only [isEmpty, if_true], fun _ => rfl⟩
      · next notEmpty =>
          refine ⟨[.filter filter], ?_, fun _ => Query.foldlM_apply_singleton _ _⟩
          rw [given, filterSettings]
          simp only [notEmpty, if_false, read]
          rfl

theorem query_decision (config : Config) (request : Request) :
    (request.query (some .flowRecords) config).mapError Error.refusal = request.decision config := by
  rw [query, settings, decision, readVerb, vocabulary]
  cases Verb.ofText? request.verb with
  | none => rfl
  | some verb =>
      cases read : request.readFilter with
      | error error =>
          rw [filterSettings_of_error read]
          rfl
      | ok filter =>
          rcases filterSettings_of_ok read with ⟨filters, settings, adds⟩
          rw [settings]
          change ((Query.build .flowRecords _).mapError Error.query).mapError Error.refusal = _
          rw [mapError_mapError]
          exact Query.mapError_build _ _ verb request.columns request.groups
            (populated_of_readFilter read) adds

/-- The requests that meet all demands, with their verb and their filter. -/
structure Meets (config : Config) (request : Request) (verb : Verb) (filter : Option Expr) : Prop where
  hasVerb : Verb.ofText? request.verb = some verb
  hasFilter : request.readFilter = .ok filter
  version : Known (request.versionIn config)
  limit : ∃ n ∈ (request.limitIn config).toInt?, 0 ≤ n
  columns : ∀ field ∈ request.columns, Suits verb (request.versionIn config) field
  groups : ∀ field ∈ request.groups, Has (request.versionIn config) field
  names : ∀ expr ∈ filter, ∀ field ∈ expr.fields, Has (request.versionIn config) field

theorem decision_eq_ok {config : Config} {query : Query} :
    request.decision config = .ok query ↔
      ∃ verb filter, request.Meets config verb filter ∧
        request.described config verb filter = query := by
  rw [decision]
  constructor
  · intro decided
    split at decided
    · cases decided
    · next verb hasVerb =>
        rcases bind_eq_ok.1 decided with ⟨filter, read, demands⟩
        simp only [demand_bind_eq_ok] at demands
        rcases demands with ⟨version, limit, columns, groups, names, isDescribed⟩
        cases isDescribed
        exact ⟨verb, filter,
          ⟨hasVerb, mapError_eq_ok.1 read, version, limit, columns, groups, names⟩, rfl⟩
  · rintro ⟨verb, filter, meets, rfl⟩
    rw [meets.hasVerb, meets.hasFilter]
    refine bind_eq_ok.2 ⟨filter, rfl, ?_⟩
    simp only [demand_bind_eq_ok]
    exact ⟨meets.version, meets.limit, meets.columns, meets.groups, meets.names, rfl⟩

theorem part_ne_render_of_decision {config : Config} {part : QueryPart}
    (refused : request.decision config = .error (.query part)) : part ≠ .render := by
  rw [decision] at refused
  split at refused
  · cases refused
    simp
  · next verb _ =>
      cases read : request.readFilter with
      | error error =>
          rw [read] at refused
          cases refused
      | ok filter =>
          rw [read] at refused
          rcases demand_bind_eq_error refused with isVersion | refused
          · cases isVersion
            simp
          rcases demand_bind_eq_error refused with isLimit | refused
          · cases isLimit
            simp
          rcases demand_bind_eq_error refused with isColumns | refused
          · cases isColumns
            cases verb <;> simp [columnPart]
          rcases demand_bind_eq_error refused with isGroups | refused
          · cases isGroups
            simp
          rcases demand_bind_eq_error refused with isNames | refused
          · cases isNames
            simp
          · cases refused

theorem mapError_compile (config : Config) (request : Request) :
    (request.compile .flowRecords config).mapError Error.refusal =
      (request.decision config).map Query.text := by
  have decides := query_decision config request
  rw [compile]
  cases made : request.query (some .flowRecords) config with
  | error error =>
      rw [made] at decides
      rw [← decides]
      rfl
  | ok query =>
      rw [made] at decides
      rcases decision_eq_ok.1 decides.symm with ⟨verb, filter, meets, rfl⟩
      rw [← decides]
      change ((do
        let text ← ((request.described config verb filter).render .flowRecords).mapError Error.query
        if text = "" then throw (.query .emptyQuery)
        return text) : Except Error String).mapError Error.refusal = _
      rw [Query.render_flowRecords meets.version]
      change (if (request.described config verb filter).text = "" then _ else _ :
        Except Error String).mapError Error.refusal = _
      rw [if_neg (Query.text_ne_empty _)]
      rfl

theorem compile_eq_ok {config : Config} {text : String} :
    request.compile .flowRecords config = .ok text ↔
      ∃ verb filter, request.Meets config verb filter ∧
        (request.described config verb filter).text = text := by
  have lifted : request.compile .flowRecords config = .ok text ↔
      (request.compile .flowRecords config).mapError Error.refusal = .ok text :=
    mapError_eq_ok.symm
  rw [lifted, mapError_compile]
  constructor
  · intro compiled
    cases decided : request.decision config with
    | error refusal =>
        rw [decided] at compiled
        cases compiled
    | ok query =>
        rw [decided] at compiled
        cases compiled
        rcases decision_eq_ok.1 decided with ⟨verb, filter, meets, rfl⟩
        exact ⟨verb, filter, meets, rfl⟩
  · rintro ⟨verb, filter, meets, rfl⟩
    rw [decision_eq_ok.2 ⟨verb, filter, meets, rfl⟩]
    rfl

/-- A request is refused for the first demand that it does not meet, and compiled to the text of the
query that it describes if it meets them all. It is never refused because the query cannot be
written. -/
theorem compile_decision (config : Config) (request : Request) :
    (request.compile .flowRecords config).mapError Error.refusal =
        (request.decision config).map Query.text ∧
      request.decision config ≠ .error (.query .render) := by
  refine ⟨mapError_compile config request, ?_⟩
  intro refused
  exact part_ne_render_of_decision refused rfl

/-! ## Raising the version -/

/-- A request for records of a given version. -/
def atVersion (request : Request) (version : Number) : Request :=
  { request with version := some version }

theorem Meets.atVersion {config : Config} {verb : Verb} {version other : Number}
    (meets : (request.atVersion version).Meets config verb filter) (known : Known other)
    (wider : ∀ field, Has version field → Has other field) :
    (request.atVersion other).Meets config verb filter where
  hasVerb := meets.hasVerb
  hasFilter := meets.hasFilter
  version := known
  limit := meets.limit
  columns field isColumn :=
    ⟨wider field (meets.columns field isColumn).1, (meets.columns field isColumn).2⟩
  groups field isGroup := wider field (meets.groups field isGroup)
  names expr isFilter field isName := wider field (meets.names expr isFilter field isName)

/-- A request that is compiled for version 2 is compiled for every version, with the same stages
behind the statement that parses records. Versions 3 and 5 make no difference at all. It does not
matter whether the version comes from the request or from the configuration. -/
theorem compile_atVersion (config : Config) (request : Request) :
    (∀ text, (request.atVersion 2).compile .flowRecords config = .ok text →
      ∃ tail, ∀ version ∈ versions, ∃ pattern, Schema.flowRecords.parsePattern version = .ok pattern ∧
        (request.atVersion version).compile .flowRecords config = .ok (pattern ++ tail)) ∧
    (∀ text, (request.atVersion 3).compile .flowRecords config = .ok text ↔
      (request.atVersion 5).compile .flowRecords config = .ok text) ∧
    ∀ version, ({ request with version := none } : Request).compile .flowRecords
        { config with defaultVersion := version } =
      (request.atVersion version).compile .flowRecords config := by
  refine ⟨?_, ?_, ?_⟩
  · intro text compiled
    rcases compile_eq_ok.1 compiled with ⟨verb, filter, meets, -⟩
    refine ⟨((request.atVersion 2).described config verb filter).tail, ?_⟩
    intro version isVersion
    have known : Known version := known_iff_mem_versions.2 isVersion
    refine ⟨_, parsePattern_eq known, ?_⟩
    rw [compile_eq_ok]
    refine ⟨verb, filter, meets.atVersion known fun field has => has.of_two known, ?_⟩
    exact Query.text_eq _
  · intro text
    rw [compile_eq_ok, compile_eq_ok]
    constructor
    · rintro ⟨verb, filter, meets, rfl⟩
      exact ⟨verb, filter, meets.atVersion (Or.inr (Or.inr rfl)) fun _ has => has, rfl⟩
    · rintro ⟨verb, filter, meets, rfl⟩
      exact ⟨verb, filter, meets.atVersion (Or.inr (Or.inl rfl)) fun _ has => has, rfl⟩
  · intro version
    simp only [compile, query, settings, atVersion, readVerb, Option.getD_none, Option.getD_some]

/-- A request that aggregates a computed field and a record field, with a computed field in its
filter. -/
theorem compile_atVersion_grouped :
    let config : Config := ⟨20, 5⟩
    let request : Request :=
      { verb := " Sum", fields := some ["bytes, duration"], groupBy := some ["srcaddr"],
        filter := some "duration > 60" }
    ∃ text, (request.atVersion 2).compile .flowRecords config = .ok text ∧
      ∃ tail, ∀ version ∈ versions, ∃ pattern, Schema.flowRecords.parsePattern version = .ok pattern ∧
        (request.atVersion version).compile .flowRecords config = .ok (pattern ++ tail) := by
  intro config request
  have parsed : Filter.parse (.ofSchema .flowRecords .flowRecords) "duration > 60" =
      .ok (some (.leaf (.compare .gt "end - start" (.number 60) (some "duration")))) := by
    rw [Filter.parse, if_neg (by decide), Filter.readExpr, Outline.ofText_eq]
    rfl
  have meets : (request.atVersion 2).Meets config (.aggregate .sum)
      (some (.leaf (.compare .gt "end - start" (.number 60) (some "duration")))) :=
    ⟨by decide, parsed, by decide, by decide, by decide, by decide, by decide⟩
  have compiled := compile_eq_ok.2 ⟨_, _, meets, rfl⟩
  exact ⟨_, compiled, (compile_atVersion config request).1 _ compiled⟩

end Request

end FlowLog
