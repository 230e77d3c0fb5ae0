import FlowLog.Proofs.FieldList
import FlowLog.Proofs.Service

/-!
# Listing fields and querying them

A listing describes each field of a version by its name, by whether it is a number, and by the
computation that it stands for if there is one. The page of a listing determines its entries,
because no entry is written like the beginning of another one. The fields that are listed are those
that a query may group by, the numbers among them are those that it may add up, and a computation
that is listed is what a query groups by.
-/

namespace FlowLog

open Fallible Schema.FlowRecords

namespace Service

variable {config : Config} {version : Number}

/-! ## Listings -/

/-- What a listing says of a field. -/
structure FieldEntry where
  name : String
  numeric : Bool
  expression : Option String
  deriving DecidableEq, Repr

/-- The description of a field; only a computed field has a member for its computation. -/
def FieldEntry.report (entry : FieldEntry) : Json :=
  .object ([("name", .text entry.name), ("numeric", .bool entry.numeric)] ++
    entry.expression.toList.map fun expression => ("expression", .text expression))

/-- The listing of some fields of a version. -/
def listing (version : Number) (entries : List FieldEntry) : Json :=
  .object [("version", .number version), ("fields", .array (entries.map FieldEntry.report))]

/-- The last lines of a description, from the end of the second member on. -/
def FieldEntry.ending : Option String → List Char
  | none => Json.newLine 2 ++ ['\x7d']
  | some expression =>
      ',' :: Json.newLine 3 ++ Json.quoted "expression" ++ [':', ' '] ++ Json.quoted expression ++
        Json.newLine 2 ++ ['\x7d']

theorem separates_ending : Json.Separates FieldEntry.ending := by
  intro expression expression' behind behind' same
  cases expression with
  | none =>
      cases expression' with
      | none => exact ⟨rfl, List.append_cancel_left same⟩
      | some computation' => cases (List.cons.inj same).1
  | some computation =>
      cases expression' with
      | none => cases (List.cons.inj same).1
      | some computation' =>
          simp only [FieldEntry.ending, List.append_assoc, List.append_cancel_left_eq] at same
          rcases Json.quoted_cancel same with ⟨rfl, sameRest⟩
          exact ⟨rfl, by simpa only [List.append_cancel_left_eq] using sameRest⟩

theorem indented_report (entry : FieldEntry) :
    entry.report.indented 2 = ('\x7b' :: Json.newLine 3 ++ Json.quoted "name" ++ [':', ' ']) ++
      (Json.quoted entry.name ++ ((',' :: Json.newLine 3 ++ Json.quoted "numeric" ++ [':', ' ']) ++
        (Json.compact (.bool entry.numeric) ++ FieldEntry.ending entry.expression))) := by
  rcases entry with ⟨name, numeric, expression⟩
  cases expression <;>
    simp [FieldEntry.report, FieldEntry.ending, Json.indented, Json.indentedMembers, Json.block,
      Json.commaSeparated, Json.compact, -String.reduceToList]

theorem separates_report : Json.Separates fun entry => (FieldEntry.report entry).indented 2 := by
  rintro ⟨name, numeric, expression⟩ ⟨name', numeric', expression'⟩ behind behind' same
  simp only [indented_report, List.append_assoc, List.append_cancel_left_eq] at same
  rcases Json.quoted_cancel same with ⟨rfl, sameNumeric⟩
  simp only [List.append_cancel_left_eq] at sameNumeric
  rcases Json.separates_bool _ _ _ _ sameNumeric with ⟨rfl, sameEnding⟩
  rcases separates_ending _ _ _ _ sameEnding with ⟨rfl, sameBehind⟩
  exact ⟨rfl, sameBehind⟩

theorem entries_of_page {entries entries' : List FieldEntry}
    (same : (listing version entries).page = (listing version entries').page) : entries = entries' := by
  have indented_eq : ∀ entries, (listing version entries).indented 0 =
      ('\x7b' :: Json.newLine 1 ++ Json.quoted "version" ++ [':', ' '] ++ Json.numeral version ++
        ',' :: Json.newLine 1 ++ Json.quoted "fields" ++ [':', ' ']) ++
      (Json.block 1 '[' ']' (entries.map fun entry => entry.report.indented 2) ++
        (Json.newLine 0 ++ ['\x7d'])) := by
    intro entries
    simp [listing, Json.indented, Json.indentedItems_eq_map, Json.indentedMembers, Json.block,
      Json.commaSeparated, Json.compact, Function.comp_def, -String.reduceToList]
  have sameText := String.ofList_injective same
  rw [indented_eq, indented_eq] at sameText
  exact (separates_report.block 1 '[' (by decide) _ _ _ _ (List.append_cancel_left sameText)).1

/-! ## The fields of a version -/

/-- The entry for a field. -/
def FieldEntry.ofName (name : String) : FieldEntry := ⟨name, numericFields.contains name, computed name⟩

/-- The entries for a version: the fields of its records, and behind them those that are
computed. -/
def entriesOf (version : Number) : List FieldEntry :=
  (recordFields version ++ Schema.flowRecords.computedFields).map FieldEntry.ofName

theorem listReport_eq (known : Known version) :
    (⟨.flowRecords, config⟩ : Service).listReport version =
      .ok (listing version (entriesOf version)) := by
  rcases known with rfl | rfl | rfl
  · rfl
  · rfl
  · rfl

theorem mem_entriesOf {name : String} (notStar : name ≠ "*") {entry : FieldEntry} :
    entry ∈ entriesOf version ∧ entry.name = name ↔
      Has version name ∧ FieldEntry.ofName name = entry := by
  have isListed : name ∈ recordFields version ++ Schema.flowRecords.computedFields ↔
      Has version name := by
    have isComputed : name ∈ Schema.flowRecords.computedFields ↔ name = "duration" := List.mem_singleton
    rw [List.mem_append, isComputed, or_comm, Has, or_iff_right notStar]
  rw [entriesOf, List.mem_map]
  constructor
  · rintro ⟨⟨_, isMember, rfl⟩, rfl⟩
    exact ⟨isListed.1 isMember, rfl⟩
  · rintro ⟨has, rfl⟩
    exact ⟨⟨name, isListed.2 has, rfl⟩, rfl⟩

theorem call_listFields (version : Int) {text : String} :
    (⟨.flowRecords, config⟩ : Service).call "list_fields"
        (some (withVersion (some (.int version)) [])) = .ok text ↔
      Known (.integer version) ∧
        (listing (.integer version) (entriesOf (.integer version))).page = text := by
  have calls : (⟨.flowRecords, config⟩ : Service).call "list_fields"
      (some (withVersion (some (.int version)) [])) = (do
        let report ← (⟨.flowRecords, config⟩ : Service).listReport (.integer version)
        return report.page) := rfl
  rw [calls, bind_eq_ok]
  constructor
  · rintro ⟨report, reported, shown⟩
    rcases bind_eq_ok.1 reported with ⟨fields, hasFields, -⟩
    have known := (fields_eq_ok.1 (mapError_eq_ok.1 hasFields)).1
    cases (listReport_eq known).symm.trans reported
    cases shown
    exact ⟨known, rfl⟩
  · rintro ⟨known, rfl⟩
    exact ⟨_, listReport_eq known, rfl⟩

end Service

/-! ## Queries about one field -/

theorem Query.column_eq_iff {schema : Schema} {field computation : String} :
    column schema field = computation ++ " as " ++ field ↔ schema.computed field = some computation := by
  rw [column]
  split
  · next other isComputed => simp [isComputed]
  · next notComputed =>
      simp only [notComputed, reduceCtorEq, iff_false]
      intro same
      have lengths := congrArg String.length same
      simp only [String.length_append] at lengths
      have : " as ".length = 4 := rfl
      omega

namespace Request

variable {config : Config}

theorem compile_unfiltered (request : Request) {verb : Verb}
    (hasVerb : Verb.ofText? request.verb = some verb)
    (unfiltered : request.filter = none) (limit : ∃ n ∈ (request.limitIn config).toInt?, 0 ≤ n)
    {text : String} :
    request.compile .flowRecords config = .ok text ↔
      (Known (request.versionIn config) ∧
        (∀ field ∈ request.columns, Suits verb (request.versionIn config) field) ∧
        ∀ field ∈ request.groups, Has (request.versionIn config) field) ∧
      (request.described config verb none).text = text := by
  have hasFilter : request.readFilter = .ok none := by rw [readFilter, unfiltered]
  rw [compile_eq_ok]
  constructor
  · rintro ⟨verb', filter, meets, rfl⟩
    cases hasVerb.symm.trans meets.hasVerb
    cases hasFilter.symm.trans meets.hasFilter
    exact ⟨⟨meets.version, meets.columns, meets.groups⟩, rfl⟩
  · rintro ⟨⟨known, columns, groups⟩, rfl⟩
    exact ⟨verb, none, ⟨hasVerb, hasFilter, known, limit, columns, groups, by simp⟩, rfl⟩

theorem text_count_by (version limit : Number) (name : String) :
    (draft version limit (.aggregate .count) [] [name] none).text =
      patternOf (recordFields version) ++ " | stats count(*) as flows by " ++
        Query.column .flowRecords name ++ " | sort flows desc" ++
          if limit.isPositive then " | limit " ++ String.ofList limit.text else "" := by
  have stages : (draft version limit (.aggregate .count) [] [name] none).stages .flowRecords =
      ("stats count(*) as flows" ++ (" by " ++ Query.column .flowRecords name)) :: "sort flows desc" ::
        if limit.isPositive then ["limit " ++ String.ofList limit.text] else [] := rfl
  have grouping : " | stats count(*) as flows by " = " | " ++ ("stats count(*) as flows" ++ " by ") := by
    decide
  have sorting : " | sort flows desc" = " | " ++ "sort flows desc" := by decide
  have limiting : " | limit " = " | " ++ "limit " := by decide
  rw [Query.text_eq, Query.tail, stages, grouping, sorting, limiting]
  split
  · simp only [List.map_cons, List.map_nil, String.join_cons, String.join_nil, String.append_empty,
      String.append_assoc]
    rfl
  · simp only [List.map_cons, List.map_nil, String.join_cons, String.join_nil, String.append_empty,
      String.append_assoc]
    rfl

end Request

namespace Service

variable {config : Config}

theorem call_compileQuery_eq_ok {given : Option Json} {members : List (String × Json)}
    {request : Request}
    (reads : readRequest (some (withVersion given members)) = .ok request) {text : String} :
    (⟨.flowRecords, config⟩ : Service).call "compile_query"
        (some (withVersion given members)) = .ok text ↔
      request.compile .flowRecords config = .ok text := by
  rw [call_compileQuery, bind_eq_ok]
  constructor
  · rintro ⟨other, read, compiled⟩
    cases reads.symm.trans (mapError_eq_ok.1 read)
    exact mapError_eq_ok.1 compiled
  · intro compiled
    exact ⟨request, mapError_eq_ok.2 reads, mapError_eq_ok.2 compiled⟩

theorem call_grouped (limit : ∃ n ∈ config.defaultLimit.toInt?, 0 ≤ n) (version : Int) {name : String}
    (single : Request.fieldList [name] = [name]) {text : String} :
    (⟨.flowRecords, config⟩ : Service).call "compile_query" (some (withVersion (some (.int version))
        [("verb", .text "count"), ("groupBy", .texts [name])])) = .ok text ↔
      (Known (.integer version) ∧ Has (.integer version) name) ∧
        (Request.draft (.integer version) config.defaultLimit (.aggregate .count) [] [name] none).text =
          text := by
  let request : Request :=
    { verb := "count", groupBy := some [name], version := some (.integer version) }
  have reads : readRequest (some (withVersion (some (.int version))
      [("verb", .text "count"), ("groupBy", .texts [name])])) = .ok request := rfl
  have hasGroups : request.groups = [name] := single
  have hasColumns : request.columns = [] := rfl
  rw [call_compileQuery_eq_ok reads, request.compile_unfiltered ofText?_count rfl limit,
    Request.described, hasGroups, hasColumns]
  simp only [List.mem_singleton, forall_eq, List.not_mem_nil, false_imp_iff, implies_true, true_and]
  rfl

theorem call_summed (limit : ∃ n ∈ config.defaultLimit.toInt?, 0 ≤ n) (version : Int) {name : String}
    (single : Request.fieldList [name] = [name]) {text : String} :
    (⟨.flowRecords, config⟩ : Service).call "compile_query" (some (withVersion (some (.int version))
        [("verb", .text "sum"), ("fields", .texts [name])])) = .ok text ↔
      (Known (.integer version) ∧ Has (.integer version) name ∧ name ∈ numericFields) ∧
        (Request.draft (.integer version) config.defaultLimit (.aggregate .sum) [name] [] none).text =
          text := by
  let request : Request := { verb := "sum", fields := some [name], version := some (.integer version) }
  have ofText?_sum : Verb.ofText? "sum" = some (.aggregate .sum) := by decide
  have reads : readRequest (some (withVersion (some (.int version))
      [("verb", .text "sum"), ("fields", .texts [name])])) = .ok request := rfl
  have hasGroups : request.groups = [] := rfl
  have hasColumns : request.columns = [name] := single
  rw [call_compileQuery_eq_ok reads, request.compile_unfiltered ofText?_sum rfl limit, Request.described,
    hasGroups, hasColumns]
  simp only [List.mem_singleton, forall_eq, List.not_mem_nil, false_imp_iff, implies_true, and_true,
    Request.Suits, ne_eq, reduceCtorEq, not_false_eq_true, true_imp_iff, Verb.aggregate.injEq]
  rfl

/-- The fields of a version can be listed exactly if the version exists. Of the names that stand for
one field, those in the listing are those that a query may group by, and the numbers among them are
those that it may add up. A computation stands beside a name exactly if a query that groups by the
name groups by that computation. No other entries have the same page. -/
theorem listFields_agrees_compileQuery {config : Config}
    (limit : ∃ n ∈ config.defaultLimit.toInt?, 0 ≤ n) (version : Int) {name : String}
    (nonempty : name ≠ "") (trimmed : Text.trim name.toList = name.toList)
    (commaless : ',' ∉ name.toList) (notStar : name ≠ "*") :
    let service : Service := ⟨.flowRecords, config⟩
    let listed := service.reply "list_fields" (some (withVersion (some (.int version)) []))
    let grouped := service.reply "compile_query" (some (withVersion (some (.int version))
      [("verb", .text "count"), ("groupBy", .texts [name])]))
    let summed := service.reply "compile_query" (some (withVersion (some (.int version))
      [("verb", .text "sum"), ("fields", .texts [name])]))
    (listed.isError = true ↔ .integer version ∉ versions) ∧
    (.integer version ∈ versions → ∃ entries pattern,
      listed = ⟨(listing (.integer version) entries).page, false⟩ ∧
      (∀ entries', listed.text = (listing (.integer version) entries').page → entries' = entries) ∧
      ((∃ entry ∈ entries, entry.name = name) ↔ grouped.isError = false) ∧
      ((∃ entry ∈ entries, entry.name = name ∧ entry.numeric = true) ↔ summed.isError = false) ∧
      Schema.flowRecords.parsePattern (.integer version) = .ok pattern ∧
      ∀ entry ∈ entries, entry.name = name → ∀ expression, entry.expression = some expression ↔
        grouped = ⟨pattern ++ " | stats count(*) as flows by " ++ (expression ++ " as " ++ name) ++
          " | sort flows desc" ++ (if config.defaultLimit.isPositive then
            " | limit " ++ String.ofList config.defaultLimit.text else ""), false⟩) := by
  intro service listed grouped summed
  have single := Request.fieldList_singleton nonempty trimmed commaless
  refine ⟨?_, ?_⟩
  · rw [← known_iff_mem_versions, ← Bool.not_eq_false,
      isError_reply_iff fun _ => call_listFields version]
  · intro isVersion
    have known : Known (.integer version) := known_iff_mem_versions.2 isVersion
    have listed_eq : listed = ⟨_, false⟩ := reply_eq.2 ((call_listFields version).2 ⟨known, rfl⟩)
    refine ⟨entriesOf (.integer version), _, listed_eq, ?_, ?_, ?_, parsePattern_eq known, ?_⟩
    · intro entries' same
      rw [listed_eq] at same
      exact (entries_of_page same).symm
    · rw [isError_reply_iff fun _ => call_grouped limit version single, and_iff_right known]
      simp only [mem_entriesOf notStar, exists_and_left, exists_eq', and_true]
    · rw [isError_reply_iff fun _ => call_summed limit version single, and_iff_right known]
      simp only [← and_assoc, mem_entriesOf notStar]
      simp [FieldEntry.ofName]
    · intro entry isMember isNamed expression
      rcases (mem_entriesOf notStar).1 ⟨isMember, isNamed⟩ with ⟨has, rfl⟩
      have called := (call_grouped limit version single).2 ⟨⟨known, has⟩, rfl⟩
      rw [Request.text_count_by] at called
      have grouped_eq : grouped = ⟨_, false⟩ := reply_eq.2 called
      rw [grouped_eq, Reply.mk.injEq, and_iff_left rfl, String.append_left_inj, String.append_left_inj,
        String.append_right_inj, Query.column_eq_iff]
      rfl

/-- The computed field in a version other than the default. -/
theorem listFields_agrees_compileQuery_duration :
    let service : Service := ⟨.flowRecords, ⟨20, 2⟩⟩
    let listed := service.reply "list_fields" (some (withVersion (some (.int 3)) []))
    let grouped := service.reply "compile_query" (some (withVersion (some (.int 3))
      [("verb", .text "count"), ("groupBy", .texts ["duration"])]))
    let summed := service.reply "compile_query" (some (withVersion (some (.int 3))
      [("verb", .text "sum"), ("fields", .texts ["duration"])]))
    listed.isError = false ∧ summed.isError = false ∧
    ∃ entries pattern, listed = ⟨(listing 3 entries).page, false⟩ ∧
      ⟨"duration", true, some "end - start"⟩ ∈ entries ∧
      Schema.flowRecords.parsePattern 3 = .ok pattern ∧
      grouped = ⟨pattern ++ " | stats count(*) as flows by " ++
        ("end - start" ++ " as " ++ "duration") ++ " | sort flows desc" ++ " | limit 20", false⟩ := by
  intro service listed grouped summed
  have limit : ∃ n ∈ service.config.defaultLimit.toInt?, 0 ≤ n := by decide
  have name_ok : "duration" ≠ "" ∧ Text.trim "duration".toList = "duration".toList ∧
      ',' ∉ "duration".toList ∧ "duration" ≠ "*" := by decide
  have agrees := listFields_agrees_compileQuery limit 3 name_ok.1 name_ok.2.1 name_ok.2.2.1 name_ok.2.2.2
  rcases agrees.2 (by decide) with ⟨entries, pattern, listed_eq, unique, -, numeric, isPattern, column⟩
  have called : service.call "list_fields" (some (withVersion (some (.int 3)) [])) = .ok _ :=
    (call_listFields 3).2 ⟨by decide, rfl⟩
  have listed_eq' : listed = ⟨_, false⟩ := reply_eq.2 called
  have entries_eq := unique _ (congrArg Reply.text listed_eq')
  have isEntry : ⟨"duration", true, some "end - start"⟩ ∈ entries := by
    rw [← entries_eq]
    decide
  refine ⟨congrArg Reply.isError listed_eq, numeric.1 ⟨_, isEntry, rfl, rfl⟩, entries, pattern,
    listed_eq, isEntry, isPattern, ?_⟩
  exact (column _ isEntry rfl "end - start").1 rfl

end Service

end FlowLog
