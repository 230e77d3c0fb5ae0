import FlowLog.Service.Tool
import FlowLog.Proofs.Arguments
import FlowLog.Proofs.Decision
import FlowLog.Proofs.Json

/-!
# Checking a filter and counting with it

A filter reaches a service in two ways: it is checked for a version, or a query is compiled with it.
The two read their arguments, the version and the filter in different orders and report different
faults. Under both a filter is taken if the version is known, the text can be read and the version
has all fields of the filter (`Service.Takes`). The check shows the filter as it is written, and the
query has a stage with that text.
-/

namespace FlowLog

open Fallible Schema.FlowRecords

/-! ## The text of a filter -/

/-- How a filter is written; nothing is written as an empty text. -/
def Filter.written (filter : Option Expr) : String := (filter.map Expr.render).getD ""

namespace Request

/-- A filter adds its own stage to a query and leaves all other stages as they are. -/
theorem tail_draft (version limit : Number) (verb : Verb) (columns groups : List String)
    {filter : Option Expr} (populated : ∀ expr ∈ filter, expr.Populated) :
    (draft version limit verb columns groups filter).tail =
      (if Filter.written filter = "" then "" else " | filter " ++ Filter.written filter) ++
        (draft version limit verb columns groups none).tail := by
  cases filter with
  | none => simp [Filter.written]
  | some expr =>
      have nonempty : Filter.written (some expr) ≠ "" := (populated expr rfl).render_ne_empty
      have stage : (draft version limit verb columns groups (some expr)).stages .flowRecords =
          ("filter " ++ expr.render) ::
            (draft version limit verb columns groups none).stages .flowRecords := by
        change ("filter " ++ (Expr.node .and [expr]).render) :: _ = _
        rw [Expr.render_and, List.map_cons, List.map_nil, String.intercalate_singleton]
        rfl
      rw [if_neg nonempty, Query.tail, Query.tail, stage, List.map_cons, String.join_cons,
        ← String.append_assoc]
      rfl

theorem tail_count (version limit : Number) :
    (draft version limit (.aggregate .count) [] [] none).tail =
      " | stats count(*) as flows | sort flows desc" ++
        if limit.isPositive then " | limit " ++ String.ofList limit.text else "" := by
  have stages : (draft version limit (.aggregate .count) [] [] none).stages .flowRecords =
      "stats count(*) as flows" :: "sort flows desc" ::
        if limit.isPositive then ["limit " ++ String.ofList limit.text] else [] := rfl
  rw [Query.tail, stages]
  split
  · simp only [List.map_cons, List.map_nil, String.join_cons, String.join_nil, String.append_empty,
      ← String.append_assoc]
    rfl
  · rfl

end Request

namespace Service

variable {service : Service} {config : Config} {version : Option Number} {filter : String}
  {expr : Option Expr}

/-! ## Replies -/

theorem reply_eq {name : String} {arguments : Option Json} {text : String} :
    service.reply name arguments = ⟨text, false⟩ ↔ service.call name arguments = .ok text := by
  rw [reply]
  cases service.call name arguments <;> simp

theorem isError_reply {name : String} {arguments : Option Json} :
    (service.reply name arguments).isError = false ↔ ∃ text, service.call name arguments = .ok text := by
  rw [reply]
  cases service.call name arguments <;> simp

theorem isError_reply_iff {name : String} {arguments : Option Json} {condition : Prop}
    {answer : String}
    (answers : ∀ text, service.call name arguments = .ok text ↔ condition ∧ answer = text) :
    (service.reply name arguments).isError = false ↔ condition := by
  rw [isError_reply]
  simp only [answers, exists_and_left, exists_eq', and_true]

/-! ## Arguments -/

/-- Arguments with the given members, and a version if there is one. -/
def withVersion (version : Option Json) (members : List (String × Json)) : Json :=
  .object (members ++ version.toList.map fun value => ("version", value))

theorem readVersion_eq_ok {given : Option Json} (read : readVersion given = .ok version) :
    given = version.map .number := (readVersion_eq_ok_iff.1 read).1

theorem readFilterRequest_eq_ok {given : Option Json} {value : Json} {request : FilterRequest} :
    readFilterRequest (some (withVersion given [("filter", value)])) = .ok request ↔
      value = .text request.filter ∧ readVersion given = .ok request.version := by
  cases value with
  | text filter =>
      have reads : readFilterRequest (some (withVersion given [("filter", .text filter)])) = (do
          let version ← readVersion given
          return { filter, version }) := by
        cases given <;> rfl
      rw [reads, bind_eq_ok]
      constructor
      · rintro ⟨version, read, made⟩
        cases made
        exact ⟨rfl, read⟩
      · rintro ⟨isText, read⟩
        cases isText
        exact ⟨request.version, read, rfl⟩
  | null | bool _ | number _ | array _ | object _ =>
      constructor
      · intro reads
        cases given <;> cases reads
      · rintro ⟨isText, -⟩
        cases isText

theorem readRequest_withVersion (given filter : Option Json) :
    readRequest (some (withVersion given
        (("verb", .text "count") :: filter.toList.map fun value => ("filter", value)))) = (do
      let filter ← readFilter filter
      let version ← readVersion given
      return { verb := "count", filter, version }) := by
  cases given <;> cases filter <;> rfl

theorem readRequest_eq_ok {given : Option Json} {value : Json} {request : Request} :
    readRequest (some (withVersion given [("verb", .text "count"), ("filter", value)])) = .ok request ↔
      ∃ filter version, value = .text filter ∧ readVersion given = .ok version ∧
        { verb := "count", filter := some filter, version } = request := by
  have reads := readRequest_withVersion given (some value)
  rw [Option.toList_some, List.map_cons, List.map_nil] at reads
  rw [reads, bind_eq_ok]
  constructor
  · rintro ⟨filter, filterRead, rest⟩
    rcases bind_eq_ok.1 rest with ⟨version, versionRead, made⟩
    cases made
    cases value with
    | text filter =>
        cases filterRead
        exact ⟨filter, version, rfl, versionRead, rfl⟩
    | null | bool _ | number _ | array _ | object _ => cases filterRead
  · rintro ⟨filter, version, rfl, versionRead, rfl⟩
    exact ⟨some filter, rfl, bind_eq_ok.2 ⟨version, versionRead, rfl⟩⟩

/-! ## Filters that are taken -/

/-- The filters that a version takes, with what they mean. -/
structure Takes (version : Number) (filter : String) (expr : Option Expr) : Prop where
  known : Known version
  parsed : Filter.parse (.ofSchema .flowRecords .flowRecords) filter = .ok expr
  names : ∀ condition ∈ expr, ∀ field ∈ condition.fields, Has version field

theorem Takes.populated {version : Number} (takes : Takes version filter expr) :
    ∀ condition ∈ expr, condition.Populated := by
  rintro condition rfl
  exact Filter.populated_of_parse takes.parsed

theorem checkFilter_eq_ok {version : Number} :
    (⟨.flowRecords, config⟩ : Service).checkFilter filter version = .ok expr ↔
      Takes version filter expr := by
  constructor
  · intro checked
    rcases bind_eq_ok.1 checked with ⟨⟨⟩, versionChecked, rest⟩
    rcases bind_eq_ok.1 rest with ⟨read, filterRead, namesChecked⟩
    have known := checkVersion_eq_ok.1 (mapError_eq_ok.1 versionChecked)
    have parsed := mapError_eq_ok.1 filterRead
    cases read with
    | none =>
        cases namesChecked
        exact ⟨known, parsed, by simp⟩
    | some condition =>
        rcases check_then_eq_ok.1 namesChecked with ⟨accepted, rfl⟩
        refine ⟨known, parsed, ?_⟩
        rintro _ ⟨⟩
        exact (Query.check_eq_ok known (Filter.populated_of_parse parsed)).1 (mapError_eq_ok.1 accepted)
  · intro takes
    refine bind_eq_ok.2 ⟨(), mapError_eq_ok.2 (checkVersion_eq_ok.2 takes.known), ?_⟩
    refine bind_eq_ok.2 ⟨expr, mapError_eq_ok.2 takes.parsed, ?_⟩
    cases expr with
    | none => rfl
    | some condition =>
        apply check_then_eq_ok.2
        refine ⟨mapError_eq_ok.2 ?_, rfl⟩
        exact (Query.check_eq_ok takes.known (takes.populated condition rfl)).2
          (takes.names condition rfl)

theorem readFilter_eq_parse (request : Request) (given : request.filter = some filter) :
    request.readFilter = Filter.parse (.ofSchema .flowRecords .flowRecords) filter := by
  rw [Request.readFilter, given]
  by_cases isEmpty : filter = ""
  · subst isEmpty
    rfl
  · exact if_neg isEmpty

theorem ofText?_count : Verb.ofText? "count" = some (.aggregate .count) := by
  decide

theorem compile_count_eq_ok (limit : ∃ n ∈ config.defaultLimit.toInt?, 0 ≤ n) {text : String} :
    ({ verb := "count", filter := some filter, version } : Request).compile .flowRecords config =
        .ok text ↔
      ∃ expr, Takes (version.getD config.defaultVersion) filter expr ∧
        (Request.draft (version.getD config.defaultVersion) config.defaultLimit (.aggregate .count) [] []
          expr).text = text := by
  rw [Request.compile_eq_ok]
  constructor
  · rintro ⟨verb, expr, meets, rfl⟩
    cases ofText?_count.symm.trans meets.hasVerb
    have parsed := (readFilter_eq_parse _ rfl).symm.trans meets.hasFilter
    exact ⟨expr, ⟨meets.version, parsed, meets.names⟩, rfl⟩
  · rintro ⟨expr, takes, rfl⟩
    have hasFilter := (readFilter_eq_parse
      { verb := "count", filter := some filter, version } rfl).trans takes.parsed
    exact ⟨.aggregate .count, expr,
      ⟨ofText?_count, hasFilter, takes.known, limit, nofun, nofun, takes.names⟩, rfl⟩

theorem compile_count (known : Known (version.getD config.defaultVersion))
    (limit : ∃ n ∈ config.defaultLimit.toInt?, 0 ≤ n) :
    ({ verb := "count", version } : Request).compile .flowRecords config =
      .ok (Request.draft (version.getD config.defaultVersion) config.defaultLimit
        (.aggregate .count) [] [] none).text := by
  apply Request.compile_eq_ok.2
  exact ⟨.aggregate .count, none, ⟨ofText?_count, rfl, known, limit, nofun, nofun, nofun⟩, rfl⟩

/-! ## Reports -/

/-- The report on a filter that is taken. -/
def validReport (version : Number) (rendered : String) (fields : List String) : Json :=
  .object [("valid", .bool true), ("version", .number version), ("rendered", .text rendered),
    ("fields", .texts fields)]

theorem exists_indented_validReport (version : Number) :
    ∃ opening, ∀ rendered fields, ∃ closing,
      (validReport version rendered fields).indented 0 =
        opening ++ (Json.quoted rendered ++ closing) := by
  refine ⟨'\x7b' :: Json.newLine 1 ++ Json.quoted "valid" ++ ": true,".toList ++ Json.newLine 1 ++
    Json.quoted "version" ++ ": ".toList ++ Json.numeral version ++ ',' :: Json.newLine 1 ++
    Json.quoted "rendered" ++ ": ".toList, ?_⟩
  intro rendered fields
  refine ⟨',' :: Json.newLine 1 ++ Json.quoted "fields" ++ ": ".toList ++
    (Json.texts fields).indented 1 ++ Json.newLine 0 ++ ['\x7d'], ?_⟩
  simp [validReport, Json.indented, Json.indentedMembers, Json.block, Json.commaSeparated, Json.compact]

theorem rendered_of_page {version : Number} {rendered rendered' : String} {fields fields' : List String}
    (same : (validReport version rendered fields).page = (validReport version rendered' fields').page) :
    rendered = rendered' := by
  rcases exists_indented_validReport version with ⟨opening, splits⟩
  rcases splits rendered fields with ⟨closing, indented_eq⟩
  rcases splits rendered' fields' with ⟨closing', indented'_eq⟩
  have sameText := String.ofList_injective same
  rw [indented_eq, indented'_eq] at sameText
  exact (Json.quoted_cancel (List.append_cancel_left sameText)).1

/-! ## Both tools -/

/-- A filter and a version, as they stand in arguments, that go together, with what they mean. -/
structure Usable (config : Config) (given : Option Json) (value : Json) (version : Number)
    (expr : Option Expr) : Prop where
  isVersion : ∃ chosen, readVersion given = .ok chosen ∧ chosen.getD config.defaultVersion = version
  isFilter : ∃ filter, value = .text filter ∧ Takes version filter expr

theorem call_validateFilter {given : Option Json} {value : Json} {text : String} :
    (⟨.flowRecords, config⟩ : Service).call "validate_filter"
        (some (withVersion given [("filter", value)])) = .ok text ↔
      ∃ version expr, Usable config given value version expr ∧
        (filterReport version expr).page = text := by
  have calls : (⟨.flowRecords, config⟩ : Service).call "validate_filter"
      (some (withVersion given [("filter", value)])) =
        (readFilterRequest (some (withVersion given [("filter", value)]))).mapError .arguments >>=
          validateFilter ⟨.flowRecords, config⟩ := rfl
  rw [calls, bind_eq_ok]
  constructor
  · rintro ⟨request, read, validated⟩
    rcases readFilterRequest_eq_ok.1 (mapError_eq_ok.1 read) with ⟨isText, versionRead⟩
    rcases bind_eq_ok.1 validated with ⟨expr, checked, shown⟩
    cases shown
    exact ⟨_, expr,
      ⟨⟨request.version, versionRead, rfl⟩, request.filter, isText, checkFilter_eq_ok.1 checked⟩, rfl⟩
  · rintro ⟨_, expr, ⟨⟨chosen, versionRead, rfl⟩, filter, isText, takes⟩, rfl⟩
    refine ⟨⟨filter, chosen⟩, mapError_eq_ok.2 (readFilterRequest_eq_ok.2 ⟨isText, versionRead⟩), ?_⟩
    exact bind_eq_ok.2 ⟨expr, checkFilter_eq_ok.2 takes, rfl⟩

theorem call_compileQuery (given : Option Json) (members : List (String × Json)) :
    service.call "compile_query" (some (withVersion given members)) =
      (readRequest (some (withVersion given members))).mapError .arguments >>=
        service.compileQuery := rfl

theorem call_count (limit : ∃ n ∈ config.defaultLimit.toInt?, 0 ≤ n) {given : Option Json} {value : Json}
    {text : String} :
    (⟨.flowRecords, config⟩ : Service).call "compile_query"
        (some (withVersion given [("verb", .text "count"), ("filter", value)])) = .ok text ↔
      ∃ version expr, Usable config given value version expr ∧
        (Request.draft version config.defaultLimit (.aggregate .count) [] [] expr).text = text := by
  rw [call_compileQuery, bind_eq_ok]
  constructor
  · rintro ⟨request, read, compiled⟩
    rcases readRequest_eq_ok.1 (mapError_eq_ok.1 read) with ⟨filter, chosen, isText, versionRead, rfl⟩
    rcases (compile_count_eq_ok limit).1 (mapError_eq_ok.1 compiled) with ⟨expr, takes, rfl⟩
    exact ⟨_, expr, ⟨⟨chosen, versionRead, rfl⟩, filter, isText, takes⟩, rfl⟩
  · rintro ⟨_, expr, ⟨⟨chosen, versionRead, rfl⟩, filter, isText, takes⟩, rfl⟩
    refine ⟨_, mapError_eq_ok.2 (readRequest_eq_ok.2 ⟨filter, chosen, isText, versionRead, rfl⟩), ?_⟩
    exact mapError_eq_ok.2 ((compile_count_eq_ok limit).2 ⟨expr, takes, rfl⟩)

theorem call_count_unfiltered (limit : ∃ n ∈ config.defaultLimit.toInt?, 0 ≤ n) {given : Option Json}
    {chosen : Option Number} (read : readVersion given = .ok chosen)
    (known : Known (chosen.getD config.defaultVersion)) :
    (⟨.flowRecords, config⟩ : Service).call "compile_query"
        (some (withVersion given [("verb", .text "count")])) =
      .ok (Request.draft (chosen.getD config.defaultVersion) config.defaultLimit
        (.aggregate .count) [] [] none).text := by
  have reads : readRequest (some (withVersion given [("verb", .text "count")])) =
      .ok { verb := "count", version := chosen } := by
    have unfiltered := readRequest_withVersion given none
    rwa [read] at unfiltered
  rw [call_compileQuery, bind_eq_ok]
  exact ⟨_, mapError_eq_ok.2 reads, mapError_eq_ok.2 (compile_count known limit)⟩

/-- A filter can be checked for a version exactly if the flows that pass it can be counted. The
report shows the version and how the filter is written, and no other writing has the same report.
The query is the one without a filter, with a stage for what is shown unless that is empty. -/
theorem validateFilter_agrees_compileQuery {config : Config}
    (limit : ∃ n ∈ config.defaultLimit.toInt?, 0 ≤ n) (filter : Json) (version : Option Json) :
    let service : Service := ⟨.flowRecords, config⟩
    let checked := service.reply "validate_filter" (some (withVersion version [("filter", filter)]))
    let counted := service.reply "compile_query"
      (some (withVersion version [("verb", .text "count"), ("filter", filter)]))
    let unfiltered :=
      service.reply "compile_query" (some (withVersion version [("verb", .text "count")]))
    (checked.isError = false ↔ counted.isError = false) ∧
    (checked.isError = false → ∃ shown rendered fields pattern tail,
      checked.text = (validReport shown rendered fields).page ∧
      (∀ rendered' fields', checked.text = (validReport shown rendered' fields').page →
        rendered' = rendered) ∧
      version.getD (.number config.defaultVersion) = .number shown ∧
      Schema.flowRecords.parsePattern shown = .ok pattern ∧
      tail = " | stats count(*) as flows | sort flows desc" ++
        (if config.defaultLimit.isPositive then " | limit " ++ String.ofList config.defaultLimit.text
          else "") ∧
      unfiltered = ⟨pattern ++ tail, false⟩ ∧
      counted =
        ⟨pattern ++ (if rendered = "" then "" else " | filter " ++ rendered) ++ tail, false⟩) := by
  intro service checked counted unfiltered
  have agrees : (checked.isError = false ↔ counted.isError = false) := by
    rw [isError_reply, isError_reply]
    constructor
    · rintro ⟨_, called⟩
      rcases call_validateFilter.1 called with ⟨shown, expr, usable, -⟩
      exact ⟨_, (call_count limit).2 ⟨shown, expr, usable, rfl⟩⟩
    · rintro ⟨_, called⟩
      rcases (call_count limit).1 called with ⟨shown, expr, usable, -⟩
      exact ⟨_, call_validateFilter.2 ⟨shown, expr, usable, rfl⟩⟩
  refine ⟨agrees, ?_⟩
  intro succeeds
  rcases isError_reply.1 succeeds with ⟨text, called⟩
  rcases call_validateFilter.1 called with ⟨shown, expr, usable, rfl⟩
  have counts := (call_count limit).2 ⟨shown, expr, usable, rfl⟩
  rcases usable with ⟨⟨chosen, read, rfl⟩, text, -, takes⟩
  have countsAll := call_count_unfiltered limit read takes.known
  have checked_eq : checked = ⟨_, false⟩ := reply_eq.2 called
  refine ⟨_, Filter.written expr, (expr.map Expr.fields).getD [], _, _, ?_, ?_, ?_,
    parsePattern_eq takes.known, rfl, ?_, ?_⟩
  · rw [checked_eq]
    rfl
  · intro rendered' fields' same
    rw [checked_eq] at same
    exact (rendered_of_page same).symm
  · rw [readVersion_eq_ok read]
    cases chosen <;> rfl
  · rw [Query.text_eq, Request.tail_count] at countsAll
    exact reply_eq.2 countsAll
  · rw [Query.text_eq, Request.tail_draft _ _ _ _ _ takes.populated, Request.tail_count,
      ← String.append_assoc] at counts
    exact reply_eq.2 counts

/-- A filter with a negation and a computed field, for a version other than the default. -/
theorem validateFilter_agrees_compileQuery_negated :
    let service : Service := ⟨.flowRecords, ⟨20, 2⟩⟩
    let filter : Json := .text "srcaddr != 10.0.0.0/8 and duration > 60"
    let checked := service.reply "validate_filter"
      (some (withVersion (some (.number 5)) [("filter", filter)]))
    let counted := service.reply "compile_query"
      (some (withVersion (some (.number 5)) [("verb", .text "count"), ("filter", filter)]))
    (∃ n ∈ service.config.defaultLimit.toInt?, 0 ≤ n) ∧
    checked = ⟨(validReport 5 "not isIpv4InSubnet(srcaddr, '10.0.0.0/8') and (end - start) > 60"
      ["srcaddr", "duration"]).page, false⟩ ∧
    ∃ pattern, Schema.flowRecords.parsePattern 5 = .ok pattern ∧
      counted = ⟨pattern ++
        " | filter not isIpv4InSubnet(srcaddr, '10.0.0.0/8') and (end - start) > 60" ++
        " | stats count(*) as flows | sort flows desc | limit 20", false⟩ := by
  intro service filter checked counted
  have limit : ∃ n ∈ service.config.defaultLimit.toInt?, 0 ≤ n := by decide
  have parsed : Filter.parse (.ofSchema .flowRecords .flowRecords)
      "srcaddr != 10.0.0.0/8 and duration > 60" =
      .ok (some (.node .and [.not (.leaf (.inSubnet "srcaddr" "10.0.0.0/8")),
        .leaf (.compare .gt "end - start" (.number 60) (some "duration"))])) := by
    rw [Filter.parse, if_neg (by decide), Filter.readExpr, Outline.ofText_eq]
    rfl
  have usable : Usable service.config (some (.number 5)) filter 5 _ :=
    ⟨⟨some 5, rfl, rfl⟩, _, rfl, by decide, parsed, by decide⟩
  have checked_eq := reply_eq.2 (call_validateFilter.2 ⟨5, _, usable, rfl⟩)
  rcases (validateFilter_agrees_compileQuery limit filter (some (.number 5))).2 (by rw [checked_eq]) with
    ⟨shown, rendered, fields, pattern, tail, -, unique, isShown, patterned, tail_eq, -, counted_eq⟩
  cases isShown
  cases unique _ _ (congrArg Reply.text checked_eq)
  cases tail_eq
  exact ⟨limit, checked_eq, pattern, patterned, counted_eq⟩

end Service

end FlowLog
