import FlowLog.Proofs.FlowRecords
import FlowLog.Proofs.Meaning
import FlowLog.Proofs.Parse
import FlowLog.Proofs.Query

/-!
# The filter stage of a query

The filters of a query are written as one `and`. Each of them was read from a text, and in what is
read from a text a negation stands only in front of a subnet condition. So negations cover all that
they stand in front of, and the stage is read as the conjunction of the filters.
-/

namespace FlowLog

namespace Expr

theorem IsCondition.covered {expr : Expr} (isCondition : expr.IsCondition) :
    expr.covered false = true := by
  cases isCondition <;> rfl

theorem covered_node (connective : Connective) {children : List Expr}
    (each : ∀ child ∈ children, child.covered false = true) :
    (Expr.node connective children).covered false = true := by
  cases connective with
  | and =>
      by_cases single : ∃ child, children = [child]
      · rcases single with ⟨child, rfl⟩
        rw [covered]
        exact each child List.mem_cons_self
      · rw [covered_and_of_ne_single false fun child isSingle => single ⟨child, isSingle⟩]
        exact List.all_eq_true.2 each
  | or =>
      rw [covered_or]
      exact List.all_eq_true.2 each

end Expr

theorem Filter.covered_of_parse {vocabulary : Vocabulary} {text : String} {expr : Expr}
    (parsed : parse vocabulary text = .ok (some expr)) : expr.covered false = true := by
  apply parse_induction _ _ parsed
  · intro clause condition accepted
    exact (isCondition_of_readClause accepted).covered
  · intro connective children _ each
    exact Expr.covered_node connective each

theorem Filter.covered_of_parses {vocabulary : Vocabulary} {texts : List String} {exprs : List Expr}
    (parsed : List.Forall₂ (fun text expr => parse vocabulary text = .ok (some expr)) texts exprs) :
    ∀ expr ∈ exprs, expr.covered false = true := by
  induction parsed with
  | nil => simp
  | cons firstParsed _ ih => exact List.forall_mem_cons.2 ⟨covered_of_parse firstParsed, ih⟩

namespace Query

theorem parsePattern_of_checkVersion {version : Number}
    (accepted : Schema.flowRecords.checkVersion version = .ok ()) :
    ∃ pattern, Schema.flowRecords.parsePattern version = .ok pattern := by
  have known := Schema.FlowRecords.checkVersion_eq_ok.1 accepted
  exact ⟨_, Schema.FlowRecords.parsePattern_eq known⟩

/-- The filter stage of a query made with filters that were read from texts has exactly one reading,
and it is the conjunction of the filters. -/
theorem render_filters {registry : Registry} {texts : List String} {exprs : List Expr}
    {settings : List Setting} {query : Query}
    (parsed : List.Forall₂ (fun text expr =>
      Filter.parse (.ofSchema .flowRecords registry) text = .ok (some expr)) texts exprs)
    (nonempty : exprs ≠ []) (added : settings.filterMap Setting.filter? = exprs)
    (built : build .flowRecords settings = .ok query) :
    ∃ (pattern : String) (reading : Phrase (.joined .or)),
      Schema.flowRecords.parsePattern query.version = .ok pattern ∧
      query.render .flowRecords = .ok (" | ".intercalate (pattern :: ("filter " ++ reading.text) ::
        (query.columnStages .flowRecords ++ query.limitStage))) ∧
      (∀ other : Phrase (.joined .or), other.tokens = reading.tokens → other = reading) ∧
      ∀ assignment, reading.value assignment = exprs.all (Expr.value assignment) := by
  have made := made_of_build rfl built
  rw [added] at made
  have covered := Filter.covered_of_parses parsed
  have populated : (Expr.node .and exprs).Populated := by
    refine .node nonempty ?_
    intro expr isFilter
    rcases made.checked expr isFilter with ⟨version, checked⟩
    exact Filter.populated_of_check checked
  rcases parsePattern_of_checkVersion made.version_ok with ⟨pattern, patterned⟩
  rcases populated.exists_reading with ⟨reading, tokens_eq, value_eq⟩
  refine ⟨pattern, reading, patterned, ?_, ?_, ?_⟩
  · have stage : query.filterStage = ["filter " ++ reading.text] := by
      rw [filterStage, made.filters_eq, if_neg (by simpa using nonempty), Expr.text_eq_render tokens_eq]
    rw [render, patterned, stages, stage]
    rfl
  · intro other sameTokens
    exact Phrase.eq_of_tokens sameTokens
  · intro assignment
    rw [value_eq, Expr.valueRead_of_covered (Expr.covered_node .and covered), Bool.false_xor,
      Expr.value_and]

/-- An `or` and an `and` with a negation in it, in two filters with other settings between them. -/
theorem render_filters_two :
    let disjunction : Expr := .node .or
      [.leaf (.compare .eq "action" (.text "REJECT") none),
        .leaf (.compare .lt "dstport" (.number 1024) none)]
    let conjunction : Expr := .node .and
      [.not (.leaf (.inSubnet "srcaddr" "10.0.0.0/8")),
        .leaf (.compare .gt "end - start" (.number 60) (some "duration"))]
    let vocabulary : Filter.Vocabulary := .ofSchema .flowRecords .flowRecords
    Filter.parse vocabulary "action = REJECT or dstport < 1024" = .ok (some disjunction) ∧
    Filter.parse vocabulary "srcaddr != 10.0.0.0/8 and duration > 60" = .ok (some conjunction) ∧
    ∃ query, build .flowRecords [.filter (some disjunction), .version 5, .limit 10,
        .filter none, .filter (some conjunction)] = .ok query ∧
      ∃ (pattern : String) (reading : Phrase (.joined .or)),
        query.render .flowRecords = .ok (" | ".intercalate (pattern :: ("filter " ++ reading.text) ::
          (query.columnStages .flowRecords ++ query.limitStage))) ∧
        ∀ assignment, reading.value assignment =
          [disjunction, conjunction].all (Expr.value assignment) := by
  intro disjunction conjunction vocabulary
  have disjunctionParsed :
      Filter.parse vocabulary "action = REJECT or dstport < 1024" = .ok (some disjunction) := by
    rw [Filter.parse, if_neg (by decide), Filter.readExpr, Outline.ofText_eq]
    rfl
  have conjunctionParsed :
      Filter.parse vocabulary "srcaddr != 10.0.0.0/8 and duration > 60" = .ok (some conjunction) := by
    rw [Filter.parse, if_neg (by decide), Filter.readExpr, Outline.ofText_eq]
    rfl
  obtain ⟨query, built⟩ : ∃ query, build .flowRecords [.filter (some disjunction), .version 5,
      .limit 10, .filter none, .filter (some conjunction)] = .ok query := ⟨_, rfl⟩
  rcases render_filters
    (.cons disjunctionParsed (.cons conjunctionParsed .nil)) (List.cons_ne_nil _ _) rfl built with
    ⟨pattern, reading, -, rendered, -, means⟩
  exact ⟨disjunctionParsed, conjunctionParsed, query, built, pattern, reading, rendered, means⟩

end Query

end FlowLog
