import FlowLog.Proofs.FlowRecords
import FlowLog.Proofs.Typing

/-!
# Computed fields in filters

A filter is read with or without a schema, and a schema knows fields that stand for computations.
Where all of these belong to the numeric class, the schema has no say in what is accepted: the
operators and the value are checked by the class in both cases, and the computation takes the place
of the name only in the condition that is made of them.

`Filter.parse_expand` says this of whole texts. What is read with the schema is what is read without
it, with `Expr.expand` applied to what it means, and `Error.expand` to its error. The latter shows
no more than a number at fault under the computation in place of the field.
-/

namespace FlowLog

/-- A comparison of a computed field as one of its computation, with the field as its source. -/
def Leaf.expand (computed : String → Option String) : Leaf → Leaf
  | .compare comparison field value source =>
      match computed field with
      | some computation => .compare comparison computation value (some field)
      | none => .compare comparison field value source
  | condition => condition

namespace Expr

mutual

/-- Expands the computed fields in all comparisons of an expression. -/
def expand (computed : String → Option String) : Expr → Expr
  | .leaf condition => .leaf (condition.expand computed)
  | .node connective children => .node connective (expandAll computed children)
  | .not child => .not (expand computed child)

/-- Expands the computed fields in some expressions. -/
def expandAll (computed : String → Option String) : List Expr → List Expr
  | [] => []
  | child :: rest => expand computed child :: expandAll computed rest

end

end Expr

/-- The error about the expanded condition. -/
def Filter.Error.expand (computed : String → Option String) : Filter.Error → Filter.Error
  | .badNumber field value => .badNumber ((computed field).getD field) value
  | error => error

variable {computed : String → Option String}

/-! ## Expressions and errors -/

theorem Leaf.expand_compare_of_some {field computation : String}
    (isComputed : computed field = some computation) (comparison : Comparison) (value : Literal)
    (source : Option String) :
    (Leaf.compare comparison field value source).expand computed =
      .compare comparison computation value (some field) := by
  simp [Leaf.expand, isComputed]

theorem Leaf.expand_of_none {condition : Leaf} (notComputed : computed condition.field = none) :
    condition.expand computed = condition := by
  cases condition with
  | compare comparison field value source =>
      have plain : computed field = none := notComputed
      simp [Leaf.expand, plain]
  | like negated field pattern source => rfl
  | inSubnet field block => rfl

theorem Leaf.name_expand {condition : Leaf} (unsourced : condition.name = condition.field) :
    (condition.expand computed).name = condition.name := by
  cases condition with
  | compare comparison field value source =>
      cases isComputed : computed field with
      | none => rw [expand_of_none isComputed]
      | some computation =>
          rw [expand_compare_of_some isComputed, unsourced]
          rfl
  | like negated field pattern source => rfl
  | inSubnet field block => rfl

namespace Expr

theorem expandAll_eq_map (children : List Expr) :
    expandAll computed children = children.map (expand computed) := by
  induction children with
  | nil => rfl
  | cons child rest ih => rw [expandAll, ih, List.map_cons]

theorem leaves_expand (expr : Expr) :
    (expr.expand computed).leaves = expr.leaves.map (Leaf.expand computed) := by
  apply leaves_map
  · intro condition
    rw [expand]
  · intro connective children
    rw [expand, expandAll_eq_map]
  · intro child
    rw [expand]

/-- An expression without sources refers to the same fields when it is expanded. -/
theorem fields_expand {expr : Expr}
    (unsourced : ∀ condition ∈ expr.leaves, condition.name = condition.field) :
    (expr.expand computed).fields = expr.fields := by
  rw [fields, fields, leaves_expand, List.map_map]
  apply List.map_congr_left
  intro condition isLeaf
  exact Leaf.name_expand (unsourced condition isLeaf)

end Expr

namespace Filter.Error

theorem stage_expand (error : Filter.Error) : (error.expand computed).stage = error.stage := by
  cases error <;> rfl

theorem snippet?_expand (error : Filter.Error) : (error.expand computed).snippet? = error.snippet? := by
  cases error <;> rfl

end Filter.Error

/-- What is read without a schema, expanded. -/
def Filter.expanded (computed : String → Option String) :
    Except Filter.Error Expr → Except Filter.Error Expr
  | .ok expr => .ok (expr.expand computed)
  | .error error => .error (error.expand computed)

/-! ## Clauses -/

namespace Filter

theorem expanded_leaf_of_none {condition : Leaf} (notComputed : computed condition.field = none) :
    expanded computed (.ok (.leaf condition)) = .ok (.leaf condition) := by
  rw [expanded, Expr.expand, Leaf.expand_of_none notComputed]

theorem expanded_comparison_of_none {field : String} (notComputed : computed field = none)
    (operator : Operator) (value : String) :
    expanded computed (.ok (.leaf (comparison field operator value))) =
      .ok (.leaf (comparison field operator value)) := by
  apply expanded_leaf_of_none
  cases operator <;> exact notComputed

/-- The conditions on a field that is not computed stay as they are. -/
theorem expanded_condition_of_none {field : String} (notComputed : computed field = none)
    (fieldClass : FieldClass) (operator : Operator) (value : String) :
    expanded computed (fieldClass.condition field operator value) =
      fieldClass.condition field operator value := by
  cases fieldClass with
  | address =>
      rw [FieldClass.condition, FieldClass.addressCondition]
      split
      · split
        · cases operator.isNegated <;> rfl
        · rfl
      · split
        · exact expanded_leaf_of_none notComputed
        · split
          · rfl
          · rfl
  | port => exact expanded_comparison_of_none notComputed operator value
  | protocol =>
      rw [FieldClass.condition, FieldClass.protocolCondition]
      split
      · exact expanded_comparison_of_none notComputed operator value
      · split
        · exact expanded_comparison_of_none notComputed operator _
        · exact expanded_comparison_of_none notComputed operator value
  | numeric =>
      rw [FieldClass.condition, FieldClass.numericCondition]
      split
      · exact expanded_comparison_of_none notComputed operator value
      · change Except.error (Error.badNumber ((computed field).getD field) value) = _
        rw [notComputed]
        rfl
  | text =>
      unfold FieldClass.condition FieldClass.textCondition
      dsimp only
      split
      · exact expanded_leaf_of_none notComputed
      · exact expanded_leaf_of_none notComputed
      · rfl
      · rfl
      · rfl

/-- A condition on a computed field of the numeric class is the condition on its computation. -/
theorem expanded_numericCondition {field computation : String}
    (isComputed : computed field = some computation) {operator : Operator}
    (takes : operator ∈ Operator.ordered) (value : String) :
    expanded computed (FieldClass.condition .numeric field operator value) = (do
      let condition ← FieldClass.condition .numeric computation operator value
      return condition.withSource field) := by
  rcases Operator.exists_comparison takes with ⟨comparison, rfl⟩
  rw [FieldClass.condition, FieldClass.numericCondition, FieldClass.condition,
    FieldClass.numericCondition]
  split
  · change Except.ok (Expr.leaf
      ((Leaf.compare comparison field (.ofText value) none).expand computed)) = _
    rw [Leaf.expand_compare_of_some isComputed]
    rfl
  · change Except.error (Error.badNumber ((computed field).getD field) value) = _
    rw [isComputed]
    rfl

theorem expand_of_checkValue {fieldClass : FieldClass} {value : String} {error : Error}
    (refused : fieldClass.checkValue value = .error error) : error.expand computed = error := by
  cases fieldClass with
  | port =>
      rw [FieldClass.checkValue, FieldClass.checkPort] at refused
      split at refused
      · cases refused
        rfl
      · split at refused
        · cases refused
        · cases refused
          rfl
  | _ => cases refused

section Reading

variable {registry : Registry}

theorem expanded_readParts_of_none {clause : Clause} (notComputed : computed clause.field = none)
    (text : List Char) :
    expanded computed (readParts { registry } text clause) = readParts { registry } text clause := by
  rw [readParts]
  split
  · contradiction
  · dsimp only
    split
    · rfl
    · cases checked : (registry.resolve clause.field).checkValue clause.value with
      | error error =>
          change expanded computed (.error error) = .error error
          rw [expanded, expand_of_checkValue checked]
      | ok =>
          exact expanded_condition_of_none notComputed (registry.resolve clause.field) clause.operator
            clause.value

variable
  (numeric : ∀ {field computation}, computed field = some computation →
    registry.get? field = some .numeric)

include numeric

theorem readParts_expand (text : List Char) (clause : Clause) :
    readParts { registry, computed } text clause =
      expanded computed (readParts { registry } text clause) := by
  cases isComputed : computed clause.field with
  | none =>
      rw [expanded_readParts_of_none isComputed]
      simp only [readParts, isComputed]
  | some computation =>
      have registered := numeric isComputed
      have resolved : registry.resolve clause.field = .numeric := by
        rw [Registry.resolve, registered]
        rfl
      simp only [readParts, isComputed, registered, resolved]
      by_cases takes : clause.operator ∈ FieldClass.operators .numeric
      · rw [if_neg (not_not.2 takes), if_neg (not_not.2 takes)]
        exact (expanded_numericCondition isComputed takes clause.value).symm
      · rw [if_pos takes, if_pos takes]
        rfl

theorem readClause_expand (text : List Char) :
    readClause { registry, computed } text = expanded computed (readClause { registry } text) := by
  rw [readClause, readClause]
  split
  · rfl
  · split
    · rfl
    · exact readParts_expand numeric text _

end Reading

end Filter

/-! ## Whole filters -/

namespace Outline

variable {plain expanding : List Char → Except Filter.Error Expr}

mutual

theorem toExpr_expand (agree : ∀ text, expanding text = Filter.expanded computed (plain text)) :
    ∀ outline : Outline, outline.toExpr expanding = Filter.expanded computed (outline.toExpr plain)
  | .clause text => agree text
  | .emptyGroup _ => rfl
  | .node connective parts => by
      rw [toExpr, toExpr, toExprs_expand agree parts]
      cases toExprs plain parts with
      | error error => rfl
      | ok children =>
          change Except.ok (Expr.node connective _) =
            Except.ok ((Expr.node connective children).expand computed)
          rw [Expr.expand, Expr.expandAll_eq_map]

theorem toExprs_expand (agree : ∀ text, expanding text = Filter.expanded computed (plain text)) :
    ∀ parts : List Outline, toExprs expanding parts =
      ((toExprs plain parts).map (List.map (Expr.expand computed))).mapError
        (Filter.Error.expand computed)
  | [] => rfl
  | part :: rest => by
      rw [toExprs, toExprs, toExpr_expand agree part, toExprs_expand agree rest]
      cases part.toExpr plain with
      | error error => rfl
      | ok child => cases toExprs plain rest <;> rfl

end

end Outline

namespace Filter

theorem parse_expand {registry : Registry}
    (numeric : ∀ {field computation}, computed field = some computation →
      registry.get? field = some .numeric) (text : String) :
    parse { registry, computed } text =
      ((parse { registry } text).map (Option.map (Expr.expand computed))).mapError
        (Error.expand computed) := by
  rw [parse, parse]
  split
  · rfl
  · rw [readExpr, readExpr, Outline.toExpr_expand (readClause_expand numeric)]
    cases (Outline.ofText (Text.trim text.toList)).toExpr (readClause { registry }) <;> rfl

theorem unsourced_of_parse {registry : Registry} {text : String} {expr : Expr}
    (parsed : parse { registry } text = .ok (some expr)) :
    ∀ condition ∈ expr.leaves, condition.name = condition.field := by
  apply parse_induction _ _ parsed
  · intro clause expr accepted condition isLeaf
    exact (wellTyped_of_readClause accepted condition isLeaf).admitted.unsourced
  · intro connective children _ each condition isLeaf
    rw [Expr.leaves_node, List.mem_flatMap] at isLeaf
    rcases isLeaf with ⟨child, isChild, inChild⟩
    exact each child isChild condition inChild

theorem numeric_of_computed {field computation : String}
    (isComputed : Schema.flowRecords.computed field = some computation) :
    Registry.flowRecords.get? field = some .numeric := by
  have isDuration : field = "duration" :=
    (Schema.FlowRecords.isSome_computed field).1 (Option.isSome_of_mem isComputed)
  rw [isDuration]
  rfl

/-- With the schema of flow log records a text means what it means without it, with the duration
expanded. It is blank or at fault in both cases or in none, and a fault shows in the same piece of
the text. -/
theorem parse_ofSchema (text : String) :
    (∀ expr, parse {} text = .ok (some expr) →
      parse (.ofSchema .flowRecords .flowRecords) text =
        .ok (some (expr.expand Schema.flowRecords.computed)) ∧
      (expr.expand Schema.flowRecords.computed).fields = expr.fields) ∧
    (parse {} text = .ok none → parse (.ofSchema .flowRecords .flowRecords) text = .ok none) ∧
    ∀ error, parse {} text = .error error →
      ∃ other, parse (.ofSchema .flowRecords .flowRecords) text = .error other ∧
        other.stage = error.stage ∧ other.snippet? = error.snippet? := by
  have expands : parse (.ofSchema .flowRecords .flowRecords) text =
      ((parse {} text).map (Option.map (Expr.expand Schema.flowRecords.computed))).mapError
        (Error.expand Schema.flowRecords.computed) :=
    parse_expand numeric_of_computed text
  refine ⟨?_, ?_, ?_⟩
  · intro expr parsed
    rw [expands, parsed]
    exact ⟨rfl, Expr.fields_expand (unsourced_of_parse parsed)⟩
  · intro isBlank
    rw [expands, isBlank]
    rfl
  · intro error refused
    rw [expands, refused]
    exact ⟨_, rfl, error.stage_expand, error.snippet?_expand⟩

/-- The duration beside its computation written out, a blank text, and a duration that is no
number. -/
theorem parse_ofSchema_duration :
    let vocabulary : Vocabulary := .ofSchema .flowRecords .flowRecords
    let expr : Expr := .node .and
      [.leaf (.compare .gt "duration" (.number 60) none),
        .leaf (.compare .eq "end - start" (.text "9") none)]
    parse {} "duration > 60 and end - start = 9" = .ok (some expr) ∧
      parse vocabulary "duration > 60 and end - start = 9" = .ok (some (.node .and
        [.leaf (.compare .gt "end - start" (.number 60) (some "duration")),
          .leaf (.compare .eq "end - start" (.text "9") none)])) ∧
      parse {} " " = .ok none ∧ parse vocabulary " " = .ok none ∧
      parse {} "duration < x" = .error (.badNumber "duration" "x") ∧
      ∃ other, parse vocabulary "duration < x" = .error other ∧ other.stage = .parser ∧
        other.snippet? = some "x" := by
  intro vocabulary expr
  have parsed : parse {} "duration > 60 and end - start = 9" = .ok (some expr) := by
    rw [parse, if_neg (by decide), readExpr, Outline.ofText_eq]
    rfl
  have isBlank : parse {} " " = .ok none := by
    rw [parse, if_pos (by decide)]
  have refused : parse {} "duration < x" = .error (.badNumber "duration" "x") := by
    rw [parse, if_neg (by decide), readExpr, Outline.ofText_eq]
    rfl
  exact ⟨parsed, ((parse_ofSchema _).1 expr parsed).1, isBlank, (parse_ofSchema _).2.1 isBlank, refused,
    (parse_ofSchema _).2.2 _ refused⟩

end Filter

end FlowLog
