import FlowLog.Filter.Parse
import FlowLog.Proofs.Expr
import FlowLog.Proofs.Fallible

/-!
# What filters mean

A filter text is outlined before its clauses are read, so what it means is built in two ways only. A
clause means a single condition, which is a leaf or the negation of a subnet condition. A connective
joins what two or more parts mean, because a part that stands alone is not wrapped.
`Filter.parse_induction` is the induction over these two ways.
-/

namespace FlowLog

/-! ## Clauses -/

/-- What a single clause can mean. -/
inductive Expr.IsCondition : Expr → Prop
  | leaf (condition : Leaf) : IsCondition (.leaf condition)
  | outside (field block : String) : IsCondition (.not (.leaf (.inSubnet field block)))

namespace Expr.IsCondition

variable {expr : Expr}

theorem withSource (isCondition : expr.IsCondition) (source : String) :
    (expr.withSource source).IsCondition := by
  cases isCondition with
  | leaf condition => exact .leaf (condition.withSource source)
  | outside field block => exact .outside field block

theorem populated (isCondition : expr.IsCondition) : expr.Populated := by
  cases isCondition with
  | leaf condition => exact .leaf condition
  | outside field block => exact .not (.leaf _)

end Expr.IsCondition

namespace FieldClass

variable {field value : String} {operator : Operator} {expr : Expr}

theorem isCondition_of_addressCondition (accepted : addressCondition field operator value = .ok expr) :
    expr.IsCondition := by
  rw [addressCondition] at accepted
  split at accepted
  · split at accepted
    · cases accepted
      cases operator.isNegated with
      | false => exact .leaf _
      | true => exact .outside _ _
    · cases accepted
  · split at accepted
    · cases accepted
      exact .leaf _
    · split at accepted
      · cases accepted
        exact .leaf _
      · cases accepted

theorem isCondition_of_map {attempt : Except Filter.Error Leaf}
    (accepted : attempt.map Expr.leaf = .ok expr) : expr.IsCondition := by
  rcases Fallible.map_eq_ok.1 accepted with ⟨condition, -, rfl⟩
  exact .leaf condition

theorem isCondition_of_condition {fieldClass : FieldClass}
    (accepted : fieldClass.condition field operator value = .ok expr) : expr.IsCondition := by
  cases fieldClass with
  | address => exact isCondition_of_addressCondition accepted
  | port =>
      cases accepted
      exact .leaf _
  | protocol =>
      cases accepted
      exact .leaf _
  | numeric => exact isCondition_of_map accepted
  | text => exact isCondition_of_map accepted

end FieldClass

namespace Filter

variable {vocabulary : Vocabulary} {text : List Char} {expr : Expr}

/-- The ways in which a located clause is read: a computed field without a class, a computed field
with one, and a field that is not computed. -/
theorem readParts_cases {clause : Clause} (accepted : readParts vocabulary text clause = .ok expr) :
    (∃ computation, vocabulary.registry.get? clause.field = none ∧
      vocabulary.computed clause.field = some computation ∧
      expr = .leaf ((comparison computation clause.operator clause.value).withSource clause.field)) ∨
    ∃ fieldClass, vocabulary.registry.resolve clause.field = fieldClass ∧
      clause.operator ∈ fieldClass.operators ∧ fieldClass.checkValue clause.value = .ok () ∧
      ((∃ computation condition, vocabulary.computed clause.field = some computation ∧
          fieldClass.condition computation clause.operator clause.value = .ok condition ∧
          expr = condition.withSource clause.field) ∨
        vocabulary.computed clause.field = none ∧
          fieldClass.condition clause.field clause.operator clause.value = .ok expr) := by
  rw [readParts] at accepted
  split at accepted
  · next computation unregistered computed =>
      cases accepted
      exact Or.inl ⟨computation, unregistered, computed, rfl⟩
  · dsimp only at accepted
    split at accepted
    · cases accepted
    · next takes =>
        rcases Fallible.bind_eq_ok.1 accepted with ⟨⟨⟩, checks, read⟩
        refine Or.inr ⟨_, rfl, Decidable.not_not.1 takes, checks, ?_⟩
        split at read
        · next computation computed =>
            rcases Fallible.bind_eq_ok.1 read with ⟨condition, isCondition, sourced⟩
            cases sourced
            exact Or.inl ⟨computation, condition, computed, isCondition, rfl⟩
        · next notComputed => exact Or.inr ⟨notComputed, read⟩

theorem isCondition_of_readParts {clause : Clause}
    (accepted : readParts vocabulary text clause = .ok expr) : expr.IsCondition := by
  rcases readParts_cases accepted with ⟨computation, -, -, rfl⟩ |
    ⟨fieldClass, -, -, -, ⟨computation, condition, -, isCondition, rfl⟩ | ⟨-, isCondition⟩⟩
  · exact .leaf _
  · exact (FieldClass.isCondition_of_condition isCondition).withSource clause.field
  · exact FieldClass.isCondition_of_condition isCondition

theorem readClause_cases (accepted : readClause vocabulary text = .ok expr) :
    ∃ clause, Clause.ofText? text = some clause ∧ clause.field ≠ "" ∧
      readParts vocabulary text clause = .ok expr := by
  rw [readClause] at accepted
  split at accepted
  · cases accepted
  · next clause located =>
      split at accepted
      · cases accepted
      · next named => exact ⟨clause, located, named, accepted⟩

theorem isCondition_of_readClause (accepted : readClause vocabulary text = .ok expr) :
    expr.IsCondition := by
  rcases readClause_cases accepted with ⟨clause, -, -, read⟩
  exact isCondition_of_readParts read

end Filter

/-! ## Connectives -/

namespace Outline

/-- Outlines in which every connective joins two parts or more. -/
inductive Branching : Outline → Prop
  | clause (text : List Char) : Branching (.clause text)
  | emptyGroup (text : List Char) : Branching (.emptyGroup text)
  | node {connective : Connective} {parts : List Outline} (several : 2 ≤ parts.length)
      (each : ∀ part ∈ parts, Branching part) : Branching (.node connective parts)

theorem branching_combine (connective : Connective) {parts : List Outline} (nonempty : parts ≠ [])
    (each : ∀ part ∈ parts, part.Branching) : (combine connective parts).Branching := by
  match parts with
  | [] => exact absurd rfl nonempty
  | [single] => exact each single List.mem_cons_self
  | first :: second :: rest => exact .node (by simp) each

theorem branching_combine_split (connective : Connective) (text : List Char)
    {outline : List Char → Outline} (each : ∀ part ∈ split connective text, (outline part).Branching) :
    (combine connective ((split connective text).map outline)).Branching := by
  apply branching_combine
  · simpa using split_ne_nil connective text
  · intro part isPart
    rcases List.mem_map.1 isPart with ⟨operand, isOperand, rfl⟩
    exact each operand isOperand

theorem branching_ofText (text : List Char) : (ofText text).Branching := by
  induction text using ofText.induct with
  | case1 text ih =>
      rw [ofText_eq]
      apply branching_combine_split
      intro part isPart
      apply branching_combine_split
      intro operand isOperand
      rw [ofOperand]
      split
      · exact .clause operand
      · next inner grouped =>
          split
          · exact .emptyGroup operand
          · exact ih part isPart operand isOperand inner grouped

variable {read : List Char → Except Filter.Error Expr}

theorem parts_of_toExprs {parts : List Outline} {children : List Expr}
    (accepted : toExprs read parts = .ok children) :
    children.length = parts.length ∧
      ∀ child ∈ children, ∃ part ∈ parts, toExpr read part = .ok child := by
  induction parts generalizing children with
  | nil =>
      cases accepted
      simp
  | cons part rest ih =>
      rw [toExprs] at accepted
      rcases Fallible.bind_eq_ok.1 accepted with ⟨first, firstRead, later⟩
      rcases Fallible.bind_eq_ok.1 later with ⟨others, othersRead, listed⟩
      cases listed
      rcases ih othersRead with ⟨sameLength, each⟩
      refine ⟨by simp [sameLength], ?_⟩
      intro child isChild
      rcases List.mem_cons.1 isChild with rfl | isOther
      · exact ⟨part, List.mem_cons_self, firstRead⟩
      · rcases each child isOther with ⟨other, isPart, otherRead⟩
        exact ⟨other, List.mem_cons_of_mem part isPart, otherRead⟩

/-- What holds of the meaning of every clause, and of a connective as soon as it holds of its two or
more operands, holds of the meaning of an outline. -/
theorem Branching.toExpr_induction {motive : Expr → Prop}
    (clause : ∀ {text expr}, read text = .ok expr → motive expr)
    (node : ∀ {connective children}, 2 ≤ children.length → (∀ child ∈ children, motive child) →
      motive (.node connective children))
    {outline : Outline} (branching : outline.Branching) {expr : Expr}
    (accepted : toExpr read outline = .ok expr) : motive expr := by
  induction branching generalizing expr with
  | clause text => exact clause accepted
  | emptyGroup text => cases accepted
  | node several _ ih =>
      rw [toExpr] at accepted
      rcases Fallible.bind_eq_ok.1 accepted with ⟨children, childrenRead, joined⟩
      cases joined
      rcases parts_of_toExprs childrenRead with ⟨sameLength, each⟩
      apply node
      · rwa [sameLength]
      · intro child isChild
        rcases each child isChild with ⟨part, isPart, partRead⟩
        exact ih part isPart partRead

end Outline

namespace Filter

variable {vocabulary : Vocabulary} {text : String} {expr : Expr}

theorem parse_induction {motive : Expr → Prop}
    (clause : ∀ {text expr}, readClause vocabulary text = .ok expr → motive expr)
    (node : ∀ {connective children}, 2 ≤ children.length → (∀ child ∈ children, motive child) →
      motive (.node connective children))
    (parsed : parse vocabulary text = .ok (some expr)) : motive expr := by
  rw [parse] at parsed
  split at parsed
  · cases parsed
  · rcases Fallible.map_eq_ok.1 parsed with ⟨read, accepted, isRead⟩
    cases isRead
    exact (Outline.branching_ofText _).toExpr_induction clause node accepted

theorem populated_of_parse (parsed : parse vocabulary text = .ok (some expr)) : expr.Populated := by
  apply parse_induction _ _ parsed
  · intro clause condition accepted
    exact (isCondition_of_readClause accepted).populated
  · intro connective children several each
    apply Expr.Populated.node _ each
    rintro rfl
    simp at several

end Filter

end FlowLog
