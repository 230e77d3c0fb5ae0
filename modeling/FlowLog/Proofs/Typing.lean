import FlowLog.Proofs.Numeral
import FlowLog.Proofs.Parse
import FlowLog.Proofs.Text

/-!
# Filters respect the classes of their fields

A class of fields takes some operators and some values, and it may check the text of a value before
a condition is made of it. `FieldClass.Admits` lists the conditions that are left: it speaks of
literals, where the checks speak of texts. `Filter.parse_wellTyped` says that a filter text never
means anything else. In what it means every connective has two operands or more, negations stand in
front of subnet conditions only, and every leaf is a condition that the class of its field admits.
-/

namespace FlowLog

namespace Address

/-- One to four groups of one to three digits with dots between them, each of which denotes at most
255. -/
def DottedPrefix (text : List Char) : Prop :=
  ∃ groups : List (List Char), ['.'].intercalate groups = text ∧ 1 ≤ groups.length ∧
    groups.length ≤ 4 ∧ ∀ group ∈ groups, 1 ≤ group.length ∧ group.length ≤ 3 ∧
      (∀ c ∈ group, c.isDigit = true) ∧ Numeral.value group ≤ 255

/-- A full address, a slash, and a number without leading zeros that is at most the number of bits
of the address. -/
def Block (text : List Char) : Prop :=
  ∃ address length family, text = address ++ '/' :: length ∧ family? address = some family ∧
    isPlainNumber length = true ∧ Numeral.value length ≤ family.bits

theorem dottedPrefix_of_isDottedPrefix {text : List Char} (accepted : isDottedPrefix text = true) :
    DottedPrefix text := by
  simp only [isDottedPrefix, Bool.and_eq_true, decide_eq_true_eq, List.all_eq_true] at accepted
  rcases accepted with ⟨few, parts⟩
  refine ⟨text.splitOn '.', List.intercalate_splitOn '.', ?_, few, ?_⟩
  · exact List.length_pos_of_ne_nil (List.splitOn_ne_nil '.' text)
  · intro group isGroup
    have part := parts group isGroup
    simp only [isPrefixPart, Numeral.isDigits, Bool.and_eq_true, Bool.not_eq_true',
      List.isEmpty_eq_false_iff, decide_eq_true_eq, List.all_eq_true] at part
    rcases part with ⟨⟨⟨nonempty, digits⟩, short⟩, bounded⟩
    exact ⟨List.length_pos_of_ne_nil nonempty, short, digits, bounded⟩

theorem block_of_isBlock {text : List Char} (accepted : isBlock text = true) : Block text := by
  rw [isBlock] at accepted
  split at accepted
  · cases accepted
  · next address length cut =>
      split at accepted
      · cases accepted
      · next family known =>
          simp only [isPrefixLength, Bool.and_eq_true, decide_eq_true_eq] at accepted
          rcases accepted with ⟨⟨plain, -⟩, bounded⟩
          exact ⟨address, length, family, Text.eq_of_splitLast? cut, known, plain, bounded⟩

end Address

/-! ## Literals -/

namespace Literal

/-- A text denotes a finite number, an integer that is not safe, or itself. -/
theorem ofText_cases (value : String) :
    (∃ x, ofText value = .number x ∧ x.isFinite = true) ∨
      (∃ n, ofText value = .big n ∧ Number.maxSafe < n.natAbs) ∨ ofText value = .text value := by
  cases read : Numeral.integer? value.toList with
  | some n =>
      rw [ofText_integer read]
      split
      · exact Or.inl ⟨_, rfl, rfl⟩
      · next notSafe =>
          refine Or.inr (Or.inl ⟨n, rfl, ?_⟩)
          simpa [Number.isSafe] using notSafe
  | none =>
      rw [ofText, read]
      dsimp only
      split
      · next x read =>
          split
          · next finite => exact Or.inl ⟨x, rfl, finite⟩
          · exact Or.inr (Or.inr rfl)
      · exact Or.inr (Or.inr rfl)

theorem ofText_of_integer {value : String} {n : Int} (read : Numeral.integer? value.toList = some n)
    (safe : n.natAbs ≤ Number.maxSafe) : ofText value = .number (.integer n) := by
  have isSafe : Number.isSafe n = true := by simpa [Number.isSafe] using safe
  rw [ofText_integer read, if_pos isSafe]

end Literal

/-! ## Conditions of a class -/

theorem Operator.exists_comparison {operator : Operator} (isOrdered : operator ∈ ordered) :
    ∃ comparison, operator = .compare comparison := by
  cases operator with
  | compare comparison => exact ⟨comparison, rfl⟩
  | like => exact absurd isOrdered (by decide)
  | notLike => exact absurd isOrdered (by decide)

namespace FieldClass

/-- The conditions that a class admits for its fields. -/
inductive Admits : FieldClass → Leaf → Prop
  | addressEquality {comparison : Comparison} {field value : String}
      (isEquality : comparison = .eq ∨ comparison = .ne)
      (isAddress : (Address.family? value.toList).isSome = true) :
      Admits .address (.compare comparison field (.text value) none)
  | addressMatch {negated : Bool} {field pattern : String}
      (isPrefix : Address.DottedPrefix pattern.toList) :
      Admits .address (.like negated field pattern none)
  | membership {field block : String} (isBlock : Address.Block block.toList) :
      Admits .address (.inSubnet field block)
  | port {comparison : Comparison} {field : String} {number : Int}
      (inRange : 0 ≤ number ∧ number ≤ 65535) :
      Admits .port (.compare comparison field (.number (.integer number)) none)
  | number {comparison : Comparison} {field : String} {value : Number}
      (finite : value.isFinite = true) :
      Admits .numeric (.compare comparison field (.number value) none)
  | big {comparison : Comparison} {field : String} {value : Int}
      (tooLarge : Number.maxSafe < value.natAbs) :
      Admits .numeric (.compare comparison field (.big value) none)
  | protocol {comparison : Comparison} {field : String} {value : Literal} :
      Admits .protocol (.compare comparison field value none)
  | textEquality {comparison : Comparison} {field value : String}
      (isEquality : comparison = .eq ∨ comparison = .ne) :
      Admits .text (.compare comparison field (.text value) none)
  | textMatch {negated : Bool} {field pattern : String} :
      Admits .text (.like negated field pattern none)

theorem Admits.unsourced {fieldClass : FieldClass} {condition : Leaf}
    (admits : fieldClass.Admits condition) : condition.name = condition.field := by
  cases admits <;> rfl

variable {field value : String} {operator : Operator} {expr : Expr}

/-- Every leaf is a condition on the field that the class admits. -/
def AdmitsLeaves (fieldClass : FieldClass) (field : String) (expr : Expr) : Prop :=
  ∀ condition ∈ expr.leaves, condition.field = field ∧ fieldClass.Admits condition

theorem admitsLeaves_leaf {fieldClass : FieldClass} {condition : Leaf}
    (aboutField : condition.field = field) (admits : fieldClass.Admits condition) :
    fieldClass.AdmitsLeaves field (.leaf condition) := by
  intro other isLeaf
  rw [Expr.leaves, List.mem_singleton] at isLeaf
  subst isLeaf
  exact ⟨aboutField, admits⟩

theorem admitsLeaves_of_addressCondition (accepted : addressCondition field operator value = .ok expr) :
    AdmitsLeaves .address field expr := by
  rw [addressCondition] at accepted
  split at accepted
  · split at accepted
    · next isBlock =>
        cases accepted
        have admits : Admits .address (.inSubnet field value) :=
          .membership (Address.block_of_isBlock isBlock)
        cases operator.isNegated with
        | false => exact admitsLeaves_leaf rfl admits
        | true => exact admitsLeaves_leaf rfl admits
    · cases accepted
  · split at accepted
    · next isAddress =>
        cases accepted
        refine admitsLeaves_leaf rfl (.addressEquality ?_ isAddress)
        cases operator.isNegated with
        | false => exact Or.inl rfl
        | true => exact Or.inr rfl
    · split at accepted
      · next isPrefix =>
          cases accepted
          exact admitsLeaves_leaf rfl (.addressMatch (Address.dottedPrefix_of_isDottedPrefix isPrefix))
      · cases accepted

theorem admitsLeaves_port (takes : operator ∈ Operator.ordered) (checked : checkPort value = .ok ()) :
    AdmitsLeaves .port field (.leaf (comparison field operator value)) := by
  rcases Operator.exists_comparison takes with ⟨comparison, rfl⟩
  rcases checkPort_eq_ok.1 checked with ⟨number, read, inRange⟩
  rw [maxPort] at inRange
  have literal : Literal.ofText value = .number (.integer number) := by
    apply Literal.ofText_of_integer read
    rw [Number.maxSafe_eq]
    omega
  rw [FlowLog.comparison, literal]
  exact admitsLeaves_leaf rfl (.port inRange)

theorem admitsLeaves_protocol (takes : operator ∈ Operator.ordered) :
    AdmitsLeaves .protocol field (.leaf (protocolCondition field operator value)) := by
  rcases Operator.exists_comparison takes with ⟨comparison, rfl⟩
  rw [protocolCondition]
  split
  · exact admitsLeaves_leaf rfl .protocol
  · split
    · exact admitsLeaves_leaf rfl .protocol
    · exact admitsLeaves_leaf rfl .protocol

theorem admitsLeaves_of_numericCondition (takes : operator ∈ Operator.ordered)
    (accepted : (numericCondition field operator value).map .leaf = .ok expr) :
    AdmitsLeaves .numeric field expr := by
  rcases Operator.exists_comparison takes with ⟨comparison, rfl⟩
  rw [numericCondition] at accepted
  split at accepted
  · next isNumeric =>
      cases accepted
      rw [FlowLog.comparison]
      rcases Literal.ofText_cases value with ⟨x, literal, finite⟩ | ⟨n, literal, tooLarge⟩ | literal
      · rw [literal]
        exact admitsLeaves_leaf rfl (.number finite)
      · rw [literal]
        exact admitsLeaves_leaf rfl (.big tooLarge)
      · rw [literal] at isNumeric
        cases isNumeric
  · cases accepted

theorem admitsLeaves_of_textCondition
    (accepted : (textCondition field operator value).map .leaf = .ok expr) :
    AdmitsLeaves .text field expr := by
  unfold textCondition at accepted
  split at accepted
  · cases accepted
    exact admitsLeaves_leaf rfl (.textEquality (Or.inl rfl))
  · cases accepted
    exact admitsLeaves_leaf rfl (.textEquality (Or.inr rfl))
  · cases accepted
    exact admitsLeaves_leaf rfl .textMatch
  · cases accepted
    exact admitsLeaves_leaf rfl .textMatch
  · cases accepted

/-- A class that takes the operator and has checked the value makes a condition that it admits. -/
theorem admitsLeaves_of_condition {fieldClass : FieldClass} (takes : operator ∈ fieldClass.operators)
    (checked : fieldClass.checkValue value = .ok ())
    (accepted : fieldClass.condition field operator value = .ok expr) :
    fieldClass.AdmitsLeaves field expr := by
  cases fieldClass with
  | address => exact admitsLeaves_of_addressCondition accepted
  | port =>
      cases accepted
      exact admitsLeaves_port takes checked
  | protocol =>
      cases accepted
      exact admitsLeaves_protocol takes
  | numeric => exact admitsLeaves_of_numericCondition takes accepted
  | text => exact admitsLeaves_of_textCondition accepted

end FieldClass

/-! ## Filters -/

theorem Clause.trimmed_field {text : List Char} {clause : Clause}
    (located : ofText? text = some clause) :
    Text.trimmed clause.field = clause.field := by
  have ofScan : ∀ {word : Operator → List Char}, scan? word text = some clause →
      Text.trimmed clause.field = clause.field := by
    intro word scanned
    rcases List.exists_of_findSome?_eq_some scanned with ⟨operator, -, found⟩
    rcases Option.map_eq_some_iff.1 found with ⟨position, -, rfl⟩
    simp [cut, Text.trimmed]
  rw [ofText?] at located
  split at located
  · next spaced scanned =>
      cases located
      exact ofScan scanned
  · exact ofScan located

/-- A leaf that names a field and is a condition that the class of the field admits. -/
structure Leaf.WellTyped (registry : Registry) (condition : Leaf) : Prop where
  named : condition.field ≠ ""
  trimmed : Text.trimmed condition.field = condition.field
  admitted : (registry.resolve condition.field).Admits condition

namespace Expr

/-- Expressions whose connectives have two operands or more and in which only subnet conditions are
negated. -/
inductive WellFormed : Expr → Prop
  | leaf (condition : Leaf) : WellFormed (.leaf condition)
  | outside (field block : String) : WellFormed (.not (.leaf (.inSubnet field block)))
  | node {connective : Connective} {children : List Expr} (several : 2 ≤ children.length)
      (each : ∀ child ∈ children, WellFormed child) : WellFormed (.node connective children)

theorem IsCondition.wellFormed {expr : Expr} (isCondition : expr.IsCondition) : expr.WellFormed := by
  cases isCondition with
  | leaf condition => exact .leaf condition
  | outside field block => exact .outside field block

end Expr

namespace Filter

variable {registry : Registry}

theorem wellTyped_of_readClause {text : List Char} {expr : Expr}
    (accepted : readClause { registry } text = .ok expr) :
    ∀ condition ∈ expr.leaves, condition.WellTyped registry := by
  rcases readClause_cases accepted with ⟨clause, located, named, read⟩
  rcases readParts_cases read with ⟨computation, -, computed, -⟩ |
    ⟨fieldClass, resolved, takes, checked, ⟨computation, condition, computed, -, -⟩ | ⟨-, isCondition⟩⟩
  · cases computed
  · cases computed
  · intro condition isLeaf
    rcases FieldClass.admitsLeaves_of_condition takes checked isCondition condition isLeaf with
      ⟨aboutField, admits⟩
    subst resolved
    rw [← aboutField] at named admits
    refine ⟨named, ?_, admits⟩
    rw [aboutField]
    exact Clause.trimmed_field located

/-- What a filter text means is well formed, and each of its leaves respects the class of its
field. -/
theorem parse_wellTyped {text : String} {expr : Expr}
    (parsed : parse { registry } text = .ok (some expr)) :
    expr.WellFormed ∧ ∀ condition ∈ expr.leaves, condition.WellTyped registry := by
  apply parse_induction _ _ parsed
  · intro clause condition accepted
    exact ⟨(isCondition_of_readClause accepted).wellFormed, wellTyped_of_readClause accepted⟩
  · intro connective children several each
    refine ⟨.node several fun child isChild => (each child isChild).1, ?_⟩
    intro condition isLeaf
    rw [Expr.leaves_node, List.mem_flatMap] at isLeaf
    rcases isLeaf with ⟨child, isChild, inChild⟩
    exact (each child isChild).2 condition inChild

/-- A negated block, a port, an integer that is not safe and a pattern, under both connectives. -/
theorem parse_wellTyped_mixed :
    let expr : Expr := .node .or
      [.node .and
        [.not (.leaf (.inSubnet "srcaddr" "10.0.0.0/8")),
          .leaf (.compare .ge "dstport" (.number 1024) none)],
        .node .and
          [.leaf (.compare .gt "bytes" (.big 9007199254740993) none),
            .leaf (.like true "az" "x" none)]]
    parse {}
        "srcaddr != 10.0.0.0/8 and dstport>=+01024 or bytes > 9007199254740993 and az not like x" =
          .ok (some expr) ∧
      expr.WellFormed ∧ ∀ condition ∈ expr.leaves, condition.WellTyped .flowRecords := by
  intro expr
  have parsed : parse {}
      "srcaddr != 10.0.0.0/8 and dstport>=+01024 or bytes > 9007199254740993 and az not like x" =
        .ok (some expr) := by
    rw [parse, if_neg (by decide), readExpr, Outline.ofText_eq]
    rfl
  exact ⟨parsed, parse_wellTyped parsed⟩

end Filter

end FlowLog
