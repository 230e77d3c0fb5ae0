import FlowLog.Proofs.Composition
import FlowLog.Proofs.Expr
import FlowLog.Proofs.Leaf

/-!
# Reading back rendered expressions

Rendering and reading are separate: rendering puts parentheses around every `or` and none around an
`and`, reading looks for connectives outside parentheses and quotes. `Filter.parse_render` says that
reading undoes rendering on canonical expressions, those that the grammar of filter texts produces:
no negations and no subnets, at least two operands to a connective, and no `and` directly inside an
`and`.

The induction over the expression carries what the text of a subexpression does to the scanner, as
the fields of `Expr.Readable`: it is sealed against `or`, and also against `and` unless it is a
conjunction itself.
-/

namespace FlowLog

/-- A connective in lower case. -/
def Spelling.plain (connective : Connective) : Spelling connective where
  text := connective.keyword.toList
  spells := by cases connective <;> decide

namespace Expr

/-- The units of a rendered expression. -/
def text (expr : Expr) : List Char := expr.render.toList

/-- Expressions joined by a connective in lower case. -/
def chain (connective : Connective) (first : Expr) (rest : List Expr) : Chain connective Expr where
  first := first
  rest := rest.map fun child => (Spelling.plain connective, child)

theorem operands_chain (connective : Connective) (first : Expr) (rest : List Expr) :
    (chain connective first rest).operands = first :: rest := by
  simp [chain, Chain.operands, Function.comp_def]

theorem text_chain (connective : Connective) {separator : String}
    (isSeparator : separator.toList = (Spelling.plain connective).separator) (first : Expr)
    (rest : List Expr) :
    (separator.intercalate ((first :: rest).map render)).toList =
      (chain connective first rest).text text := by
  induction rest generalizing first with
  | nil => simp [chain, Chain.text, text]
  | cons next rest ih =>
      have later := ih next
      rw [List.map_cons] at later
      rw [List.map_cons, List.map_cons, String.intercalate_cons_cons, String.toList_append,
        String.toList_append, later, isSeparator]
      simp [chain, Chain.text, text]

theorem text_and (first : Expr) (rest : List Expr) :
    (Expr.node .and (first :: rest)).text = (chain .and first rest).text text := by
  rw [text, render_and, text_chain .and rfl]

theorem text_or (first : Expr) (rest : List Expr) :
    (Expr.node .or (first :: rest)).text = '(' :: (chain .or first rest).text text ++ [')'] := by
  rw [text, render_or (List.cons_ne_nil first rest), String.toList_append, String.toList_append,
    text_chain .or rfl]
  rfl

/-- Expressions that are the meaning of their own rendering. -/
inductive Canonical : Expr → Prop
  | leaf {condition : Leaf} (isWord : IsWord condition.field) (canonical : condition.Canonical) :
      Canonical (.leaf condition)
  | node {connective : Connective} {children : List Expr} (several : 2 ≤ children.length)
      (flat : connective = .and → ∀ child ∈ children, ∀ inner, child ≠ .node .and inner)
      (each : ∀ child ∈ children, Canonical child) :
      Canonical (.node connective children)

open Outline

/-- What an expression contributes to the text around it, and that it is read back. -/
structure Readable (expr : Expr) : Prop where
  framed : Text.Framed expr.text
  sealedOr : Sealed .or expr.text
  sealedAnd : (∀ inner, expr ≠ .node .and inner) → Sealed .and expr.text
  reads : Filter.readExpr {} expr.text = .ok expr

end Expr

namespace Outline

theorem ofText_of_sealed {text : List Char} (framed : Text.Framed text) (isSealed : Sealed .or text) :
    ofText text = ofConjunction ofText text := by
  rw [ofText_eq, framed.trim_eq, split_of_sealed isSealed, framed.trim_eq]
  rfl

/-- A text that neither connective cuts is an operand. -/
theorem ofText_of_sealed_both {text : List Char} (framed : Text.Framed text)
    (sealedOr : Sealed .or text) (sealedAnd : Sealed .and text) :
    ofText text = ofOperand ofText text := by
  rw [ofText_of_sealed framed sealedOr, ofConjunction, split_of_sealed sealedAnd, framed.trim_eq]
  rfl

end Outline

namespace Expr

open Outline

theorem combine_of_several {connective : Connective} {children : List Expr}
    (several : 2 ≤ children.length) : combine connective children = .node connective children := by
  match children with
  | [] => simp at several
  | [single] => simp at several
  | first :: second :: rest => rfl

theorem readable_leaf {condition : Leaf} (isWord : IsWord condition.field)
    (canonical : condition.Canonical) : Readable (.leaf condition) := by
  rcases canonical.exists_clause isWord with ⟨operator, text, value, written, valueText, read⟩
  have shape : (Expr.leaf condition).text =
      condition.field.toList ++ (Clause.spaced operator ++ text) := by
    rw [Expr.text, render, written]
  have framed := framed_clause isWord valueText operator
  have isSealed := sealed_clause isWord valueText operator
  refine ⟨?_, ?_, ?_, ?_⟩
  · rw [shape]
    exact framed
  · rw [shape]
    exact isSealed .or
  · intro _
    rw [shape]
    exact isSealed .and
  · rw [shape, Filter.readExpr, ofText_of_sealed_both framed (isSealed .or) (isSealed .and), ofOperand,
      ungroup?_clause isWord, toExpr, readClause_clause isWord valueText, read]

theorem toExprs_children {children : List Expr} (each : ∀ child ∈ children, Readable child) :
    toExprs (Filter.readClause {}) (children.map fun child => ofText child.text) = .ok children := by
  have read : toExprs (Filter.readClause {}) (children.map fun child => ofText child.text) =
      .ok (children.map id) :=
    toExprs_eq_ok fun child isMember => (each child isMember).reads
  rwa [List.map_id] at read

theorem readable_and {children : List Expr} (several : 2 ≤ children.length)
    (flat : ∀ child ∈ children, ∀ inner, child ≠ .node .and inner)
    (each : ∀ child ∈ children, Readable child) : Readable (.node .and children) := by
  obtain ⟨first, rest, rfl⟩ : ∃ first rest, children = first :: rest :=
    List.exists_cons_of_length_pos (by omega)
  have isOperand : ∀ child ∈ (chain .and first rest).operands, child ∈ first :: rest := by
    rw [operands_chain]
    exact fun _ isMember => isMember
  have framed := (chain .and first rest).framed_text fun child isMember =>
    (each child (isOperand child isMember)).framed
  have sealedOr := (chain .and first rest).sealed_text (by decide) fun child isMember =>
    (each child (isOperand child isMember)).sealedOr
  have childSealed : ∀ child ∈ first :: rest, Sealed .and child.text := fun child isMember =>
    (each child isMember).sealedAnd (flat child isMember)
  refine ⟨?_, ?_, ?_, ?_⟩
  · rw [text_and]
    exact framed
  · rw [text_and]
    exact sealedOr
  · intro notAnd
    exact absurd rfl (notAnd (first :: rest))
  · have cut := (chain .and first rest).split_text fun child isMember =>
      childSealed child (isOperand child isMember)
    have outlined : ofText (Expr.node .and (first :: rest)).text =
        Outline.combine .and ((first :: rest).map fun child => ofText child.text) := by
      rw [text_and, ofText_of_sealed framed sealedOr, ofConjunction, cut, operands_chain, List.map_map]
      congr 1
      apply List.map_congr_left
      intro child isMember
      have readable := each child isMember
      rw [Function.comp_apply, readable.framed.trim_eq,
        ofText_of_sealed_both readable.framed readable.sealedOr (childSealed child isMember)]
    rw [Filter.readExpr, outlined, toExpr_combine, toExprs_children each]
    exact congrArg Except.ok (combine_of_several several)

theorem readable_or {children : List Expr} (several : 2 ≤ children.length)
    (each : ∀ child ∈ children, Readable child) : Readable (.node .or children) := by
  obtain ⟨first, rest, rfl⟩ : ∃ first rest, children = first :: rest :=
    List.exists_cons_of_length_pos (by omega)
  have childReadable : ∀ child ∈ (chain .or first rest).operands, Readable child := by
    rw [operands_chain]
    exact each
  have innerFramed := (chain .or first rest).framed_text fun child isMember =>
    (childReadable child isMember).framed
  have innerAligned := (chain .or first rest).aligned_text fun child isMember =>
    (childReadable child isMember).sealedOr.aligned
  have innerClosed := (chain .or first rest).closed_text fun child isMember =>
    (childReadable child isMember).sealedOr.closed
  have isSealed := innerClosed.sealed_group innerAligned
  have framed : Text.Framed ('(' :: (chain .or first rest).text text ++ [')']) :=
    ⟨⟨'(', _, rfl, by decide⟩, ⟨_, ')', rfl, by decide⟩⟩
  refine ⟨?_, ?_, ?_, ?_⟩
  · rw [text_or]
    exact framed
  · rw [text_or]
    exact isSealed .or
  · intro _
    rw [text_or]
    exact isSealed .and
  · have cut := (chain .or first rest).split_text fun child isMember =>
      (childReadable child isMember).sealedOr
    have entered : ungroup? ('(' :: (chain .or first rest).text text ++ [')']) =
        some ((chain .or first rest).text text) := by
      simp [ungroup?]
    have outlined : ofText (Expr.node .or (first :: rest)).text =
        Outline.combine .or ((first :: rest).map fun child => ofText child.text) := by
      rw [text_or, ofText_of_sealed_both framed (isSealed .or) (isSealed .and), ofOperand, entered]
      simp only [innerFramed.not_blank, Bool.false_eq_true, if_false]
      rw [ofText_eq, innerFramed.trim_eq, cut, operands_chain, List.map_map]
      congr 1
      apply List.map_congr_left
      intro child isMember
      have readable := each child isMember
      rw [Function.comp_apply, readable.framed.trim_eq,
        ofText_of_sealed readable.framed readable.sealedOr]
    rw [Filter.readExpr, outlined, toExpr_combine, toExprs_children each]
    exact congrArg Except.ok (combine_of_several several)

theorem Canonical.readable {expr : Expr} (canonical : expr.Canonical) : Readable expr := by
  induction canonical with
  | leaf isWord canonical => exact readable_leaf isWord canonical
  | @node connective children several flat _ ih =>
      cases connective with
      | and => exact readable_and several (flat rfl) ih
      | or => exact readable_or several ih

end Expr

namespace Filter

/-- Reading undoes rendering on canonical expressions. -/
theorem parse_render {expr : Expr} (canonical : expr.Canonical) :
    parse {} expr.render = .ok (some expr) := by
  have readable := canonical.readable
  have parsed := parse_ofList {} readable.framed.not_blank
  rw [Expr.text, String.ofList_toList] at parsed
  rw [parsed, ← Expr.text, readable.reads]
  rfl

/-- Connectives and parentheses inside a quoted value, a negative number and one too large to be
exact. -/
theorem parse_render_nested :
    let disjunction : Expr := .node .or
      [.leaf (.compare .ne "action" (.text "x) or (y AND") none),
        .node .and
          [.leaf (.compare .ge "bytes" (.big 9007199254740993) none),
            .leaf (.compare .lt "packets" (.number (.integer (-5))) none)]]
    let expr : Expr := .node .and [.leaf (.like true "log_status" " %OK" none), disjunction]
    expr.Canonical ∧ parse {} expr.render = .ok (some expr) := by
  intro disjunction expr
  have canonicalDisjunction : disjunction.Canonical := by
    refine .node (by decide) (by rintro ⟨⟩) ?_
    rintro child (_ | ⟨_, _ | ⟨_, ⟨⟩⟩⟩)
    · exact .leaf (by decide) (.text (.inr rfl) (by decide) (by decide))
    · refine .node (by decide) (by simp) ?_
      rintro child (_ | ⟨_, _ | ⟨_, ⟨⟩⟩⟩)
      · exact .leaf (by decide) (.big (.inl (by decide)) (by decide))
      · exact .leaf (by decide) (.number (.inl (by decide)) (by decide))
  have canonical : expr.Canonical := by
    refine .node (by decide) (by simp [disjunction]) ?_
    rintro child (_ | ⟨_, _ | ⟨_, ⟨⟩⟩⟩)
    · exact .leaf (by decide) (.like (by decide) (by decide))
    · exact canonicalDisjunction
  exact ⟨canonical, parse_render canonical⟩

end Filter

end FlowLog
