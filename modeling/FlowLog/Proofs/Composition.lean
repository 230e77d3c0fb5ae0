import FlowLog.Filter.Parse
import FlowLog.Proofs.Splitting

/-!
# Filters made of groups

A filter may be put together from other filters: each of them in parentheses, some of them joined by
`and`, and the results joined by `or`. `Filter.parse_joined` says what such a filter means. It is
the `or` of the `and`s of what its operands mean, without a node around a single operand, and if
operands are at fault then the first of them decides the error.

The scanner counts parentheses and looks into quotes, while a group is recognized by its first and
last unit alone. The two agree because an operand is closed: neither a quoted parenthesis nor a
quoted connective ends the group early, and the closing parenthesis of a group is never that of
another.
-/

namespace FlowLog

/-- Joins expressions by a connective; a single expression stands for itself. -/
def Expr.combine (connective : Connective) : List Expr → Expr
  | [single] => single
  | children => .node connective children

/-- A filter text that may be put in parentheses. -/
structure Operand where
  text : List Char
  visible : Text.blank text = false
  aligned : Text.Aligned text
  closed : Outline.Closed text

namespace Operand

/-- The operand as a filter of its own. -/
def filter (operand : Operand) : String := String.ofList operand.text

/-- The operand in parentheses. -/
def group (operand : Operand) : List Char := '(' :: operand.text ++ [')']

theorem sealed_group (operand : Operand) (connective : Connective) :
    Outline.Sealed connective operand.group :=
  operand.closed.sealed_group operand.aligned connective

theorem framed_group (operand : Operand) : Text.Framed operand.group where
  starts := ⟨'(', operand.text ++ [')'], rfl, by decide⟩
  ends := ⟨'(' :: operand.text, ')', rfl, by decide⟩

@[simp]
theorem ungroup?_group (operand : Operand) :
    Outline.ungroup? operand.group = some operand.text := by
  simp [group, Outline.ungroup?]

end Operand

namespace Outline

theorem ofText_trim (text : List Char) : ofText (Text.trim text) = ofText text := by
  rw [ofText_eq, ofText_eq text, Text.trim_trim]

section Reading

variable {α : Type} {read : List Char → Except Filter.Error Expr} {outline : α → Outline}

theorem toExprs_eq_ok {items : List α} {meaning : α → Expr}
    (succeeds : ∀ item ∈ items, toExpr read (outline item) = .ok (meaning item)) :
    toExprs read (items.map outline) = .ok (items.map meaning) := by
  induction items with
  | nil => rfl
  | cons item rest ih =>
      rw [List.forall_mem_cons] at succeeds
      rw [List.map_cons, toExprs, succeeds.1, ih succeeds.2]
      rfl

theorem toExprs_eq_error {before after : List Outline} {failing : Outline} {error : Filter.Error}
    (succeeds : ∀ part ∈ before, ∃ expr, toExpr read part = .ok expr)
    (fails : toExpr read failing = .error error) :
    toExprs read (before ++ failing :: after) = .error error := by
  induction before with
  | nil =>
      rw [List.nil_append, toExprs, fails]
      rfl
  | cons part rest ih =>
      rw [List.forall_mem_cons] at succeeds
      rcases succeeds with ⟨⟨expr, read⟩, laterSucceed⟩
      rw [List.cons_append, toExprs, read, ih laterSucceed]
      rfl

/-- An outline joined of parts means what its parts mean, joined in the same way. -/
theorem toExpr_combine (connective : Connective) (parts : List Outline) :
    toExpr read (combine connective parts) =
      (toExprs read parts).map (Expr.combine connective) := by
  match parts with
  | [] => rfl
  | [single] =>
      rw [combine, toExprs, toExprs]
      cases toExpr read single <;> rfl
  | first :: second :: rest =>
      rw [combine, toExpr, toExprs, toExprs]
      · cases toExpr read first with
        | error error => rfl
        | ok firstExpr =>
            cases toExpr read second with
            | error error => rfl
            | ok secondExpr => cases toExprs read rest <;> rfl
      · simp

end Reading

end Outline

/-- Operands in parentheses, joined by `and`, and the results joined by `or`. -/
abbrev Joined := Chain .or (Chain .and Operand)

namespace Joined

open Outline

/-- The operands of one conjunction, each in parentheses. -/
def rowText (row : Chain .and Operand) : List Char := row.text Operand.group

/-- The text of the whole. -/
def text (joined : Joined) : List Char := Chain.text rowText joined

/-- All operands from left to right. -/
def flatten (joined : Joined) : List Operand := joined.operands.flatMap Chain.operands

theorem framed_rowText (row : Chain .and Operand) : Text.Framed (rowText row) :=
  row.framed_text fun operand _ => operand.framed_group

theorem framed_text (joined : Joined) : Text.Framed joined.text :=
  Chain.framed_text joined fun row _ => framed_rowText row

theorem sealed_rowText (row : Chain .and Operand) : Sealed .or (rowText row) :=
  row.sealed_text (by decide) fun operand _ => operand.sealed_group .or

theorem ofConjunction_rowText (row : Chain .and Operand) :
    ofConjunction ofText (rowText row) =
      combine .and (row.operands.map fun operand => ofText operand.text) := by
  have cut : split .and (rowText row) = row.operands.map Operand.group := by
    rw [rowText, row.split_text fun operand _ => operand.sealed_group .and]
    apply List.map_congr_left
    intro operand _
    exact operand.framed_group.trim_eq
  have entered : ∀ operand : Operand, ofOperand ofText operand.group = ofText operand.text := by
    intro operand
    simp [ofOperand, operand.visible]
  simp [ofConjunction, cut, List.map_map, Function.comp_def, entered]

/-- The outline of joined operands has the outlines of the operands in it, as they are. -/
theorem ofText_text (joined : Joined) :
    ofText joined.text =
      combine .or (joined.operands.map fun row =>
        combine .and (row.operands.map fun operand => ofText operand.text)) := by
  have cut : split .or joined.text = joined.operands.map rowText := by
    rw [text, Chain.split_text joined fun row _ => sealed_rowText row]
    apply List.map_congr_left
    intro row _
    exact (framed_rowText row).trim_eq
  rw [ofText_eq, joined.framed_text.trim_eq, cut, List.map_map]
  congr 1
  apply List.map_congr_left
  intro row _
  exact ofConjunction_rowText row

section Reading

variable {read : List Char → Except Filter.Error Expr}

theorem toExpr_text_eq_ok {joined : Joined} {meaning : Operand → Expr}
    (succeeds : ∀ operand ∈ joined.flatten,
      toExpr read (ofText operand.text) = .ok (meaning operand)) :
    toExpr read (ofText joined.text) =
      .ok (Expr.combine .or (joined.operands.map fun row =>
        Expr.combine .and (row.operands.map meaning))) := by
  have rowSucceeds : ∀ row ∈ joined.operands,
      toExpr read (combine .and (row.operands.map fun operand => ofText operand.text)) =
        .ok (Expr.combine .and (row.operands.map meaning)) := by
    intro row isRow
    rw [toExpr_combine, toExprs_eq_ok fun operand isOperand =>
      succeeds operand (List.mem_flatMap.2 ⟨row, isRow, isOperand⟩)]
    rfl
  rw [ofText_text, toExpr_combine, toExprs_eq_ok rowSucceeds]
  rfl

theorem toExpr_row_eq_error {row : Chain .and Operand} {before after : List Operand} {failing : Operand}
    {error : Filter.Error} (shape : row.operands = before ++ failing :: after)
    (succeeds : ∀ operand ∈ before, ∃ expr, toExpr read (ofText operand.text) = .ok expr)
    (fails : toExpr read (ofText failing.text) = .error error) :
    toExpr read (combine .and (row.operands.map fun operand => ofText operand.text)) =
      .error error := by
  rw [toExpr_combine, shape, List.map_append, List.map_cons, toExprs_eq_error _ fails]
  · rfl
  · intro part isPart
    rcases List.mem_map.1 isPart with ⟨operand, isOperand, rfl⟩
    exact succeeds operand isOperand

/-- The first operand at fault decides the error, in whichever conjunction it stands. -/
theorem toExprs_rows_eq_error {rows : List (Chain .and Operand)} {before after : List Operand}
    {failing : Operand} {error : Filter.Error}
    (shape : rows.flatMap Chain.operands = before ++ failing :: after)
    (succeeds : ∀ operand ∈ before, ∃ expr, toExpr read (ofText operand.text) = .ok expr)
    (fails : toExpr read (ofText failing.text) = .error error) :
    toExprs read (rows.map fun row =>
      combine .and (row.operands.map fun operand => ofText operand.text)) = .error error := by
  induction rows generalizing before with
  | nil => simp at shape
  | cons row rest ih =>
      rw [List.flatMap_cons] at shape
      have position : (∃ later, before = row.operands ++ later ∧
          rest.flatMap Chain.operands = later ++ failing :: after) ∨
          ∃ behind, row.operands = before ++ failing :: behind := by
        rcases List.append_eq_append_iff.1 shape with ⟨later, isLater, inRest⟩ | ⟨behind, inRow, rests⟩
        · exact Or.inl ⟨later, isLater, inRest⟩
        · cases behind with
          | nil => exact Or.inl ⟨[], by simpa using inRow.symm, by simpa using rests.symm⟩
          | cons first behind =>
              rcases List.cons_eq_cons.1 rests with ⟨rfl, -⟩
              exact Or.inr ⟨behind, inRow⟩
      rw [List.map_cons, toExprs]
      rcases position with ⟨later, rfl, inRest⟩ | ⟨behind, inRow⟩
      · choose! meaning means using succeeds
        have rowSucceeds : toExprs read (row.operands.map fun operand => ofText operand.text) =
            .ok (row.operands.map meaning) :=
          toExprs_eq_ok fun operand isOperand =>
            means operand (List.mem_append_left later isOperand)
        rw [toExpr_combine, rowSucceeds, ih inRest fun operand isOperand =>
          ⟨meaning operand, means operand (List.mem_append_right row.operands isOperand)⟩]
        rfl
      · rw [toExpr_row_eq_error inRow succeeds fails]
        rfl

end Reading

end Joined

namespace Filter

theorem parse_ofList (vocabulary : Vocabulary) {text : List Char} (visible : Text.blank text = false) :
    parse vocabulary (String.ofList text) = (readExpr vocabulary text).map some := by
  rw [parse, String.toList_ofList, visible, if_neg Bool.false_ne_true, readExpr, Outline.ofText_trim]
  rfl

theorem parse_operand_eq_ok {vocabulary : Vocabulary} {operand : Operand} {expr : Expr} :
    parse vocabulary operand.filter = .ok (some expr) ↔ readExpr vocabulary operand.text = .ok expr := by
  rw [Operand.filter, parse_ofList vocabulary operand.visible]
  cases readExpr vocabulary operand.text <;> simp [Except.map]

theorem parse_operand_eq_error {vocabulary : Vocabulary} {operand : Operand} {error : Error} :
    parse vocabulary operand.filter = .error error ↔
      readExpr vocabulary operand.text = .error error := by
  rw [Operand.filter, parse_ofList vocabulary operand.visible]
  cases readExpr vocabulary operand.text <;> simp [Except.map]

/-- Operands in parentheses, joined by `and` and then by `or`, mean the `or` of the `and`s of what
they mean; the first operand at fault decides the error. An operand is never an empty filter, so
these are all cases. -/
theorem parse_joined (vocabulary : Vocabulary) (joined : Joined) :
    (∀ meaning : Operand → Expr,
      (∀ operand ∈ joined.flatten,
        parse vocabulary operand.filter = .ok (some (meaning operand))) →
      parse vocabulary (String.ofList joined.text) =
        .ok (some (Expr.combine .or (joined.operands.map fun row =>
          Expr.combine .and (row.operands.map meaning))))) ∧
    (∀ before failing after error,
      joined.flatten = before ++ failing :: after →
      (∀ operand ∈ before, ∃ expr, parse vocabulary operand.filter = .ok (some expr)) →
      parse vocabulary failing.filter = .error error →
      parse vocabulary (String.ofList joined.text) = .error error) ∧
    ∀ operand ∈ joined.flatten, parse vocabulary operand.filter ≠ .ok none := by
  have whole := parse_ofList vocabulary joined.framed_text.not_blank
  refine ⟨?_, ?_, ?_⟩
  · intro meaning succeeds
    have read : readExpr vocabulary joined.text = .ok _ := Joined.toExpr_text_eq_ok
      fun operand isOperand => parse_operand_eq_ok.1 (succeeds operand isOperand)
    rw [whole, read]
    rfl
  · intro before failing after error shape succeeds fails
    have read : readExpr vocabulary joined.text = .error error := by
      rw [readExpr, Joined.ofText_text, Outline.toExpr_combine,
        Joined.toExprs_rows_eq_error shape _ (parse_operand_eq_error.1 fails)]
      · rfl
      · intro operand isOperand
        rcases succeeds operand isOperand with ⟨expr, parsed⟩
        exact ⟨expr, parse_operand_eq_ok.1 parsed⟩
    rw [whole, read]
    rfl
  · intro operand _
    rw [Operand.filter, parse_ofList vocabulary operand.visible]
    cases readExpr vocabulary operand.text <;> simp [Except.map]

/-- Two operands are at fault, and the first of them decides the error. -/
theorem parse_joined_two_faults :
    parse {} "(action = ')' or dstport = 443) AND (protocol) oR (bytes = x)" =
      .error (.noOperator "protocol") := by
  have soundParsed : parse {} "action = ')' or dstport = 443" = .ok (some (.node .or
      [.leaf (.compare .eq "action" (.text ")") none),
        .leaf (.compare .eq "dstport" (.number 443) none)])) := by
    rw [parse, if_neg (by decide), readExpr, Outline.ofText_eq]
    rfl
  have faultyParsed : parse {} "protocol" = .error (.noOperator "protocol") := by
    rw [parse, if_neg (by decide), readExpr, Outline.ofText_eq]
    rfl
  let sound : Operand := ⟨"action = ')' or dstport = 443".toList, by decide, by decide, by decide⟩
  let faulty : Operand := ⟨"protocol".toList, by decide, by decide, by decide⟩
  let alsoFaulty : Operand := ⟨"bytes = x".toList, by decide, by decide, by decide⟩
  let joined : Joined :=
    ⟨⟨sound, [(⟨"AND".toList, by decide⟩, faulty)]⟩, [(⟨"oR".toList, by decide⟩, ⟨alsoFaulty, []⟩)]⟩
  have written : String.ofList joined.text =
      "(action = ')' or dstport = 443) AND (protocol) oR (bytes = x)" := by decide
  rw [← written]
  refine (parse_joined {} joined).2.1 [sound] faulty [alsoFaulty] _ rfl ?_ ?_
  · intro operand isSound
    rw [List.mem_singleton.1 isSound, Operand.filter, String.ofList_toList]
    exact ⟨_, soundParsed⟩
  · rw [Operand.filter, String.ofList_toList]
    exact faultyParsed

end Filter

end FlowLog
