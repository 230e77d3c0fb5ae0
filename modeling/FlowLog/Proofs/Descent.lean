import FlowLog.Proofs.Composition

/-!
# How deep reading goes

A text is read level by level: the operands of `or`, in each of them the operands of `and`, and what
stands between the parentheses of an operand is a text again. Operands are cut out of the text at
positions that belong to its folded form, they may be empty, and a text without the connective is
handed to the next level as it is. But no operand is longer than the text, and the two parentheses
of a group are dropped, so every group that is entered is at least two units shorter than the text.

`Filter.readWithin` is the recursion written out with a bound on the number of groups that are open
at a time, and gives no answer where the bound is reached. Half the length of the text is bound
enough (`Filter.readWithin_eq`), for texts of any shape.
-/

namespace FlowLog

/-- A text that neither starts nor ends with a blank character. -/
structure Text.Trimmed (text : List Char) : Prop where
  head : ∀ c ∈ text.head?, isBlank c = false
  last : ∀ c ∈ text.getLast?, isBlank c = false

theorem Text.trimmed_trim (text : List Char) : Trimmed (trim text) where
  head := head?_trim_visible text
  last := getLast?_trim_visible text

theorem Text.Trimmed.trim_eq {text : List Char} (trimmed : Trimmed text) : trim text = text :=
  trim_eq_self trimmed.head trimmed.last

namespace Outline

variable {connective : Connective} {text part inner : List Char}

theorem trimmed_of_mem_split (isPart : part ∈ split connective text) : Text.Trimmed part := by
  rcases List.mem_map.1 isPart with ⟨piece, -, rfl⟩
  exact Text.trimmed_trim piece

theorem split_eq_singleton (single : split connective text = [part]) : part = Text.trim text := by
  rw [split] at single
  cases positions : cuts connective text with
  | nil =>
      rw [positions] at single
      simpa [pieces] using single.symm
  | cons position rest =>
      rw [positions, pieces] at single
      cases rest <;> simp [pieces] at single

/-- Reading `text` comes to the inside `inner` of a group. -/
inductive Enters (text inner : List Char) : Prop
  | group {part operand : List Char} (isPart : part ∈ split .or (Text.trim text))
      (isOperand : operand ∈ split .and part) (grouped : ungroup? operand = some inner)
      (visible : Text.blank inner = false)

theorem Enters.length_add_two_le (enters : Enters text inner) : inner.length + 2 ≤ text.length := by
  cases enters with
  | @group part operand isPart isOperand grouped _ =>
      calc inner.length + 2
        _ = operand.length := length_of_ungroup? grouped
        _ ≤ part.length := length_le_of_mem_split isOperand
        _ ≤ (Text.trim text).length := length_le_of_mem_split isPart
        _ ≤ text.length := Text.length_trim_le text

end Outline

namespace Filter

open Outline

/-- The result of a reading that is cut off where too many groups are open. -/
abbrev Bounded := ExceptT Error Option

/-- Reads one operand; the inside of a group is read by `inside`. -/
def readOperand (vocabulary : Vocabulary) (inside : List Char → Bounded Expr) (text : List Char) :
    Bounded Expr :=
  let operand := Text.trim text
  match ungroup? operand with
  | none => ExceptT.mk (some (readClause vocabulary operand))
  | some inner => if Text.blank inner then throw (.emptyGroup (String.ofList operand)) else inside inner

/-- Reads the operands of a connective from left to right; a text without the connective is read as
it is. -/
def readLevel (connective : Connective) (read : List Char → Bounded Expr) (text : List Char) :
    Bounded Expr :=
  match split connective text with
  | [_] => read text
  | parts => do
      let children ← parts.mapM read
      return .node connective children

/-- Reads a text; the insides of its groups are read by `inside`. -/
def readText (vocabulary : Vocabulary) (inside : List Char → Bounded Expr) (text : List Char) :
    Bounded Expr :=
  readLevel .or (readLevel .and (readOperand vocabulary inside)) (Text.trim text)

/-- Reads a text in which fewer than `depth` groups are open at a time. -/
def readWithin (vocabulary : Vocabulary) : (depth : Nat) → (text : List Char) → Bounded Expr
  | 0, _ => ExceptT.mk none
  | depth + 1, text => readText vocabulary (readWithin vocabulary depth) text

section Levels

variable {vocabulary : Vocabulary} {inside read : List Char → Bounded Expr}
  {outline : List Char → Outline} {readLeaf : List Char → Except Error Expr} {connective : Connective}

theorem readOperand_eq {operand : List Char} (trimmed : Text.Trimmed operand)
    (reads : ∀ inner, ungroup? operand = some inner → Text.blank inner = false →
      inside inner = some (readExpr vocabulary inner)) :
    readOperand vocabulary inside operand =
      some (toExpr (readClause vocabulary) (ofOperand ofText operand)) := by
  rw [readOperand, trimmed.trim_eq, ofOperand]
  cases grouped : ungroup? operand with
  | none => rfl
  | some inner =>
      dsimp only
      cases visible : Text.blank inner with
      | true => rfl
      | false => exact reads inner grouped visible

theorem mapM_eq {parts : List (List Char)}
    (reads : ∀ part ∈ parts, read part = some (toExpr readLeaf (outline part))) :
    parts.mapM read = some (toExprs readLeaf (parts.map outline)) := by
  induction parts with
  | nil => rfl
  | cons part rest ih =>
      rw [List.forall_mem_cons] at reads
      rw [List.mapM_cons, reads.1, ih reads.2, List.map_cons, toExprs]
      cases toExpr readLeaf (outline part) with
      | error fault => rfl
      | ok child => cases toExprs readLeaf (rest.map outline) <;> rfl

theorem readLevel_eq {text : List Char} (trimmed : Text.Trimmed text)
    (reads : ∀ part ∈ split connective text, read part = some (toExpr readLeaf (outline part))) :
    readLevel connective read text =
      some (toExpr readLeaf (combine connective ((split connective text).map outline))) := by
  rw [readLevel]
  split
  · next part single =>
      have isText : part = text := (split_eq_singleton single).trans trimmed.trim_eq
      rw [single, isText] at reads
      rw [single, isText]
      exact reads text List.mem_cons_self
  · next notSingle =>
      rw [mapM_eq reads, combine]
      · rw [toExpr]
        cases toExprs readLeaf ((split connective text).map outline) <;> rfl
      · intro single isSingle
        rcases List.map_eq_singleton_iff.1 isSingle with ⟨part, split_eq, -⟩
        exact notSingle part split_eq

/-- Reading a text depends on how the insides of groups are read only for the groups that it
enters. -/
theorem readText_eq {text : List Char}
    (reads : ∀ inner, Enters text inner → inside inner = some (readExpr vocabulary inner)) :
    readText vocabulary inside text = some (readExpr vocabulary text) := by
  rw [readExpr, ofText_eq]
  apply readLevel_eq (Text.trimmed_trim text)
  intro part isPart
  apply readLevel_eq (trimmed_of_mem_split isPart)
  intro operand isOperand
  apply readOperand_eq (trimmed_of_mem_split isOperand)
  intro inner grouped visible
  exact reads inner (.group isPart isOperand grouped visible)

theorem readWithin_eq {depth : Nat} {text : List Char} (deep : text.length < 2 * depth) :
    readWithin vocabulary depth text = some (readExpr vocabulary text) := by
  induction depth generalizing text with
  | zero => omega
  | succ depth ih =>
      apply readText_eq
      intro inner enters
      have shorter := enters.length_add_two_le
      exact ih (by omega)

end Levels

/-- Every text is read to its end. There is always an operand, operands are trimmed and not longer
than the text, and each group that is entered is two units shorter. So the recursion over groups is
one over the length of the text, and never goes deeper than half of it. -/
theorem readExpr_by_length (vocabulary : Vocabulary) (text : List Char) :
    (∀ connective, split connective text ≠ [] ∧
      ∀ part ∈ split connective text, Text.Trimmed part ∧ part.length ≤ text.length) ∧
    (∀ inner, Enters text inner → inner.length + 2 ≤ text.length) ∧
    (∀ inside : List Char → Bounded Expr,
      (∀ inner, Enters text inner → inside inner = some (readExpr vocabulary inner)) →
      readText vocabulary inside text = some (readExpr vocabulary text)) ∧
    ∀ depth, text.length < 2 * depth →
      readWithin vocabulary depth text = some (readExpr vocabulary text) := by
  refine ⟨?_, fun inner => Enters.length_add_two_le, fun inside => readText_eq,
    fun depth => readWithin_eq⟩
  intro connective
  refine ⟨split_ne_nil connective text, ?_⟩
  intro part isPart
  exact ⟨trimmed_of_mem_split isPart, length_le_of_mem_split isPart⟩

/-- One group in another is too much for a bound of two. -/
example : readWithin {} 2 "((dstport = 443))".toList = none := by
  rfl

end Filter

end FlowLog
