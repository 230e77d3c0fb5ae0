import FlowLog.Filter.Operator
import FlowLog.Filter.Clause

/-!
# Outlines

The outline of a filter text is its grouping: which clauses are joined by which connectives, before
any clause is looked into. Connectives count where they stand between single spaces, outside quotes
and outside parentheses; `or` binds weaker than `and`. An operand in parentheses is outlined again
inside.

`Outline.split` cuts a text at one connective. Its parts are never longer than the text, which is
why `Outline.ofText` ends.
-/

namespace FlowLog

/-- The grouping of a filter text. -/
inductive Outline where
  | clause (text : List Char)
  | emptyGroup (text : List Char)
  | node (connective : Connective) (parts : List Outline)

namespace Outline

/-- What the units read so far say about the next one: the depth of parentheses, and the quote that
is open. -/
structure Context where
  depth : Int
  quote : Option Char
  deriving DecidableEq, Repr

namespace Context

/-- The context at the start of a text. -/
def start : Context := ⟨0, none⟩

/-- The context after one more unit. -/
def step (context : Context) (c : Char) : Context :=
  match context.quote with
  | some quote => { context with quote := if c = quote then none else some quote }
  | none =>
      if Clause.isQuote c then { context with quote := some c }
      else if c = '(' then { context with depth := context.depth + 1 }
      else if c = ')' then { context with depth := context.depth - 1 }
      else context

/-- Whether a connective may start at the unit `c`: it is outside quotes, and outside parentheses
once it is read. -/
def allows (context : Context) (c : Char) : Bool :=
  context.quote.isNone && (context.step c).depth == 0

end Context

/-- A connective between single spaces. -/
def word (connective : Connective) : List Char := ' ' :: connective.keyword.toList ++ [' ']

/-- The positions, from `position` on, at which a word starts that may be cut out. `written` are the
units of the written text to look at, and `folded` is the rest of the folded text at the same
position. -/
def cutsFrom (word : List Char) (position : Nat) (context : Context) :
    (written folded : List Char) → List Nat
  | [], _ => []
  | c :: rest, folded =>
      let later := cutsFrom word (position + 1) (context.step c) rest folded.tail
      if context.allows c && word.isPrefixOf folded then position :: later else later

/-- The positions at which a text is cut at a connective. The search ends where the connective no
longer fits into the written text. -/
def cuts (connective : Connective) (text : List Char) : List Nat :=
  let word := word connective
  cutsFrom word 0 .start (text.take (text.length + 1 - word.length)) (Text.fold text)

/-- The pieces of a text from `start` on, with `width` units left out at each position. -/
def pieces (text : List Char) (width : Nat) : (start : Nat) → (positions : List Nat) → List (List Char)
  | start, [] => [text.drop start]
  | start, position :: rest =>
      (text.take position).drop start :: pieces text width (position + width) rest

/-- The trimmed operands of a connective in a text; a text without the connective is its only
operand. -/
def split (connective : Connective) (text : List Char) : List (List Char) :=
  (pieces text (word connective).length 0 (cuts connective text)).map Text.trim

/-- The inside of an operand that starts and ends with parentheses. -/
def ungroup? : List Char → Option (List Char)
  | '(' :: rest => if rest.getLast? = some ')' then some rest.dropLast else none
  | _ => none

/-- Joins operands by a connective; a single operand stands for itself. -/
def combine (connective : Connective) : List Outline → Outline
  | [single] => single
  | parts => .node connective parts

theorem length_le_of_mem_pieces {text piece : List Char} {width start : Nat} {positions : List Nat}
    (isPiece : piece ∈ pieces text width start positions) : piece.length ≤ text.length := by
  induction positions generalizing start with
  | nil =>
      simp only [pieces, List.mem_singleton] at isPiece
      simp [isPiece]
  | cons position rest ih =>
      simp only [pieces, List.mem_cons] at isPiece
      rcases isPiece with rfl | inRest
      · simp only [List.length_drop, List.length_take]
        omega
      · exact ih inRest

/-- An operand is no longer than the text it was cut from. -/
theorem length_le_of_mem_split {connective : Connective} {text part : List Char}
    (isPart : part ∈ split connective text) : part.length ≤ text.length := by
  obtain ⟨piece, isPiece, rfl⟩ := List.mem_map.1 isPart
  exact Nat.le_trans (Text.length_trim_le piece) (length_le_of_mem_pieces isPiece)

/-- The inside of a group is two units shorter than the group. -/
theorem length_of_ungroup? {text inner : List Char} (grouped : ungroup? text = some inner) :
    inner.length + 2 = text.length := by
  unfold ungroup? at grouped
  split at grouped
  · rename_i rest
    split at grouped
    · rename_i closed
      cases rest with
      | nil => simp at closed
      | cons c rest =>
          simp only [Option.some.injEq] at grouped
          simp [← grouped]
    · simp at grouped
  · simp at grouped

set_option linter.unusedVariables false in
/-- The outline of a text. -/
def ofText (text : List Char) : Outline :=
  combine .or <| (split .or (Text.trim text)).attach.map fun ⟨part, isPart⟩ =>
    combine .and <| (split .and part).attach.map fun ⟨operand, isOperand⟩ =>
      match grouped : ungroup? operand with
      | none => .clause operand
      | some inner => if Text.blank inner then .emptyGroup operand else ofText inner
termination_by text.length
decreasing_by
  have innerLength := length_of_ungroup? grouped
  have operandLength := length_le_of_mem_split isOperand
  have partLength := length_le_of_mem_split isPart
  have trimmedLength := Text.length_trim_le text
  omega

/-- The outline of one operand, where `inside` outlines the inside of a group. -/
def ofOperand (inside : List Char → Outline) (operand : List Char) : Outline :=
  match ungroup? operand with
  | none => .clause operand
  | some inner => if Text.blank inner then .emptyGroup operand else inside inner

/-- The outline of the operands of `and` in a text. -/
def ofConjunction (inside : List Char → Outline) (text : List Char) : Outline :=
  combine .and ((split .and text).map (ofOperand inside))

theorem map_attach_of_agree {parts : List (List Char)} {whole : List Char → Outline}
    {member : { part // part ∈ parts } → Outline} (agree : ∀ part, member part = whole part.1) :
    parts.attach.map member = parts.map whole := by
  have pointwise : member = whole ∘ Subtype.val := funext agree
  rw [pointwise, ← List.map_map, List.attach_map_subtype_val]

/-- The outline of a text level by level. -/
theorem ofText_eq (text : List Char) :
    ofText text = combine .or ((split .or (Text.trim text)).map (ofConjunction ofText)) := by
  rw [ofText]
  congr 1
  apply map_attach_of_agree
  intro part
  simp only [ofConjunction]
  congr 1
  apply map_attach_of_agree
  intro operand
  simp only [ofOperand]
  split <;> simp_all

/-- A text has at least one operand. -/
theorem split_ne_nil (connective : Connective) (text : List Char) : split connective text ≠ [] := by
  simp only [split, ne_eq, List.map_eq_nil_iff]
  cases cuts connective text <;> simp [pieces]

end Outline

end FlowLog
