import FlowLog.Proofs.Clause
import FlowLog.Proofs.Composition
import FlowLog.Proofs.Parse
import FlowLog.Schema.FlowRecords

/-!
# Where a filter is at fault

A filter text is taken apart into items: clauses, and groups with nothing in them. Every item is a
piece of the text, also where a letter `U+0130` has moved the cuts, because whatever the cuts are,
trimming, cutting and taking parentheses or quotes away leaves a piece of what was there before. The
first item that cannot be read decides the fault, and what the fault shows is this item or the value
in it.
-/

namespace FlowLog

/-! ## Pieces of a text -/

namespace Clause

/-- A text in which some operator occurs, in any letter case. -/
def HasOperator (text : List Char) : Prop := ∃ operator, bare operator <:+: Text.fold text

theorem stripQuotes_isInfix (text : List Char) : stripQuotes text <:+: text :=
  (List.rdropWhile_prefix isQuote _).isInfix.trans (List.dropWhile_suffix isQuote).isInfix

theorem ofText?_eq_none {text : List Char} : ofText? text = none ↔ ¬HasOperator text := by
  unfold ofText?
  split
  · next clause found =>
      simp only [reduceCtorEq, HasOperator, not_not, false_iff]
      by_contra absent
      have notFound : scan? spaced text = none :=
        scan?_eq_none.2 fun operator stands =>
          absent ⟨operator, (bare_isInfix_spaced operator).trans stands⟩
      simp [notFound] at found
  · simp [scan?_eq_none, HasOperator]

theorem value_isInfix {text : List Char} {clause : Clause} (located : ofText? text = some clause) :
    clause.value.toList <:+: text := by
  have ofScan : ∀ {word : Operator → List Char}, scan? word text = some clause →
      clause.value.toList <:+: text := by
    intro word scanned
    rcases List.exists_of_findSome?_eq_some scanned with ⟨operator, -, found⟩
    rcases Option.map_eq_some_iff.1 found with ⟨position, -, rfl⟩
    rw [cut, String.toList_ofList]
    exact (stripQuotes_isInfix _).trans ((Text.trim_isInfix _).trans (List.drop_suffix _ _).isInfix)
  unfold ofText? at located
  split at located
  · next spaced scanned => exact ofScan (located ▸ scanned)
  · exact ofScan located

end Clause

namespace Outline

theorem isInfix_of_mem_pieces {text piece : List Char} {width start : Nat} {positions : List Nat}
    (isPiece : piece ∈ pieces text width start positions) : piece <:+: text := by
  induction positions generalizing start with
  | nil =>
      simp only [pieces, List.mem_singleton] at isPiece
      subst isPiece
      exact (List.drop_suffix start text).isInfix
  | cons position rest ih =>
      simp only [pieces, List.mem_cons] at isPiece
      rcases isPiece with rfl | inRest
      · exact (List.drop_suffix _ _).isInfix.trans (List.take_prefix position text).isInfix
      · exact ih inRest

theorem isInfix_of_mem_split {connective : Connective} {text part : List Char}
    (isPart : part ∈ split connective text) : part <:+: text := by
  rcases List.mem_map.1 isPart with ⟨piece, isPiece, rfl⟩
  exact (Text.trim_isInfix piece).trans (isInfix_of_mem_pieces isPiece)

theorem isInfix_of_ungroup? {text inner : List Char} (grouped : ungroup? text = some inner) :
    inner <:+: text := by
  unfold ungroup? at grouped
  split at grouped
  · next rest =>
      simp only [Option.ite_none_right_eq_some, Option.some.injEq] at grouped
      rcases grouped with ⟨-, rfl⟩
      exact (List.dropLast_prefix rest).isInfix.trans (List.suffix_cons _ rest).isInfix
  · cases grouped

end Outline

/-! ## Items -/

/-- What is read on its own in a filter: a clause, or a group with nothing in it. -/
inductive Item where
  | clause (text : List Char)
  | emptyGroup (text : List Char)
  deriving DecidableEq, Repr

namespace Item

/-- The item as it stands in the filter. -/
def text : Item → List Char
  | .clause text => text
  | .emptyGroup text => text

/-- The expression of an item, where `read` reads clauses. -/
def toExpr (read : List Char → Except Filter.Error Expr) : Item → Except Filter.Error Expr
  | .clause text => read text
  | .emptyGroup text => .error (.emptyGroup (String.ofList text))

end Item

namespace Outline

mutual

/-- The items of an outline from left to right. -/
def items : Outline → List Item
  | .clause text => [.clause text]
  | .emptyGroup text => [.emptyGroup text]
  | .node _ parts => itemsAll parts

/-- The items of some outlines from left to right. -/
def itemsAll : List Outline → List Item
  | [] => []
  | part :: rest => items part ++ itemsAll rest

end

theorem itemsAll_eq_flatMap (parts : List Outline) : itemsAll parts = parts.flatMap items := by
  induction parts with
  | nil => rfl
  | cons part rest ih => rw [itemsAll, ih, List.flatMap_cons]

theorem items_combine (connective : Connective) (parts : List Outline) :
    (combine connective parts).items = parts.flatMap items := by
  match parts with
  | [] => rfl
  | [single] => simp [combine]
  | first :: second :: rest => rw [combine, items, itemsAll_eq_flatMap]; simp

theorem mem_items_combine_split {connective : Connective} {text : List Char}
    {outline : List Char → Outline} {item : Item}
    (isItem : item ∈ (combine connective ((split connective text).map outline)).items) :
    ∃ part ∈ split connective text, item ∈ (outline part).items := by
  simpa [items_combine] using isItem

/-- Every item is a piece of the text. -/
theorem isInfix_of_mem_items {text : List Char} {item : Item} (isItem : item ∈ (ofText text).items) :
    item.text <:+: text := by
  induction text using ofText.induct with
  | case1 text ih =>
      rw [ofText_eq] at isItem
      rcases mem_items_combine_split isItem with ⟨part, isPart, inPart⟩
      rcases mem_items_combine_split inPart with ⟨operand, isOperand, inOperand⟩
      have operandInfix : operand <:+: text :=
        (isInfix_of_mem_split isOperand).trans
          ((isInfix_of_mem_split isPart).trans (Text.trim_isInfix text))
      unfold ofOperand at inOperand
      split at inOperand
      · simp only [items, List.mem_singleton] at inOperand
        subst inOperand
        exact operandInfix
      · next inner grouped =>
          split at inOperand
          · simp only [items, List.mem_singleton] at inOperand
            subst inOperand
            exact operandInfix
          · have innerInfix := ih part isPart operand isOperand inner grouped inOperand
            exact innerInfix.trans ((isInfix_of_ungroup? grouped).trans operandInfix)

open Fallible (fault?)

variable {read : List Char → Except Filter.Error Expr}

mutual

/-- An outline is at fault where the first of its items is that cannot be read. -/
theorem fault?_toExpr : ∀ outline : Outline,
    fault? (outline.toExpr read) = outline.items.findSome? fun item => fault? (item.toExpr read)
  | .clause text => by simp [toExpr, items, Item.toExpr]
  | .emptyGroup text => by simp [toExpr, items, Item.toExpr, fault?]
  | .node connective parts => by
      rw [toExpr, items, ← fault?_toExprs parts]
      cases toExprs read parts <;> rfl

theorem fault?_toExprs : ∀ parts : List Outline,
    fault? (toExprs read parts) = (itemsAll parts).findSome? fun item => fault? (item.toExpr read)
  | [] => rfl
  | part :: rest => by
      rw [toExprs, itemsAll, List.findSome?_append, ← fault?_toExpr part, ← fault?_toExprs rest]
      cases toExpr read part with
      | error fault => rfl
      | ok child => cases toExprs read rest <;> rfl

end

end Outline

/-! ## Faults -/

/-- A fault shows at a stage and in a snippet, and it is not that a text field is compared by
order. -/
structure Filter.Error.Shows (fault : Error) (stage : Stage) (snippet : String) : Prop where
  stage_eq : fault.stage = stage
  snippet_eq : fault.snippet? = some snippet
  notUnordered : ∀ field operator, fault ≠ .unorderedText field operator

namespace FieldClass

variable {fieldClass : FieldClass} {field value : String} {operator : Operator} {fault : Filter.Error}

theorem shows_of_checkValue (refused : fieldClass.checkValue value = .error fault) :
    fault.Shows .parser value := by
  cases fieldClass with
  | port =>
      change checkPort value = .error fault at refused
      unfold checkPort at refused
      split at refused
      · cases refused
        exact ⟨rfl, rfl, by simp⟩
      · split at refused
        · cases refused
        · cases refused
          exact ⟨rfl, rfl, by simp⟩
  | _ => cases refused

theorem shows_of_addressCondition (refused : addressCondition field operator value = .error fault) :
    fault.Shows .parser value := by
  unfold addressCondition at refused
  dsimp only at refused
  split at refused
  · split at refused
    · cases refused
    · cases refused
      exact ⟨rfl, rfl, by simp⟩
  · split at refused
    · cases refused
    · split at refused
      · cases refused
      · cases refused
        exact ⟨rfl, rfl, by simp⟩

/-- A class that takes the operator finds fault with the value only. -/
theorem shows_of_condition (takes : operator ∈ fieldClass.operators)
    (refused : fieldClass.condition field operator value = .error fault) :
    fault.Shows .parser value := by
  cases fieldClass with
  | address => exact shows_of_addressCondition refused
  | port => cases refused
  | protocol => cases refused
  | numeric =>
      unfold condition numericCondition at refused
      dsimp only at refused
      split at refused
      · cases refused
      · cases refused
        exact ⟨rfl, rfl, by simp⟩
  | text =>
      simp only [operators, Operator.equality, List.mem_cons, List.not_mem_nil, or_false] at takes
      rcases takes with rfl | rfl | rfl | rfl <;> cases refused

end FieldClass

namespace Filter

variable {vocabulary : Vocabulary} {fault : Error}

theorem shows_of_readParts {text : List Char} {clause : Clause}
    (refused : readParts vocabulary text clause = .error fault) :
    fault.Shows .parser (String.ofList text) ∨ fault.Shows .parser clause.value := by
  unfold readParts at refused
  dsimp only at refused
  split at refused
  · cases refused
  · split at refused
    · cases refused
      exact Or.inl ⟨rfl, rfl, by simp⟩
    · next takes =>
        right
        rw [not_not] at takes
        rcases Fallible.bind_eq_error.1 refused with badValue | ⟨⟨⟩, -, noCondition⟩
        · exact FieldClass.shows_of_checkValue badValue
        · split at noCondition
          · rcases Fallible.bind_eq_error.1 noCondition with badCondition | ⟨condition, -, sourced⟩
            · exact FieldClass.shows_of_condition takes badCondition
            · cases sourced
          · exact FieldClass.shows_of_condition takes noCondition

/-- What an item that cannot be read shows: it shows at the lexer if it is a clause without an
operator. -/
theorem shows_of_item {item : Item} (refused : item.toExpr (readClause vocabulary) = .error fault) :
    (∃ snippet, snippet.toList <:+: item.text ∧ fault.Shows .lexer snippet ∧
        ∃ clause, item = .clause clause ∧ ¬Clause.HasOperator clause) ∨
      ∃ snippet, snippet.toList <:+: item.text ∧ fault.Shows .parser snippet ∧
        ∀ clause, item = .clause clause → Clause.HasOperator clause := by
  have whole : ∀ text : List Char, (String.ofList text).toList <:+: text := by simp
  cases item with
  | emptyGroup text =>
      cases refused
      exact Or.inr ⟨_, whole text, ⟨rfl, rfl, by simp⟩, by simp⟩
  | clause text =>
      change readClause vocabulary text = .error fault at refused
      unfold readClause at refused
      split at refused
      · next missing =>
          cases refused
          exact Or.inl ⟨_, whole text, ⟨rfl, rfl, by simp⟩, text, rfl, Clause.ofText?_eq_none.1 missing⟩
      · next clause located =>
          have hasOperator : ∀ other, Item.clause text = .clause other → Clause.HasOperator other := by
            rintro other ⟨⟩
            by_contra missing
            simp [Clause.ofText?_eq_none.2 missing] at located
          right
          split at refused
          · cases refused
            exact ⟨_, whole text, ⟨rfl, rfl, by simp⟩, hasOperator⟩
          · rcases shows_of_readParts refused with showsClause | showsValue
            · exact ⟨_, whole text, showsClause, hasOperator⟩
            · exact ⟨_, Clause.value_isInfix located, showsValue, hasOperator⟩

/-- Reading a text fails at an item if those before it can be read and it cannot. -/
def FailsAt (vocabulary : Vocabulary) (text : List Char) (item : Item) (fault : Error) : Prop :=
  ∃ before after, (Outline.ofText text).items = before ++ item :: after ∧
    (∀ earlier ∈ before, ∃ expr, earlier.toExpr (readClause vocabulary) = .ok expr) ∧
    item.toExpr (readClause vocabulary) = .error fault

theorem exists_failsAt {text : String} (refused : parse vocabulary text = .error fault) :
    ∃ item, FailsAt vocabulary text.toList item fault := by
  unfold parse at refused
  split at refused
  · cases refused
  · have fails : readExpr vocabulary (Text.trim text.toList) = .error fault := by
      cases attempt : readExpr vocabulary (Text.trim text.toList) with
      | ok expr => simp [attempt, Except.map] at refused
      | error other =>
          rw [attempt] at refused
          cases refused
          rfl
    rw [readExpr, Outline.ofText_trim, ← Fallible.fault?_eq_some, Outline.fault?_toExpr,
      List.findSome?_eq_some_iff] at fails
    rcases fails with ⟨before, item, after, listed, isFault, accepted⟩
    refine ⟨item, before, after, listed, ?_, Fallible.fault?_eq_some.1 isFault⟩
    intro earlier isBefore
    exact Fallible.fault?_eq_none.1 (accepted earlier isBefore)

/-- A filter that is refused fails at one of its items, which is a piece of the text. The fault
shows at the lexer if the item is a clause without an operator and else at the parser, and it shows
a piece of the text. That a text field is compared by order is never the fault: the operator is
refused before. -/
theorem parse_fault_shows {text : String} (refused : parse vocabulary text = .error fault) :
    ∃ item, FailsAt vocabulary text.toList item fault ∧ item.text <:+: text.toList ∧
      (fault.stage = .lexer ∨ fault.stage = .parser) ∧
      (∃ snippet, fault.snippet? = some snippet ∧ snippet.toList <:+: text.toList) ∧
      (fault.stage = .lexer ↔ ∃ clause, item = .clause clause ∧ ¬Clause.HasOperator clause) ∧
      ∀ field operator, fault ≠ .unorderedText field operator := by
  rcases exists_failsAt refused with ⟨item, failsAt⟩
  rcases id failsAt with ⟨before, after, listed, -, fails⟩
  have isPiece : item.text <:+: text.toList := Outline.isInfix_of_mem_items (by simp [listed])
  refine ⟨item, failsAt, isPiece, ?_⟩
  rcases shows_of_item fails with
    ⟨snippet, inItem, shows, noOperator⟩ | ⟨snippet, inItem, shows, hasOperator⟩
  · have atLexer := shows.stage_eq
    exact ⟨Or.inl atLexer, ⟨snippet, shows.snippet_eq, inItem.trans isPiece⟩,
      iff_of_true atLexer noOperator, shows.notUnordered⟩
  · have atParser := shows.stage_eq
    refine ⟨Or.inr atParser, ⟨snippet, shows.snippet_eq, inItem.trans isPiece⟩, ?_, shows.notUnordered⟩
    refine iff_of_false (by simp [atParser]) ?_
    rintro ⟨clause, isClause, noOperator⟩
    exact noOperator (hasOperator clause isClause)

/-- A letter `U+0130` moves the cut behind the connective, and a value behind it is at fault. -/
theorem parse_fault_shows_behind_cut :
    let vocabulary := Vocabulary.ofSchema .flowRecords .flowRecords
    let text := "tag = \u0130 and  dstport = 99999"
    let fault : Error := .portOutOfRange "99999" 99999
    parse vocabulary text = .error fault ∧
      ∃ item, FailsAt vocabulary text.toList item fault ∧ item.text <:+: text.toList ∧
        ∃ snippet, fault.snippet? = some snippet ∧ snippet.toList <:+: text.toList := by
  intro vocabulary text fault
  have refused : parse vocabulary text = .error fault := by
    rw [parse, if_neg (by decide), readExpr, Outline.ofText_eq]
    exact Fallible.fault?_eq_some.1 (by decide +kernel)
  rcases parse_fault_shows refused with ⟨item, failsAt, isPiece, -, snippet, -, -⟩
  exact ⟨refused, item, failsAt, isPiece, snippet⟩

end Filter

end FlowLog
