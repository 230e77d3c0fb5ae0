import Mathlib.Data.List.Nodup
import Mathlib.Tactic.Choose
import FlowLog.Schema.FlowRecords
import FlowLog.Proofs.Check
import FlowLog.Proofs.Phrase

/-!
# The meaning of rendered expressions

Rendering puts an `or` in parentheses always and an `and` never. Read by precedence, the text of an
`and` is a conjunction and stays one inside another `and`. Behind a `not` it does not stay one
operand: the negation takes its first operand and leaves the others.

`Expr.conjuncts` follows this through an expression. `Expr.covered` says when no harm is done, which
depends on how many negations stand directly in front of an `and` with several operands: an even
number takes nothing from its first operand.
-/

namespace FlowLog.Expr

mutual

/-- The tokens of a rendered expression. -/
def tokens : Expr → List Token
  | .leaf condition => [.leaf condition]
  | .node .and children => [Token.connective .and].intercalate (tokensAll children)
  | .node .or [] => []
  | .node .or children =>
      .opening :: ([Token.connective .or].intercalate (tokensAll children) ++ [.closing])
  | .not child => .not :: tokens child

/-- The tokens of some rendered expressions. -/
def tokensAll : List Expr → List (List Token)
  | [] => []
  | child :: rest => tokens child :: tokensAll rest

end

theorem tokensAll_eq_map (children : List Expr) : tokensAll children = children.map tokens := by
  induction children with
  | nil => rfl
  | cons child rest ih => rw [tokensAll, ih, List.map_cons]

theorem tokens_and (children : List Expr) :
    (Expr.node .and children).tokens = [Token.connective .and].intercalate (children.map tokens) := by
  rw [tokens, tokensAll_eq_map]

theorem tokens_or {children : List Expr} (nonempty : children ≠ []) :
    (Expr.node .or children).tokens =
      .opening :: ([Token.connective .or].intercalate (children.map tokens) ++ [.closing]) := by
  rcases List.exists_cons_of_ne_nil nonempty with ⟨first, rest, rfl⟩
  rw [tokens, tokensAll_eq_map]
  simp

theorem textOf_intercalate (connective : Connective) (children : List Expr)
    (written : ∀ child ∈ children, Token.textOf child.tokens = child.render) :
    Token.textOf ([Token.connective connective].intercalate (children.map tokens)) =
      (Token.connective connective).text.intercalate (children.map render) := by
  induction children with
  | nil => simp [List.intercalate]
  | cons child rest ih =>
      rw [List.forall_mem_cons] at written
      have later := ih written.2
      cases rest with
      | nil => simp [List.intercalate, written.1]
      | cons next rest =>
          simp only [List.map_cons] at later ⊢
          rw [String.intercalate_cons_cons, ← later, ← written.1]
          simp [List.intercalate, String.append_assoc]

/-- The text of an expression is that of its tokens. -/
theorem textOf_tokens (expr : Expr) : Token.textOf expr.tokens = expr.render := by
  induction expr with
  | leaf condition => simp [tokens, render, Token.text]
  | node connective children ih =>
      cases connective with
      | and =>
          rw [tokens_and, render_and, textOf_intercalate .and children ih]
          rfl
      | or =>
          cases children with
          | nil => rfl
          | cons first rest =>
              have nonempty := List.cons_ne_nil first rest
              rw [tokens_or nonempty, render_or nonempty, Token.textOf_cons, Token.textOf_append,
                textOf_intercalate .or _ ih]
              rfl
  | not child ih =>
      rw [tokens, render, Token.textOf_cons, ih]
      rfl

/-! ## The conjunction that is read -/

mutual

/-- The values of the operands of the conjunction that a rendered expression is read as. -/
def conjuncts (assignment : Leaf → Bool) : Expr → List Bool
  | .leaf condition => [assignment condition]
  | .node .and children => (conjunctsAll assignment children).flatten
  | .node .or children => [(conjunctsAll assignment children).any (·.all id)]
  | .not child => (conjuncts assignment child).modifyHead Bool.not

/-- The values of the operands for some expressions. -/
def conjunctsAll (assignment : Leaf → Bool) : List Expr → List (List Bool)
  | [] => []
  | child :: rest => conjuncts assignment child :: conjunctsAll assignment rest

end

theorem conjunctsAll_eq_map (assignment : Leaf → Bool) (children : List Expr) :
    conjunctsAll assignment children = children.map (conjuncts assignment) := by
  induction children with
  | nil => rfl
  | cons child rest ih => rw [conjunctsAll, ih, List.map_cons]

theorem conjuncts_and (assignment : Leaf → Bool) (children : List Expr) :
    (Expr.node .and children).conjuncts assignment = children.flatMap (conjuncts assignment) := by
  rw [conjuncts, conjunctsAll_eq_map, List.flatMap]

theorem conjuncts_or (assignment : Leaf → Bool) (children : List Expr) :
    (Expr.node .or children).conjuncts assignment =
      [children.any fun child => (child.conjuncts assignment).all id] := by
  rw [conjuncts, conjunctsAll_eq_map, List.any_map]
  rfl

/-- A conjunction with the tokens of a rendered expression. -/
structure ReadAs (expr : Expr) (reading : Phrase (.joined .and)) : Prop where
  tokens_eq : reading.tokens = expr.tokens
  values_eq : ∀ assignment,
    reading.operands.map (Phrase.value assignment) = expr.conjuncts assignment

theorem ReadAs.value_eq {expr : Expr} {reading : Phrase (.joined .and)} (readAs : expr.ReadAs reading)
    (assignment : Leaf → Bool) :
    reading.value assignment = (expr.conjuncts assignment).all id := by
  rw [Phrase.value_conjunction, ← readAs.values_eq, List.all_map]
  rfl

theorem exists_readAs_and {first : Expr} {rest : List Expr}
    (each : ∀ child ∈ first :: rest, ∃ reading, child.ReadAs reading) :
    ∃ reading, (Expr.node .and (first :: rest)).ReadAs reading := by
  have : Nonempty (Phrase (.joined .and)) := (each first List.mem_cons_self).nonempty
  choose! reading readAs using each
  refine ⟨Phrase.join (reading first) (rest.map reading), ?_, ?_⟩
  · rw [Phrase.tokens_join, tokens_and, ← List.map_cons, List.map_map]
    congr 1
    apply List.map_congr_left
    intro child isChild
    exact (readAs child isChild).tokens_eq
  · intro assignment
    rw [Phrase.operands_join, conjuncts_and, ← List.map_cons, List.map_flatMap, List.flatMap_map]
    apply List.flatMap_congr
    intro child isChild
    exact (readAs child isChild).values_eq assignment

theorem exists_readAs_or {first : Expr} {rest : List Expr}
    (each : ∀ child ∈ first :: rest, ∃ reading, child.ReadAs reading) :
    ∃ reading, (Expr.node .or (first :: rest)).ReadAs reading := by
  have : Nonempty (Phrase (.joined .and)) := (each first List.mem_cons_self).nonempty
  choose! reading readAs using each
  let alternatives := fun child => Phrase.single .or (reading child)
  refine ⟨.single .and (.group (Phrase.join (alternatives first) (rest.map alternatives))), ?_, ?_⟩
  · have inner : (Phrase.join (alternatives first) (rest.map alternatives)).tokens =
        [Token.connective .or].intercalate ((first :: rest).map tokens) := by
      rw [Phrase.tokens_join, ← List.map_cons, List.map_map]
      congr 1
      apply List.map_congr_left
      intro child isChild
      exact (readAs child isChild).tokens_eq
    rw [tokens_or (List.cons_ne_nil first rest), ← inner, Phrase.tokens, Phrase.tokens]
  · intro assignment
    have inner : (Phrase.join (alternatives first) (rest.map alternatives)).value assignment =
        (first :: rest).any fun child => (child.conjuncts assignment).all id := by
      rw [Phrase.value_disjunction, Phrase.operands_join, ← List.map_cons, List.flatMap_map,
        List.any_flatMap]
      apply any_congr_children
      intro child isChild
      rw [Phrase.operands_single, List.any_cons, List.any_nil, Bool.or_false]
      exact (readAs child isChild).value_eq assignment
    rw [conjuncts_or, ← inner, Phrase.operands_single]
    rfl

/-- The text of a populated expression is read as a conjunction. -/
theorem Populated.exists_readAs {expr : Expr} (populated : expr.Populated) :
    ∃ reading, expr.ReadAs reading := by
  induction populated with
  | leaf condition =>
      refine ⟨.single .and (.leaf condition), rfl, ?_⟩
      intro assignment
      rw [Phrase.operands_single]
      rfl
  | @node connective children nonempty _ ih =>
      rcases List.exists_cons_of_ne_nil nonempty with ⟨first, rest, rfl⟩
      cases connective with
      | and => exact exists_readAs_and ih
      | or => exact exists_readAs_or ih
  | not _ ih =>
      rcases ih with ⟨reading, readAs⟩
      refine ⟨reading.negateFirst, ?_, ?_⟩
      · rw [Phrase.tokens_negateFirst, readAs.tokens_eq, tokens]
      · intro assignment
        rw [Phrase.values_negateFirst, readAs.values_eq, conjuncts]

/-! ## What negations cover -/

mutual

/-- Whether every negation covers all that it stands in front of. `negated` says whether an odd
number of negations stand directly in front of the expression itself. -/
def covered (negated : Bool) : Expr → Bool
  | .leaf _ => true
  | .node .and [child] => covered negated child
  | .node .and children => !negated && coveredAll children
  | .node .or children => coveredAll children
  | .not child => covered (!negated) child

/-- Whether this is so in some expressions with no negation in front of them. -/
def coveredAll : List Expr → Bool
  | [] => true
  | child :: rest => covered false child && coveredAll rest

end

theorem coveredAll_eq_all (children : List Expr) :
    coveredAll children = children.all (covered false) := by
  induction children with
  | nil => rfl
  | cons child rest ih => rw [coveredAll, ih, List.all_cons]

theorem covered_or (negated : Bool) (children : List Expr) :
    (Expr.node .or children).covered negated = children.all (covered false) := by
  rw [covered, coveredAll_eq_all]

theorem covered_and_of_ne_single (negated : Bool) {children : List Expr}
    (notSingle : ∀ child, children ≠ [child]) :
    (Expr.node .and children).covered negated = (!negated && children.all (covered false)) := by
  rw [covered, coveredAll_eq_all]
  exact notSingle

/-- The value that is read behind an even or an odd number of negations. -/
def valueRead (negated : Bool) (assignment : Leaf → Bool) (expr : Expr) : Bool :=
  ((expr.conjuncts assignment).modifyHead (negated ^^ ·)).all id

theorem valueRead_false (assignment : Leaf → Bool) (expr : Expr) :
    expr.valueRead false assignment = (expr.conjuncts assignment).all id := by
  cases read : expr.conjuncts assignment <;> simp [valueRead, read]

theorem valueRead_leaf (negated : Bool) (assignment : Leaf → Bool) (condition : Leaf) :
    (Expr.leaf condition).valueRead negated assignment = (negated ^^ assignment condition) := by
  simp [valueRead, conjuncts]

theorem valueRead_not (negated : Bool) (assignment : Leaf → Bool) (child : Expr) :
    (Expr.not child).valueRead negated assignment = child.valueRead (!negated) assignment := by
  cases read : child.conjuncts assignment <;> simp [valueRead, conjuncts, read]

theorem valueRead_single (negated : Bool) (assignment : Leaf → Bool) (child : Expr) :
    (Expr.node .and [child]).valueRead negated assignment = child.valueRead negated assignment := by
  rw [valueRead, conjuncts_and, List.flatMap_singleton, valueRead]

theorem valueRead_and (assignment : Leaf → Bool) (children : List Expr) :
    (Expr.node .and children).valueRead false assignment =
      children.all (valueRead false assignment) := by
  rw [valueRead_false, conjuncts_and, List.all_flatMap]
  exact List.all_congr rfl fun child => (valueRead_false assignment child).symm

theorem valueRead_or (negated : Bool) (assignment : Leaf → Bool) (children : List Expr) :
    (Expr.node .or children).valueRead negated assignment =
      (negated ^^ children.any (valueRead false assignment)) := by
  rw [valueRead, conjuncts_or, List.any_congr rfl fun child => (valueRead_false assignment child).symm]
  simp

theorem text_eq_render {expr : Expr} {reading : Phrase (.joined .or)}
    (tokens_eq : reading.tokens = expr.tokens) : reading.text = expr.render := by
  rw [Phrase.text, tokens_eq, textOf_tokens]

theorem Populated.exists_reading {expr : Expr} (populated : expr.Populated) :
    ∃ reading : Phrase (.joined .or), reading.tokens = expr.tokens ∧
      ∀ assignment, reading.value assignment = expr.valueRead false assignment := by
  rcases populated.exists_readAs with ⟨conjunction, readAs⟩
  refine ⟨.single .or conjunction, ?_, ?_⟩
  · rw [Phrase.tokens, readAs.tokens_eq]
  · intro assignment
    rw [Phrase.value, readAs.value_eq, valueRead_false]

/-- An expression is read as it is meant if negations cover what they stand in front of. -/
theorem valueRead_of_covered {negated : Bool} {expr : Expr} (isCovered : expr.covered negated = true)
    (assignment : Leaf → Bool) :
    expr.valueRead negated assignment = (negated ^^ expr.value assignment) := by
  induction expr generalizing negated with
  | leaf condition => rw [valueRead_leaf, value]
  | node connective children ih =>
      have childrenRead : children.all (covered false) = true → ∀ child ∈ children,
          child.valueRead false assignment = child.value assignment := by
        intro each child isChild
        rw [ih child isChild (List.all_eq_true.1 each child isChild), Bool.false_xor]
      cases connective with
      | and =>
          by_cases single : ∃ child, children = [child]
          · rcases single with ⟨child, rfl⟩
            rw [covered] at isCovered
            rw [valueRead_single, ih child List.mem_cons_self isCovered, value_and, List.all_cons,
              List.all_nil, Bool.and_true]
          · rw [covered_and_of_ne_single negated fun child isSingle => single ⟨child, isSingle⟩,
              Bool.and_eq_true, Bool.not_eq_true'] at isCovered
            rw [isCovered.1, valueRead_and, value_and, Bool.false_xor,
              all_congr_children (childrenRead isCovered.2)]
      | or =>
          rw [covered_or] at isCovered
          rw [valueRead_or, value_or, any_congr_children (childrenRead isCovered)]
  | not child ih =>
      rw [covered] at isCovered
      rw [valueRead_not, ih isCovered, value, Bool.not_xor, Bool.xor_not]

/-! ## Misreadings

Where no leaf occurs twice, an expression that is not covered has an assignment under which it is
read otherwise than it is meant. Leaves of different children are then different, so values for the
children can be chosen one by one. -/

theorem conjuncts_congr {first second : Leaf → Bool} {expr : Expr}
    (agree : ∀ condition ∈ expr.leaves, first condition = second condition) :
    expr.conjuncts first = expr.conjuncts second := by
  induction expr with
  | leaf condition => simpa [conjuncts, leaves] using agree
  | node connective children ih =>
      simp only [leaves_node, List.mem_flatMap, forall_exists_index, and_imp] at agree
      have same : children.map (conjuncts first) = children.map (conjuncts second) := by
        apply List.map_congr_left
        intro child isChild
        exact ih child isChild fun condition isLeaf => agree condition child isChild isLeaf
      cases connective with
      | and => rw [conjuncts, conjuncts, conjunctsAll_eq_map, conjunctsAll_eq_map, same]
      | or => rw [conjuncts, conjuncts, conjunctsAll_eq_map, conjunctsAll_eq_map, same]
  | not child ih => rw [conjuncts, conjuncts, ih agree]

theorem valueRead_congr {first second : Leaf → Bool} {expr : Expr}
    (agree : ∀ condition ∈ expr.leaves, first condition = second condition) {negated : Bool} :
    expr.valueRead negated first = expr.valueRead negated second := by
  rw [valueRead, valueRead, conjuncts_congr agree]

theorem conjuncts_ne_nil {expr : Expr} (populated : expr.Populated) (assignment : Leaf → Bool) :
    expr.conjuncts assignment ≠ [] := by
  rcases populated.exists_readAs with ⟨reading, readAs⟩
  rw [← readAs.values_eq]
  cases reading <;> simp

theorem exists_agreeing {conditions conditions' : List Leaf} (disjoint : conditions.Disjoint conditions')
    (first second : Leaf → Bool) :
    ∃ assignment : Leaf → Bool, (∀ condition ∈ conditions, first condition = assignment condition) ∧
      ∀ condition ∈ conditions', second condition = assignment condition := by
  refine ⟨fun condition => if condition ∈ conditions then first condition else second condition, ?_, ?_⟩
  · intro condition isLeaf
    exact (if_pos isLeaf).symm
  · intro condition isLeaf
    exact (if_neg fun isOther => disjoint isOther isLeaf).symm

/-- Assignments chosen for each child can be made one. -/
theorem exists_common {holds : Expr → (Leaf → Bool) → Prop}
    (onLeaves : ∀ child first second,
      (∀ condition ∈ child.leaves, first condition = second condition) →
      holds child first → holds child second)
    {children : List Expr} (distinct : (children.flatMap leaves).Nodup)
    (each : ∀ child ∈ children, ∃ assignment, holds child assignment) :
    ∃ assignment, ∀ child ∈ children, holds child assignment := by
  induction children with
  | nil => exact ⟨fun _ => true, by simp⟩
  | cons child rest ih =>
      rw [List.flatMap_cons, List.nodup_append'] at distinct
      rcases distinct with ⟨-, restDistinct, disjoint⟩
      rw [List.forall_mem_cons] at each
      rcases each with ⟨⟨first, firstHolds⟩, restEach⟩
      rcases ih restDistinct restEach with ⟨second, secondHolds⟩
      rcases exists_agreeing disjoint first second with ⟨assignment, onChild, onRest⟩
      refine ⟨assignment, List.forall_mem_cons.2 ⟨onLeaves child first _ onChild firstHolds, ?_⟩⟩
      intro later isLater
      apply onLeaves later second _ _ (secondHolds later isLater)
      intro condition isLeaf
      exact onRest condition (List.mem_flatMap.2 ⟨later, isLater, isLeaf⟩)

/-- The expression has a value, and the first operand that is read carries it alone. -/
structure Settles (bit : Bool) (expr : Expr) (assignment : Leaf → Bool) : Prop where
  value_eq : expr.value assignment = bit
  conjuncts_eq : ∃ others, expr.conjuncts assignment = bit :: others ∧ others.all id = true

theorem Settles.congr {bit : Bool} (expr : Expr) (first second : Leaf → Bool)
    (agree : ∀ condition ∈ expr.leaves, first condition = second condition)
    (settles : expr.Settles bit first) : expr.Settles bit second := by
  rcases settles with ⟨value_eq, conjuncts_eq⟩
  rw [value_congr agree] at value_eq
  rw [conjuncts_congr agree] at conjuncts_eq
  exact ⟨value_eq, conjuncts_eq⟩

theorem Settles.valueRead_eq {bit : Bool} {expr : Expr} {assignment : Leaf → Bool}
    (settles : expr.Settles bit assignment) : expr.valueRead false assignment = bit := by
  rcases settles.conjuncts_eq with ⟨others, shape, hold⟩
  rw [valueRead_false, shape, List.all_cons, hold, Bool.and_true, id]

theorem exists_settles_cons {bit neutral : Bool} {first : Expr} {rest : List Expr}
    (distinct : ((first :: rest).flatMap leaves).Nodup)
    (firstSettles : ∃ assignment, first.Settles bit assignment)
    (restSettle : ∀ child ∈ rest, ∃ assignment, child.Settles neutral assignment) :
    ∃ assignment, first.Settles bit assignment ∧
      ∀ child ∈ rest, child.Settles neutral assignment := by
  rw [List.flatMap_cons, List.nodup_append'] at distinct
  rcases distinct with ⟨-, restDistinct, disjoint⟩
  rcases firstSettles with ⟨firstAssignment, settles⟩
  rcases exists_common Settles.congr restDistinct restSettle with ⟨restAssignment, settle⟩
  rcases exists_agreeing disjoint firstAssignment restAssignment with ⟨assignment, onFirst, onRest⟩
  refine ⟨assignment, Settles.congr first _ _ onFirst settles, ?_⟩
  intro child isChild
  apply Settles.congr child _ _ _ (settle child isChild)
  intro condition isLeaf
  exact onRest condition (List.mem_flatMap.2 ⟨child, isChild, isLeaf⟩)

/-- Either value can be had, with the first child deciding it. -/
theorem Populated.exists_settles {expr : Expr} (populated : expr.Populated)
    (distinct : expr.leaves.Nodup) (bit : Bool) : ∃ assignment, expr.Settles bit assignment := by
  induction populated generalizing bit with
  | leaf condition => exact ⟨fun _ => bit, rfl, [], rfl, rfl⟩
  | @node connective children nonempty _ ih =>
      rw [leaves_node] at distinct
      have childDistinct := (List.nodup_flatMap.1 distinct).1
      have eachSettles : ∀ bit, ∀ child ∈ children, ∃ assignment, child.Settles bit assignment :=
        fun bit child isChild => ih child isChild (childDistinct child isChild) bit
      rcases List.exists_cons_of_ne_nil nonempty with ⟨first, rest, rfl⟩
      have withNeutral : ∀ neutral, ∃ assignment, first.Settles bit assignment ∧
          ∀ child ∈ rest, child.Settles neutral assignment := fun neutral =>
        exists_settles_cons distinct (eachSettles bit first List.mem_cons_self) fun child isChild =>
          eachSettles neutral child (List.mem_cons_of_mem first isChild)
      cases connective with
      | and =>
          rcases withNeutral true with ⟨assignment, settles, settle⟩
          rcases settles.conjuncts_eq with ⟨others, shape, hold⟩
          refine ⟨assignment, ?_, others ++ rest.flatMap (conjuncts assignment), ?_, ?_⟩
          · rw [value_and, List.all_cons, settles.value_eq,
              all_congr_children fun child isChild => (settle child isChild).value_eq]
            simp
          · rw [conjuncts_and, List.flatMap_cons, shape, List.cons_append]
          · rw [List.all_append, hold, List.all_flatMap, Bool.true_and, List.all_eq_true]
            intro child isChild
            rw [← valueRead_false, (settle child isChild).valueRead_eq]
      | or =>
          rcases withNeutral false with ⟨assignment, settles, settle⟩
          refine ⟨assignment, ?_, [], ?_, rfl⟩
          · rw [value_or, List.any_cons, settles.value_eq,
              any_congr_children fun child isChild => (settle child isChild).value_eq]
            simp
          · rw [conjuncts_or, List.any_cons, ← valueRead_false, settles.valueRead_eq,
              any_congr_children fun child isChild => by
                rw [← valueRead_false, (settle child isChild).valueRead_eq]]
            simp
  | not _ ih =>
      rcases ih distinct (!bit) with ⟨assignment, settles⟩
      rcases settles.conjuncts_eq with ⟨others, shape, hold⟩
      refine ⟨assignment, ?_, others, ?_, hold⟩
      · rw [value, settles.value_eq, Bool.not_not]
      · rw [conjuncts, shape, List.modifyHead_cons, Bool.not_not]

theorem all_eq_of_others {children : List Expr} {test : Expr → Bool} {bad : Expr}
    (isChild : bad ∈ children) (others : ∀ child ∈ children, child ≠ bad → test child = true) :
    children.all test = test bad := by
  rw [Bool.eq_iff_iff, List.all_eq_true]
  constructor
  · intro each
    exact each bad isChild
  · intro badHolds child isOther
    by_cases isBad : child = bad
    · rw [isBad, badHolds]
    · exact others child isOther isBad

theorem any_eq_of_others {children : List Expr} {test : Expr → Bool} {bad : Expr}
    (isChild : bad ∈ children) (others : ∀ child ∈ children, child ≠ bad → test child = false) :
    children.any test = test bad := by
  rw [Bool.eq_iff_iff, List.any_eq_true]
  constructor
  · rintro ⟨child, isOther, holds⟩
    by_cases isBad : child = bad
    · rwa [← isBad]
    · rw [others child isOther isBad] at holds
      cases holds
  · intro badHolds
    exact ⟨bad, isChild, badHolds⟩

/-- A misread child among siblings that have no influence. -/
theorem exists_misread_child (neutral : Bool) {children : List Expr} {bad : Expr}
    (isChild : bad ∈ children)
    (distinct : (children.flatMap leaves).Nodup)
    (misread : ∃ assignment, bad.valueRead false assignment ≠ bad.value assignment)
    (settle : ∀ child ∈ children, ∃ assignment, child.Settles neutral assignment) :
    ∃ assignment, bad.valueRead false assignment ≠ bad.value assignment ∧
      ∀ child ∈ children, child ≠ bad → child.Settles neutral assignment := by
  have common : ∃ assignment, ∀ child ∈ children,
      (child = bad → child.valueRead false assignment ≠ child.value assignment) ∧
      (child ≠ bad → child.Settles neutral assignment) := by
    refine exists_common ?_ distinct ?_
    · intro child first second agree holds
      rw [← valueRead_congr agree, ← value_congr agree]
      exact ⟨holds.1, fun notBad => Settles.congr child first second agree (holds.2 notBad)⟩
    · intro child isOther
      by_cases isBad : child = bad
      · rw [isBad]
        exact misread.imp fun _ isMisread => ⟨fun _ => isMisread, fun notBad => absurd rfl notBad⟩
      · exact (settle child isOther).imp fun _ settles =>
          ⟨fun isSame => absurd isSame isBad, fun _ => settles⟩
  rcases common with ⟨assignment, holds⟩
  exact ⟨assignment, (holds bad isChild).1 rfl, fun child isOther => (holds child isOther).2⟩

/-- A negation in front of two operands or more takes only the first of them. -/
theorem exists_misread_and {first second : Expr} {rest : List Expr} (populated : first.Populated)
    (settles : ∃ assignment, second.Settles false assignment) :
    ∃ assignment, (Expr.node .and (first :: second :: rest)).valueRead true assignment ≠
      (true ^^ (Expr.node .and (first :: second :: rest)).value assignment) := by
  rcases settles with ⟨assignment, settles⟩
  refine ⟨assignment, ?_⟩
  rcases List.exists_cons_of_ne_nil (conjuncts_ne_nil populated assignment) with
    ⟨taken, others, firstShape⟩
  rcases settles.conjuncts_eq with ⟨later, secondShape, -⟩
  rw [valueRead, conjuncts_and, value_and, List.flatMap_cons, List.flatMap_cons, firstShape, secondShape,
    List.all_cons, List.all_cons, settles.value_eq]
  simp

/-- Where no leaf occurs twice, negations that do not cover enough change the meaning. -/
theorem Populated.exists_misread {expr : Expr} (populated : expr.Populated)
    (distinct : expr.leaves.Nodup) {negated : Bool} (uncovered : expr.covered negated = false) :
    ∃ assignment, expr.valueRead negated assignment ≠ (negated ^^ expr.value assignment) := by
  induction populated generalizing negated with
  | leaf condition => simp [covered] at uncovered
  | @node connective children nonempty each ih =>
      rw [leaves_node] at distinct
      have childDistinct := (List.nodup_flatMap.1 distinct).1
      have eachSettles : ∀ bit, ∀ child ∈ children, ∃ assignment, child.Settles bit assignment :=
        fun bit child isChild => (each child isChild).exists_settles (childDistinct child isChild) bit
      have withNeutral : children.all (covered false) = false → ∀ neutral, ∃ bad ∈ children,
          ∃ assignment, bad.valueRead false assignment ≠ bad.value assignment ∧
            ∀ child ∈ children, child ≠ bad → child.Settles neutral assignment := by
        intro someUncovered neutral
        rcases List.all_eq_false.1 someUncovered with ⟨bad, isChild, badUncovered⟩
        have misread := ih bad isChild (childDistinct bad isChild) (Bool.eq_false_iff.2 badUncovered)
        simp only [Bool.false_xor] at misread
        exact ⟨bad, isChild, exists_misread_child neutral isChild distinct misread (eachSettles neutral)⟩
      cases connective with
      | and =>
          by_cases single : ∃ child, children = [child]
          · rcases single with ⟨child, rfl⟩
            rw [covered] at uncovered
            rcases ih child List.mem_cons_self
              (childDistinct child List.mem_cons_self) uncovered with
              ⟨assignment, misread⟩
            refine ⟨assignment, ?_⟩
            rwa [valueRead_single, value_and, List.all_cons, List.all_nil, Bool.and_true]
          · rw [covered_and_of_ne_single negated
              fun child isSingle => single ⟨child, isSingle⟩] at uncovered
            cases negated with
            | false =>
                rcases withNeutral (by simpa using uncovered) true with
                  ⟨bad, isChild, assignment, misread, settle⟩
                refine ⟨assignment, ?_⟩
                rwa [valueRead_and, value_and, Bool.false_xor,
                  all_eq_of_others isChild fun child isOther notBad =>
                    (settle child isOther notBad).valueRead_eq,
                  all_eq_of_others isChild fun child isOther notBad =>
                    (settle child isOther notBad).value_eq]
            | true =>
                match children with
                | [] => exact absurd rfl nonempty
                | [child] => exact absurd ⟨child, rfl⟩ single
                | first :: second :: rest =>
                    exact exists_misread_and (each first (by simp)) (eachSettles false second (by simp))
      | or =>
          rw [covered_or] at uncovered
          rcases withNeutral uncovered false with ⟨bad, isChild, assignment, misread, settle⟩
          refine ⟨assignment, ?_⟩
          rw [valueRead_or, value_or,
            any_eq_of_others isChild fun child isOther notBad =>
              (settle child isOther notBad).valueRead_eq,
            any_eq_of_others isChild fun child isOther notBad => (settle child isOther notBad).value_eq]
          simpa using misread
  | not _ ih =>
      rw [covered] at uncovered
      rcases ih distinct uncovered with ⟨assignment, misread⟩
      refine ⟨assignment, ?_⟩
      rwa [valueRead_not, value, Bool.xor_not, ← Bool.not_xor]

end FlowLog.Expr

namespace FlowLog.Filter

/-- An accepted expression is written in a way that has exactly one reading. It is read as it is
meant if negations cover what they stand in front of, and where no leaf occurs twice only then. -/
theorem exists_unique_reading {schema : Schema} {version : Number} {expr : Expr}
    (accepted : check schema version expr = .ok ()) :
    ∃ reading : Phrase (.joined .or),
      reading.text = expr.render ∧ reading.tokens = expr.tokens ∧
      (∀ other : Phrase (.joined .or), other.tokens = expr.tokens → other = reading) ∧
      (expr.covered false = true →
        ∀ assignment, reading.value assignment = expr.value assignment) ∧
      (expr.leaves.Nodup → (∀ assignment, reading.value assignment = expr.value assignment) →
        expr.covered false = true) := by
  have populated := populated_of_check accepted
  rcases populated.exists_reading with ⟨reading, tokens_eq, value_eq⟩
  refine ⟨reading, Expr.text_eq_render tokens_eq, tokens_eq, ?_, ?_, ?_⟩
  · intro other sameTokens
    exact Phrase.eq_of_tokens (sameTokens.trans tokens_eq.symm)
  · intro isCovered assignment
    rw [value_eq, Expr.valueRead_of_covered isCovered, Bool.false_xor]
  · intro distinct agrees
    by_contra uncovered
    rcases populated.exists_misread distinct (Bool.eq_false_iff.2 uncovered) with
      ⟨assignment, misread⟩
    rw [Bool.false_xor, ← value_eq] at misread
    exact misread (agrees assignment)

/-- Two negations in front of an `and` give back what the first one took. -/
theorem exists_unique_reading_doubly_negated :
    let accept : Expr := .leaf (.compare .eq "action" (.text "ACCEPT") none)
    let secure : Expr := .leaf (.compare .eq "dstport" (.number 443) none)
    let expr : Expr := .not (.not (.node .and [accept, secure]))
    check .flowRecords 2 expr = .ok () ∧ expr.covered false = true ∧
      ∃ reading : Phrase (.joined .or), reading.text = expr.render ∧
        ∀ assignment, reading.value assignment = expr.value assignment := by
  intro accept secure expr
  have accepted : check .flowRecords 2 expr = .ok () := by rfl
  have isCovered : expr.covered false = true := by rfl
  rcases exists_unique_reading accepted with ⟨reading, written, -, -, means, -⟩
  exact ⟨accepted, isCovered, reading, written, means isCovered⟩

/-- A negated `and` is accepted, but the negation is read as that of its first operand. -/
theorem negated_and_misread :
    let accept : Leaf := .compare .eq "action" (.text "ACCEPT") none
    let secure : Leaf := .compare .eq "dstport" (.number 443) none
    let expr : Expr := .not (.node .and [.leaf accept, .leaf secure])
    check .flowRecords 2 expr = .ok () ∧
      expr.render = "not action = 'ACCEPT' and dstport = 443" ∧
      ∀ reading : Phrase (.joined .or), reading.tokens = expr.tokens →
        reading.value (fun _ => false) = false ∧ expr.value (fun _ => false) = true := by
  intro accept secure expr
  refine ⟨by rfl, by decide, ?_⟩
  intro reading sameTokens
  have isReading : reading =
      .single .or (.cons .and (.not (.leaf accept)) (.single .and (.leaf secure))) :=
    Phrase.eq_of_tokens sameTokens
  rw [isReading]
  exact ⟨rfl, rfl⟩

end FlowLog.Filter
