import FlowLog.Filter.Expr

/-!
# Conditions as they are read

A query engine reads the condition of a filter stage by precedence: `not` binds tighter than `and`,
`and` tighter than `or`, and parentheses group. A `Phrase` is a derivation in this grammar. The two
connectives follow one rule, at two levels: a disjunction is made of conjunctions as a conjunction
is made of operands.

Leaves are single tokens here, however they are written. `Phrase.eq_of_tokens` says that the grammar
is unambiguous, so a sequence of tokens has at most one reading. The induction behind it is over
phrases in front of any further tokens that do not continue them.
-/

namespace FlowLog

/-- The tokens of a condition. -/
inductive Token where
  | leaf (condition : Leaf)
  | not
  | connective (connective : Connective)
  | opening
  | closing

namespace Token

/-- How a token is written, with the spaces that belong to it. -/
def text : Token → String
  | .leaf condition => condition.render
  | .not => "not "
  | .connective .and => " and "
  | .connective .or => " or "
  | .opening => "("
  | .closing => ")"

/-- How tokens are written one after another. -/
def textOf (tokens : List Token) : String := String.join (tokens.map text)

@[simp]
theorem textOf_nil : textOf [] = "" := rfl

@[simp]
theorem textOf_cons (token : Token) (rest : List Token) :
    textOf (token :: rest) = token.text ++ textOf rest := by
  rw [textOf, List.map_cons, String.join_cons, textOf]

@[simp]
theorem textOf_append (first second : List Token) :
    textOf (first ++ second) = textOf first ++ textOf second := by
  rw [textOf, List.map_append, String.join_append, textOf, textOf]

end Token

/-- The levels of precedence in the grammar. -/
inductive Precedence where
  | operand
  | joined (connective : Connective)

namespace Precedence

/-- The level of what a connective joins. -/
@[reducible]
def below : Connective → Precedence
  | .and => .operand
  | .or => .joined .and

/-- Whether a token behind a phrase of a level would continue it. -/
def continues : Precedence → Token → Bool
  | .joined .and, .connective .and => true
  | .joined .or, .connective _ => true
  | _, _ => false

/-- Whether a phrase of a level ends in front of some tokens. -/
def EndsAt (level : Precedence) (tokens : List Token) : Prop :=
  ∀ token ∈ tokens.head?, level.continues token = false

theorem EndsAt.below {connective : Connective} {tokens : List Token}
    (ends : (Precedence.joined connective).EndsAt tokens) :
    (Precedence.below connective).EndsAt tokens := by
  intro token isHead
  have stops := ends token isHead
  cases connective <;> cases token <;> simp_all [continues]

theorem endsAt_connective (connective : Connective) (rest : List Token) :
    (Precedence.below connective).EndsAt (.connective connective :: rest) := by
  rintro token ⟨⟩
  cases connective <;> rfl

theorem not_endsAt_connective (connective : Connective) (rest : List Token) :
    ¬(Precedence.joined connective).EndsAt (.connective connective :: rest) := by
  intro ends
  have stops := ends (.connective connective) rfl
  cases connective <;> cases stops

end Precedence

/-- A condition with its grouping. A condition as a whole is on the level of `or`. -/
inductive Phrase : Precedence → Type
  | leaf (condition : Leaf) : Phrase .operand
  | not (operand : Phrase .operand) : Phrase .operand
  | group (inner : Phrase (.joined .or)) : Phrase .operand
  | single (connective : Connective) (operand : Phrase (.below connective)) :
      Phrase (.joined connective)
  | cons (connective : Connective) (operand : Phrase (.below connective))
      (rest : Phrase (.joined connective)) : Phrase (.joined connective)

namespace Phrase

/-- The tokens of a phrase. -/
def tokens {level : Precedence} : Phrase level → List Token
  | .leaf condition => [.leaf condition]
  | .not operand => .not :: operand.tokens
  | .group inner => .opening :: (inner.tokens ++ [.closing])
  | .single _ operand => operand.tokens
  | .cons connective operand rest => operand.tokens ++ .connective connective :: rest.tokens

/-- How a phrase is written. -/
def text {level : Precedence} (phrase : Phrase level) : String := Token.textOf phrase.tokens

/-- The value of a phrase when each leaf is true or false. -/
def value {level : Precedence} (assignment : Leaf → Bool) : Phrase level → Bool
  | .leaf condition => assignment condition
  | .not operand => !operand.value assignment
  | .group inner => inner.value assignment
  | .single _ operand => operand.value assignment
  | .cons .and operand rest => operand.value assignment && rest.value assignment
  | .cons .or operand rest => operand.value assignment || rest.value assignment

/-! ## Unambiguity -/

/-- Two phrases that start the same tokens and end where they cannot be continued are the same.
Operands of different kinds start with different tokens, so only operands of one kind are
compared. -/
theorem eq_of_tokens_append {level : Precedence} (first second : Phrase level)
    {behind behind' : List Token}
    (ends : level.EndsAt behind) (ends' : level.EndsAt behind')
    (same : first.tokens ++ behind = second.tokens ++ behind') :
    first = second ∧ behind = behind' := by
  match first, second with
  | .leaf _, .leaf _ => simpa [tokens] using same
  | .not operand, .not operand' =>
      have inner := eq_of_tokens_append operand operand' ends ends' (by simpa [tokens] using same)
      exact ⟨congrArg Phrase.not inner.1, inner.2⟩
  | .group inner, .group inner' =>
      have enclosed : inner.tokens ++ .closing :: behind = inner'.tokens ++ .closing :: behind' := by
        simpa [tokens] using same
      have closing : ∀ rest, (Precedence.joined .or).EndsAt (.closing :: rest) := by
        rintro rest token ⟨⟩
        rfl
      rcases eq_of_tokens_append inner inner' (closing behind) (closing behind') enclosed with
        ⟨rfl, tail⟩
      exact ⟨rfl, List.tail_eq_of_cons_eq tail⟩
  | .single connective operand, .single _ operand' =>
      rcases eq_of_tokens_append operand operand' ends.below ends'.below same with ⟨rfl, tail⟩
      exact ⟨rfl, tail⟩
  | .single connective operand, .cons _ operand' rest' =>
      rw [tokens, tokens, List.append_assoc] at same
      have cut := eq_of_tokens_append operand operand' ends.below
        (Precedence.endsAt_connective connective _) same
      rw [cut.2] at ends
      exact absurd ends (Precedence.not_endsAt_connective connective _)
  | .cons connective operand rest, .single _ operand' =>
      rw [tokens, tokens, List.append_assoc] at same
      have cut := eq_of_tokens_append operand operand'
        (Precedence.endsAt_connective connective _) ends'.below same
      rw [← cut.2] at ends'
      exact absurd ends' (Precedence.not_endsAt_connective connective _)
  | .cons connective operand rest, .cons _ operand' rest' =>
      rw [tokens, tokens, List.append_assoc, List.append_assoc] at same
      rcases eq_of_tokens_append operand operand'
        (Precedence.endsAt_connective connective _) (Precedence.endsAt_connective connective _) same with
        ⟨rfl, later⟩
      rcases eq_of_tokens_append rest rest' ends ends' (List.tail_eq_of_cons_eq later) with ⟨rfl, tail⟩
      exact ⟨rfl, tail⟩

/-- A sequence of tokens has at most one reading. -/
theorem eq_of_tokens {level : Precedence} {first second : Phrase level}
    (same : first.tokens = second.tokens) : first = second := by
  have atEnd : level.EndsAt [] := by
    rintro token ⟨⟩
  exact (eq_of_tokens_append first second atEnd atEnd (by rw [same])).1

/-! ## Putting phrases together -/

section Joining

variable {connective : Connective}

/-- The operands of a connective. -/
def operands : Phrase (.joined connective) → List (Phrase (.below connective))
  | .single _ operand => [operand]
  | .cons _ operand rest => operand :: rest.operands

@[simp]
theorem operands_single (operand : Phrase (.below connective)) :
    (single connective operand).operands = [operand] := by
  rw [operands]

@[simp]
theorem operands_cons (operand : Phrase (.below connective)) (rest : Phrase (.joined connective)) :
    (cons connective operand rest).operands = operand :: rest.operands := by
  rw [operands]

/-- The operands of two phrases in one. -/
def append : Phrase (.joined connective) → Phrase (.joined connective) → Phrase (.joined connective)
  | .single _ operand, second => .cons connective operand second
  | .cons _ operand rest, second => .cons connective operand (rest.append second)

/-- The operands of several phrases in one. -/
def join (first : Phrase (.joined connective)) :
    List (Phrase (.joined connective)) → Phrase (.joined connective)
  | [] => first
  | next :: rest => first.append (join next rest)

theorem tokens_append (first second : Phrase (.joined connective)) :
    (first.append second).tokens = first.tokens ++ .connective connective :: second.tokens := by
  match first with
  | .single _ operand => rw [append, tokens, tokens]
  | .cons _ operand rest =>
      rw [append, tokens, tokens_append rest second, tokens, List.append_assoc, List.cons_append]

theorem operands_append (first second : Phrase (.joined connective)) :
    (first.append second).operands = first.operands ++ second.operands := by
  match first with
  | .single _ operand => simp [append]
  | .cons _ operand rest =>
      rw [append, operands_cons, operands_append rest second, operands_cons, List.cons_append]

theorem tokens_join (first : Phrase (.joined connective)) (rest : List (Phrase (.joined connective))) :
    (join first rest).tokens =
      [Token.connective connective].intercalate ((first :: rest).map tokens) := by
  induction rest generalizing first with
  | nil => simp [join]
  | cons next rest ih =>
      rw [join, tokens_append, ih]
      simp [List.intercalate]

theorem operands_join (first : Phrase (.joined connective)) (rest : List (Phrase (.joined connective))) :
    (join first rest).operands = (first :: rest).flatMap operands := by
  induction rest generalizing first with
  | nil => simp [join]
  | cons next rest ih => rw [join, operands_append, ih, ← List.flatMap_cons]

end Joining

theorem value_conjunction (assignment : Leaf → Bool) (phrase : Phrase (.joined .and)) :
    phrase.value assignment = phrase.operands.all (value assignment) := by
  match phrase with
  | .single _ operand => simp [value]
  | .cons _ operand rest => rw [value, value_conjunction assignment rest, operands_cons, List.all_cons]

theorem value_disjunction (assignment : Leaf → Bool) (phrase : Phrase (.joined .or)) :
    phrase.value assignment = phrase.operands.any (value assignment) := by
  match phrase with
  | .single _ operand => simp [value]
  | .cons _ operand rest => rw [value, value_disjunction assignment rest, operands_cons, List.any_cons]

/-- What a conjunction becomes behind a `not`: the negation takes the first operand. -/
def negateFirst : Phrase (.joined .and) → Phrase (.joined .and)
  | .single _ operand => .single .and (.not operand)
  | .cons _ operand rest => .cons .and (.not operand) rest

theorem tokens_negateFirst (phrase : Phrase (.joined .and)) :
    phrase.negateFirst.tokens = .not :: phrase.tokens := by
  match phrase with
  | .single _ operand => rfl
  | .cons _ operand rest => rfl

theorem values_negateFirst (assignment : Leaf → Bool) (phrase : Phrase (.joined .and)) :
    phrase.negateFirst.operands.map (value assignment) =
      (phrase.operands.map (value assignment)).modifyHead Bool.not := by
  match phrase with
  | .single _ operand =>
      have negated : (negateFirst (.single .and operand)).operands = [.not operand] := operands_single _
      rw [negated, operands_single]
      rfl
  | .cons _ operand rest =>
      have negated : (negateFirst (.cons .and operand rest)).operands = .not operand :: rest.operands :=
        operands_cons _ _
      rw [negated, operands_cons]
      rfl

end Phrase

end FlowLog
