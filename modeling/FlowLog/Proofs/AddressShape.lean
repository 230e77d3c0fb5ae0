import FlowLog.Proofs.Address
import FlowLog.Proofs.Typing

/-!
# The shapes of address values

A value for an address field has one of three shapes: a block, a full address, or a dotted prefix
that is no full address. No value has two of them. The shape alone decides whether the value is
accepted and which condition is made of it; the operator decides only between the condition and its
opposite.
-/

namespace FlowLog

namespace Address

/-! ## Shapes -/

/-- The shapes of values for an address field. -/
inductive Shape where
  | block
  | full
  | dottedPrefix

/-- The texts of a shape. A text that is both a full address and a dotted prefix counts as an
address. -/
def Shape.Describes : Shape → List Char → Prop
  | .block, text => ∃ family : Family, ∃ address ∈ family.language, ∃ length ≤ family.bits,
      text = address ++ '/' :: Numeral.digits length
  | .full, text => ∃ family : Family, text ∈ family.language
  | .dottedPrefix, text => DottedPrefix text ∧ ¬∃ family : Family, text ∈ family.language

theorem isBlock_iff {text : List Char} : isBlock text = true ↔ Shape.block.Describes text := by
  constructor
  · intro accepted
    rcases block_of_isBlock accepted with ⟨address, length, family, rfl, known, plain, bounded⟩
    refine ⟨family, address, family?_eq_some.1 known, Numeral.value length, bounded, ?_⟩
    rw [← isPlainNumber_iff.1 plain]
  · rintro ⟨family, address, inLanguage, length, bounded, rfl⟩
    have short : (Numeral.digits length).length ≤ 3 := by
      apply Numeral.length_digits_le (by decide)
      cases family <;> simp only [Family.bits] at bounded <;> omega
    have slashless : '/' ∉ Numeral.digits length := by
      intro isMember
      exact absurd (Numeral.isDigit_of_mem_digits isMember) (by decide)
    have plain : isPlainNumber (Numeral.digits length) = true :=
      isPlainNumber_iff.2 (by rw [Numeral.value_digits])
    simp [isBlock, Text.splitLast?_append slashless, family?_eq_some.2 inLanguage, isPrefixLength, plain,
      Numeral.value_digits, short, bounded]

theorem isSome_family? {text : List Char} :
    (family? text).isSome = true ↔ Shape.full.Describes text := by
  rw [Option.isSome_iff_exists]
  exact exists_congr fun family => family?_eq_some

theorem isDottedPrefix_iff {text : List Char} : isDottedPrefix text = true ↔ DottedPrefix text := by
  constructor
  · exact dottedPrefix_of_isDottedPrefix
  · rintro ⟨groups, rfl, nonempty, few, inGroups⟩
    have dotless : ∀ part ∈ groups, '.' ∉ part := by
      intro part isPart isDot
      exact absurd ((inGroups part isPart).2.2.1 '.' isDot) (by decide)
    have parts : ∀ part ∈ groups, isPrefixPart part = true := by
      intro part isPart
      rcases inGroups part isPart with ⟨positive, short, digits, bounded⟩
      have isDigits : Numeral.isDigits part = true :=
        Numeral.isDigits_iff.2 ⟨List.ne_nil_of_length_pos positive, digits⟩
      simp [isPrefixPart, isDigits, short, bounded]
    rw [isDottedPrefix, List.splitOn_intercalate '.' dotless (List.ne_nil_of_length_pos nonempty)]
    simpa [few] using parts

theorem slash_mem_of_block {text : List Char} (isBlock : Shape.block.Describes text) : '/' ∈ text := by
  rcases isBlock with ⟨family, address, -, length, -, rfl⟩
  simp

theorem slash_notMem_of_full {text : List Char} (isFull : Shape.full.Describes text) : '/' ∉ text := by
  rcases isFull with ⟨family, inLanguage⟩
  exact slash_notMem inLanguage

theorem slash_notMem_of_dottedPrefix {text : List Char} (isPrefix : DottedPrefix text) : '/' ∉ text := by
  rcases isPrefix with ⟨groups, rfl, -, -, inGroups⟩
  intro hasSlash
  rcases Text.mem_intercalate hasSlash with isDot | ⟨part, isPart, inPart⟩
  · exact absurd isDot (by decide)
  · exact absurd ((inGroups part isPart).2.2.1 '/' inPart) (by decide)

/-- A text has at most one shape. -/
theorem Shape.eq_of_describes {shape other : Shape} {text : List Char} (described : shape.Describes text)
    (alsoDescribed : other.Describes text) : shape = other := by
  cases shape <;> cases other
  case block.block | full.full | dottedPrefix.dottedPrefix => rfl
  case block.full => exact absurd (slash_mem_of_block described) (slash_notMem_of_full alsoDescribed)
  case full.block => exact absurd (slash_mem_of_block alsoDescribed) (slash_notMem_of_full described)
  case block.dottedPrefix =>
      exact absurd (slash_mem_of_block described) (slash_notMem_of_dottedPrefix alsoDescribed.1)
  case dottedPrefix.block =>
      exact absurd (slash_mem_of_block alsoDescribed) (slash_notMem_of_dottedPrefix described.1)
  case full.dottedPrefix => exact absurd described alsoDescribed.2
  case dottedPrefix.full => exact absurd alsoDescribed described.2

/-! ## Conditions -/

namespace Shape

/-- The condition that a value of a shape makes of a field. -/
def condition (shape : Shape) (field value : String) : Expr :=
  match shape with
  | .block => .leaf (.inSubnet field value)
  | .full => .leaf (.compare .eq field (.text value) none)
  | .dottedPrefix => .leaf (.like false field value none)

/-- The negation of that condition. -/
def opposite (shape : Shape) (field value : String) : Expr :=
  match shape with
  | .block => .not (.leaf (.inSubnet field value))
  | .full => .leaf (.compare .ne field (.text value) none)
  | .dottedPrefix => .leaf (.like true field value none)

end Shape

end Address

namespace FieldClass

open Address

theorem addressCondition_eq {field value : String} {operator : Operator} {shape : Shape}
    (described : shape.Describes value.toList) :
    addressCondition field operator value =
      .ok (if operator.isNegated then shape.opposite field value else shape.condition field value) := by
  unfold addressCondition
  cases shape with
  | block =>
      simp only [if_pos (slash_mem_of_block described), if_pos (isBlock_iff.2 described)]
      rfl
  | full =>
      simp only [if_neg (slash_notMem_of_full described), if_pos (isSome_family?.2 described)]
      cases operator.isNegated <;> rfl
  | dottedPrefix =>
      simp only [if_neg (slash_notMem_of_dottedPrefix described.1),
        if_neg (mt isSome_family?.1 described.2), if_pos (isDottedPrefix_iff.2 described.1)]
      cases operator.isNegated <;> rfl

theorem exists_shape_of_addressCondition {field value : String} {operator : Operator} {expr : Expr}
    (accepted : addressCondition field operator value = .ok expr) :
    ∃ shape : Shape, shape.Describes value.toList := by
  simp only [addressCondition] at accepted
  split at accepted
  · split at accepted
    · next isBlock => exact ⟨.block, isBlock_iff.1 isBlock⟩
    · cases accepted
  · split at accepted
    · next known => exact ⟨.full, isSome_family?.1 known⟩
    · next unknown =>
        split at accepted
        · next isPrefix =>
            exact ⟨.dottedPrefix, isDottedPrefix_iff.1 isPrefix, mt isSome_family?.2 unknown⟩
        · cases accepted

/-- With every operator, exactly the blocks, the full addresses and the dotted prefixes are accepted
as values of an address field. Equality and a match make the same condition of a value, which
follows from its only shape, and inequality and a mismatch make the negation of that condition. -/
theorem addressCondition_by_shape (field value : String) :
    (∀ operator : Operator, (∃ expr, addressCondition field operator value = .ok expr) ↔
      Shape.block.Describes value.toList ∨ Shape.full.Describes value.toList ∨
        DottedPrefix value.toList) ∧
    (∀ shape : Shape, shape.Describes value.toList →
      (∀ other : Shape, other.Describes value.toList → other = shape) ∧
      addressCondition field (.compare .eq) value = .ok (shape.condition field value) ∧
      addressCondition field .like value = .ok (shape.condition field value) ∧
      addressCondition field (.compare .ne) value = .ok (shape.opposite field value) ∧
      addressCondition field .notLike value = .ok (shape.opposite field value)) := by
  constructor
  · intro operator
    constructor
    · rintro ⟨expr, accepted⟩
      rcases exists_shape_of_addressCondition accepted with ⟨_ | _ | _, described⟩
      · exact Or.inl described
      · exact Or.inr (Or.inl described)
      · exact Or.inr (Or.inr described.1)
    · intro written
      obtain ⟨shape, described⟩ : ∃ shape : Shape, shape.Describes value.toList := by
        rcases written with isBlock | isFull | isPrefix
        · exact ⟨.block, isBlock⟩
        · exact ⟨.full, isFull⟩
        · by_cases isFull : Shape.full.Describes value.toList
          · exact ⟨.full, isFull⟩
          · exact ⟨.dottedPrefix, isPrefix, isFull⟩
      exact ⟨_, addressCondition_eq described⟩
  · intro shape described
    refine ⟨fun other alsoDescribed => Shape.eq_of_describes alsoDescribed described, ?_, ?_, ?_, ?_⟩
    all_goals exact addressCondition_eq described

/-- An address of family 4 is a dotted prefix as well, and counts as an address. -/
theorem addressCondition_by_shape_overlap :
    Shape.full.Describes "10.0.0.1".toList ∧ DottedPrefix "10.0.0.1".toList ∧
      addressCondition "srcaddr" .notLike "10.0.0.1" =
        .ok (.leaf (.compare .ne "srcaddr" (.text "10.0.0.1") none)) := by
  have described : Shape.full.Describes "10.0.0.1".toList := isSome_family?.1 (by decide +kernel)
  refine ⟨described, isDottedPrefix_iff.1 (by decide +kernel), ?_⟩
  exact ((addressCondition_by_shape "srcaddr" "10.0.0.1").2 .full described).2.2.2.2

end FieldClass

end FlowLog
