import Mathlib.Data.List.TakeDrop
import FlowLog.Proofs.Numeral

/-!
# How numbers are written

The text of a finite number is a decimal numeral: digits, perhaps a point with more digits behind
it, perhaps an exponent, and a minus sign in front of all this for a number below zero.
`Numeral.IsDecimal` describes such texts, and `Numeral.decimal?` reads each of them.
-/

namespace FlowLog

namespace Numeral

/-- What may stand behind the digits of the whole part. -/
inductive IsFraction : List Char → Prop
  | none : IsFraction []
  | point {digits : List Char} (areDigits : ∀ c ∈ digits, c.isDigit = true) : IsFraction ('.' :: digits)

/-- What may stand at the end of a decimal numeral. -/
inductive IsExponent : List Char → Prop
  | none : IsExponent []
  | mark {sign : Char} {digits : List Char} (isSign : sign = '-' ∨ sign = '+')
      (areDigits : AreDigits digits) : IsExponent ('e' :: sign :: digits)

/-- A decimal numeral without a sign in front. -/
inductive IsUnsigned : List Char → Prop
  | parts {whole fraction exponent : List Char} (areDigits : AreDigits whole)
      (isFraction : IsFraction fraction) (isExponent : IsExponent exponent) :
      IsUnsigned (whole ++ (fraction ++ exponent))

/-- A decimal numeral. -/
inductive IsDecimal : List Char → Prop
  | unsigned {text : List Char} (isUnsigned : IsUnsigned text) : IsDecimal text
  | negative {text : List Char} (isUnsigned : IsUnsigned text) : IsDecimal ('-' :: text)

theorem AreDigits.append {left right : List Char} (leftDigits : AreDigits left)
    (rightDigits : ∀ c ∈ right, c.isDigit = true) : AreDigits (left ++ right) := by
  refine ⟨by simp [leftDigits.1], ?_⟩
  intro c isMember
  rcases List.mem_append.1 isMember with inLeft | inRight
  · exact leftDigits.2 c inLeft
  · exact rightDigits c inRight

theorem areDigits_digits (n : Nat) : AreDigits (digits n) := isDigits_iff.1 (isDigits_digits n)

theorem isDigit_of_mem_replicate {count : Nat} {c : Char} (isMember : c ∈ List.replicate count '0') :
    c.isDigit = true := by
  rw [List.eq_of_mem_replicate isMember]
  rfl

/-! ## Reading -/

/-- Digits are cut off where something else follows. -/
theorem span_append {p : Char → Bool} {left right : List Char} (all : ∀ c ∈ left, p c = true)
    (stops : ∀ c ∈ right.head?, p c = false) : (left ++ right).span p = (left, right) := by
  rw [List.span_eq_takeWhile_dropWhile, List.takeWhile_append_of_pos all,
    List.dropWhile_append_of_pos all]
  cases right with
  | nil => simp
  | cons c rest => simp [stops c rfl]

theorem IsExponent.exists_exponent? {text : List Char} (isExponent : IsExponent text) :
    ∃ exponent, exponent? text = some exponent := by
  cases isExponent with
  | none => exact ⟨0, rfl⟩
  | @mark sign digits isSign areDigits =>
      rcases isSign with rfl | rfl
      · exact ⟨_, if_pos (isDigits_iff.2 areDigits)⟩
      · exact ⟨_, if_pos (isDigits_iff.2 areDigits)⟩

theorem IsExponent.stops {text : List Char} (isExponent : IsExponent text) :
    ∀ c ∈ text.head?, c.isDigit = false := by
  cases isExponent <;> simp

theorem IsFraction.fraction_append {text exponent : List Char} (isFraction : IsFraction text)
    (isExponent : IsExponent exponent) : ∃ part, fraction (text ++ exponent) = (part, exponent) := by
  cases isFraction with
  | none => cases isExponent <;> exact ⟨[], rfl⟩
  | point areDigits => exact ⟨_, span_append areDigits isExponent.stops⟩

theorem IsFraction.stops {text exponent : List Char} (isFraction : IsFraction text)
    (isExponent : IsExponent exponent) : ∀ c ∈ (text ++ exponent).head?, c.isDigit = false := by
  cases isFraction with
  | none => exact isExponent.stops
  | point _ => simp

theorem IsUnsigned.exists_cons {text : List Char} (isUnsigned : IsUnsigned text) :
    ∃ first rest, text = first :: rest ∧ first.isDigit = true := by
  cases isUnsigned with
  | parts areDigits _ _ =>
      rcases List.exists_cons_of_ne_nil areDigits.1 with ⟨first, rest, rfl⟩
      exact ⟨first, _, rfl, areDigits.2 first List.mem_cons_self⟩

theorem sign_of_isDigit {first : Char} (isDigit : first.isDigit = true) (rest : List Char) :
    sign (first :: rest) = (false, first :: rest) := by
  unfold sign
  split
  · next isMinus =>
      rw [(List.cons.inj isMinus).1] at isDigit
      exact absurd isDigit (by decide)
  · next isPlus =>
      rw [(List.cons.inj isPlus).1] at isDigit
      exact absurd isDigit (by decide)
  · rfl

theorem exists_decimal?_of_sign {text magnitude : List Char} {negative : Bool}
    (signed : sign text = (negative, magnitude)) (isUnsigned : IsUnsigned magnitude) :
    ∃ decimal, decimal? text = some decimal := by
  cases isUnsigned with
  | @parts whole fractionText exponentText areDigits isFraction isExponent =>
      rcases isFraction.fraction_append isExponent with ⟨part, fraction_eq⟩
      rcases isExponent.exists_exponent? with ⟨exponent, exponent_eq⟩
      have notEmpty : whole.isEmpty = false := by simp [areDigits.1]
      have cut := span_append areDigits.2 (isFraction.stops isExponent)
      simp only [decimal?, signed, cut, fraction_eq, notEmpty, exponent_eq, Bool.false_and,
        Bool.false_eq_true, if_false, Option.map_some, Option.some.injEq, exists_eq']

theorem IsDecimal.exists_decimal? {text : List Char} (isDecimal : IsDecimal text) :
    ∃ decimal, decimal? text = some decimal := by
  cases isDecimal with
  | unsigned isUnsigned =>
      rcases isUnsigned.exists_cons with ⟨first, rest, rfl, isDigit⟩
      exact exists_decimal?_of_sign (sign_of_isDigit isDigit rest) isUnsigned
  | negative isUnsigned => exact exists_decimal?_of_sign rfl isUnsigned

/-! ## Characters -/

/-- The characters of decimal numerals. -/
def IsMark (c : Char) : Prop := c.isDigit = true ∨ c = '.' ∨ c = 'e' ∨ c = '-' ∨ c = '+'

theorem IsFraction.isMark {text : List Char} (isFraction : IsFraction text) : ∀ c ∈ text, IsMark c := by
  cases isFraction with
  | none => simp
  | point areDigits =>
      intro c isMember
      rcases List.mem_cons.1 isMember with rfl | isDigit
      · exact Or.inr (Or.inl rfl)
      · exact Or.inl (areDigits c isDigit)

theorem IsExponent.isMark {text : List Char} (isExponent : IsExponent text) : ∀ c ∈ text, IsMark c := by
  cases isExponent with
  | none => simp
  | mark isSign areDigits =>
      intro c isMember
      rcases List.mem_cons.1 isMember with rfl | isMember
      · exact Or.inr (Or.inr (Or.inl rfl))
      · rcases List.mem_cons.1 isMember with rfl | isDigit
        · exact Or.inr (Or.inr (Or.inr isSign))
        · exact Or.inl (areDigits.2 c isDigit)

theorem IsUnsigned.isMark {text : List Char} (isUnsigned : IsUnsigned text) : ∀ c ∈ text, IsMark c := by
  cases isUnsigned with
  | parts areDigits isFraction isExponent =>
      intro c isMember
      simp only [List.mem_append] at isMember
      rcases isMember with inWhole | inFraction | inExponent
      · exact Or.inl (areDigits.2 c inWhole)
      · exact isFraction.isMark c inFraction
      · exact isExponent.isMark c inExponent

theorem IsDecimal.isMark {text : List Char} (isDecimal : IsDecimal text) : ∀ c ∈ text, IsMark c := by
  cases isDecimal with
  | unsigned isUnsigned => exact isUnsigned.isMark
  | negative isUnsigned =>
      exact List.forall_mem_cons.2 ⟨Or.inr (Or.inr (Or.inr (Or.inl rfl))), isUnsigned.isMark⟩

theorem IsDecimal.exists_cons {text : List Char} (isDecimal : IsDecimal text) :
    ∃ first rest, text = first :: rest ∧ (first.isDigit = true ∨ first = '-') := by
  cases isDecimal with
  | unsigned isUnsigned =>
      rcases isUnsigned.exists_cons with ⟨first, rest, shape, isDigit⟩
      exact ⟨first, rest, shape, Or.inl isDigit⟩
  | negative _ => exact ⟨_, _, rfl, Or.inr rfl⟩

end Numeral

namespace Number

open Numeral

/-! ## Writing -/

theorem isExponent_mark (exponent : Int) :
    IsExponent ('e' :: (if exponent < 0 then '-' else '+') :: Numeral.digits exponent.natAbs) := by
  refine .mark ?_ (areDigits_digits _)
  by_cases negative : exponent < 0
  · exact Or.inl (if_pos negative)
  · exact Or.inr (if_neg negative)

theorem isUnsigned_layout {digits : List Char} (areDigits : AreDigits digits) (point : Int) :
    IsUnsigned (layout digits point) := by
  unfold layout
  dsimp only
  split
  · split
    · have written : AreDigits (digits ++ List.replicate (point - digits.length).toNat '0') :=
        areDigits.append fun c => isDigit_of_mem_replicate
      simpa using IsUnsigned.parts written .none .none
    · split
      · next positive =>
          have whole : AreDigits (digits.take point.toNat) := by
            refine ⟨?_, fun c isMember => areDigits.2 c (List.mem_of_mem_take isMember)⟩
            rw [ne_eq, List.take_eq_nil_iff, not_or]
            exact ⟨by omega, areDigits.1⟩
          have part : IsFraction ('.' :: digits.drop point.toNat) :=
            .point fun c isMember => areDigits.2 c (List.mem_of_mem_drop isMember)
          simpa using IsUnsigned.parts whole part .none
      · have part : IsFraction ('.' :: (List.replicate (-point).toNat '0' ++ digits)) := by
          refine .point fun c isMember => ?_
          rcases List.mem_append.1 isMember with isZero | isDigit
          · exact isDigit_of_mem_replicate isZero
          · exact areDigits.2 c isDigit
        have zero : AreDigits ['0'] := by simp [AreDigits]
        simpa using IsUnsigned.parts zero part .none
  · split
    · next first second rest =>
        have whole : AreDigits [first] := by simpa [AreDigits] using areDigits.2 first List.mem_cons_self
        have part : IsFraction ('.' :: second :: rest) :=
          .point fun c isMember => areDigits.2 c (List.mem_cons_of_mem first isMember)
        simpa using IsUnsigned.parts whole part (isExponent_mark (point - 1))
    · simpa using IsUnsigned.parts areDigits .none (isExponent_mark (point - 1))

theorem isUnsigned_magnitudeText (magnitude : Number) : IsUnsigned (magnitudeText magnitude) :=
  isUnsigned_layout (areDigits_digits _) _

/-- The text of a finite number is a decimal numeral. -/
theorem isDecimal_text {value : Number} (finite : value.isFinite = true) : IsDecimal value.text := by
  cases value with
  | infinite negative => cases finite
  | integer n =>
      rw [text]
      split
      · exact .unsigned (IsUnsigned.parts (areDigits_digits 0) .none .none)
      · split
        · exact .negative (isUnsigned_magnitudeText _)
        · exact .unsigned (isUnsigned_magnitudeText _)
  | fraction n scale =>
      rw [text]
      split
      · exact .negative (isUnsigned_magnitudeText _)
      · exact .unsigned (isUnsigned_magnitudeText _)

end Number

end FlowLog
