import Mathlib.Data.List.Induction
import Mathlib.Data.Nat.Digits.Defs
import Mathlib.Tactic.IntervalCases
import FlowLog.Filter.Condition
import FlowLog.Proofs.Shortest

/-!
# Integer numerals

An integer numeral is an optional sign and decimal digits, of which there may be any number.
`Numeral.Denotes` gives the integer that it denotes place by place, and `Numeral.IsCanonical` says
which of the numerals of an integer is the canonical one: it is the one that the program writes.

A value text that is an integer numeral stands for the number or the big integer that the integer
is, and the check of a port takes it for that integer, although both look at the nearest number
only.
-/

namespace FlowLog

namespace Numeral

/-- The natural number that decimal digits denote, the last of them being the units. -/
def magnitude (digits : List Char) : Nat := Nat.ofDigits 10 (digits.map digitValue).reverse

/-- One or more decimal digits. -/
def AreDigits (digits : List Char) : Prop := digits ≠ [] ∧ ∀ c ∈ digits, c.isDigit = true

/-- The integer that an optional sign and decimal digits denote. -/
inductive Denotes : List Char → Int → Prop
  | unsigned {digits : List Char} (areDigits : AreDigits digits) : Denotes digits (magnitude digits)
  | plus {digits : List Char} (areDigits : AreDigits digits) : Denotes ('+' :: digits) (magnitude digits)
  | minus {digits : List Char} (areDigits : AreDigits digits) :
      Denotes ('-' :: digits) (-magnitude digits)

/-- The canonical form of an integer has no plus sign, no zero in front of other digits, and no sign
at a zero. -/
structure IsCanonical (text : List Char) (n : Int) : Prop where
  denotes : Denotes text n
  noPlus : ∀ rest, text ≠ '+' :: rest
  noZeroFirst : ∀ rest, text = '0' :: rest ∨ text = '-' :: '0' :: rest → text = ['0']

theorem isDigits_iff {digits : List Char} : isDigits digits = true ↔ AreDigits digits := by
  simp [isDigits, AreDigits]

theorem sign_of_areDigits {digits : List Char} (areDigits : AreDigits digits) :
    sign digits = (false, digits) := by
  unfold sign
  split
  · exact absurd (areDigits.2 '-' List.mem_cons_self) (by decide)
  · exact absurd (areDigits.2 '+' List.mem_cons_self) (by decide)
  · rfl

theorem isDigit_of_mem_digits {n : Nat} {c : Char} (isMember : c ∈ digits n) : c.isDigit = true :=
  Nat.isDigit_of_mem_toDigits (by decide) (by decide) isMember

theorem isDigits_digits (n : Nat) : isDigits (digits n) = true := by
  have nonempty : digits n ≠ [] := Nat.toDigits_ne_nil
  simp only [isDigits, Bool.and_eq_true, Bool.not_eq_true', List.isEmpty_eq_false_iff, ne_eq, nonempty,
    not_false_eq_true, true_and, List.all_eq_true]
  intro c isMember
  exact isDigit_of_mem_digits isMember

theorem value_digits (n : Nat) : value (digits n) = n := by
  have asFold : value (digits n) = Nat.ofDigitChars 10 (digits n) 0 := by
    simp only [value, digitValue, Nat.ofDigitChars, Nat.mul_comm 10]
  rw [asFold]
  exact Nat.ofDigitChars_ten_toDigits

/-- Reading the canonical numeral of an integer gives the integer back. -/
@[simp]
theorem integer?_ofInt (n : Int) : integer? (ofInt n) = some n := by
  by_cases negative : n < 0
  · have magnitude : signed true n.natAbs = n := by
      rw [signed, if_pos rfl]
      omega
    have signRead : sign ('-' :: digits n.natAbs) = (true, digits n.natAbs) := rfl
    rw [ofInt, if_pos negative, integer?, signRead]
    dsimp only
    rw [isDigits_digits, if_pos rfl, value_digits, magnitude]
  · have magnitude : signed false n.natAbs = n := by
      rw [signed, if_neg Bool.false_ne_true]
      omega
    rw [ofInt, if_neg negative, integer?, sign_of_areDigits (isDigits_iff.1 (isDigits_digits _))]
    dsimp only
    rw [isDigits_digits, if_pos rfl, value_digits, magnitude]

/-- The units of a canonical numeral are digits, after a sign perhaps. -/
theorem mem_ofInt {n : Int} {c : Char} (isMember : c ∈ ofInt n) : c = '-' ∨ c.isDigit = true := by
  unfold ofInt at isMember
  split at isMember
  · rcases List.mem_cons.1 isMember with isSign | inDigits
    · exact Or.inl isSign
    · exact Or.inr (isDigit_of_mem_digits inDigits)
  · exact Or.inr (isDigit_of_mem_digits isMember)

theorem ofInt_ne_nil (n : Int) : ofInt n ≠ [] := by
  unfold ofInt
  split
  · exact List.cons_ne_nil _ _
  · exact Nat.toDigits_ne_nil

/-! ## What a numeral denotes -/

theorem magnitude_eq_value (digits : List Char) : magnitude digits = value digits := by
  rw [magnitude, Nat.ofDigits_eq_foldr, List.foldr_reverse, List.foldl_map, value]
  congr 1
  funext total c
  simp only [Nat.cast_id]
  omega

theorem value_append_singleton (digits : List Char) (c : Char) :
    value (digits ++ [c]) = 10 * value digits + digitValue c := by
  simp [value, Nat.mul_comm]

theorem denotes_iff {text : List Char} {n : Int} : Denotes text n ↔ integer? text = some n := by
  constructor
  · intro denotes
    cases denotes with
    | unsigned areDigits =>
        simp [integer?, sign_of_areDigits areDigits, isDigits_iff.2 areDigits, signed,
          magnitude_eq_value]
    | plus areDigits => simp [integer?, sign, isDigits_iff.2 areDigits, signed, magnitude_eq_value]
    | minus areDigits => simp [integer?, sign, isDigits_iff.2 areDigits, signed, magnitude_eq_value]
  · intro read
    have shape : ∀ {negative digits}, sign text = (negative, digits) →
        AreDigits digits ∧ n = signed negative (magnitude digits) := by
      intro negative digits isSigned
      rw [integer?, isSigned] at read
      simp only [Option.ite_none_right_eq_some, Option.some.injEq] at read
      exact ⟨isDigits_iff.1 read.1, by rw [magnitude_eq_value, read.2]⟩
    unfold sign at shape
    split at shape
    · rcases shape rfl with ⟨areDigits, rfl⟩
      exact .minus areDigits
    · rcases shape rfl with ⟨areDigits, rfl⟩
      exact .plus areDigits
    · rcases shape rfl with ⟨areDigits, rfl⟩
      exact .unsigned areDigits

/-! ## The canonical numeral -/

theorem digitChar_digitValue {c : Char} (isDigit : c.isDigit = true) :
    digitValue c < 10 ∧ Nat.digitChar (digitValue c) = c := by
  have bounds : 48 ≤ c.toNat ∧ c.toNat ≤ 57 := by
    simpa [Char.isDigit, UInt32.le_iff_toNat_le] using isDigit
  have code : c.toNat = 48 + digitValue c := by
    simp only [digitValue, show '0'.toNat = 48 from rfl]
    omega
  have small : digitValue c < 10 := by omega
  refine ⟨small, ?_⟩
  rw [← Char.ofNat_toNat c, code]
  generalize digitValue c = d at small
  interval_cases d <;> rfl

theorem digits_value {ds : List Char} (areDigits : AreDigits ds)
    (noZeroFirst : ∀ rest, ds = '0' :: rest → rest = []) : digits (value ds) = ds := by
  induction ds using List.reverseRecOn with
  | nil => exact absurd rfl areDigits.1
  | append_singleton ds c ih =>
      rcases digitChar_digitValue (areDigits.2 c (by simp)) with ⟨small, isDigit⟩
      rw [value_append_singleton]
      by_cases single : ds = []
      · subst single
        simp [digits, value, Nat.toDigits_of_lt_base small, isDigit]
      · have shorter : digits (value ds) = ds := by
          apply ih ⟨single, fun d isMember => areDigits.2 d (by simp [isMember])⟩
          rintro rest rfl
          simpa using noZeroFirst (rest ++ [c]) rfl
        have positive : 0 < value ds := by
          rw [Nat.pos_iff_ne_zero]
          intro isZero
          rw [isZero] at shorter
          simpa using noZeroFirst [c] (by simp [← shorter, digits])
        rw [digits, ← Nat.toDigits_append_toDigits (by decide) positive small,
          Nat.toDigits_of_lt_base small, isDigit]
        exact congrArg (· ++ [c]) shorter

theorem eq_zero_of_digits {n : Nat} {rest : List Char} (zeroFirst : digits n = '0' :: rest) : n = 0 := by
  induction n using Nat.strongRecOn generalizing rest with
  | ind n ih =>
      rw [digits] at zeroFirst
      by_cases small : n < 10
      · rw [Nat.toDigits_of_lt_base small] at zeroFirst
        interval_cases n
        · rfl
        all_goals simp at zeroFirst
      · rw [Nat.toDigits_of_base_le (by decide) (by omega)] at zeroFirst
        rcases List.exists_cons_of_ne_nil (Nat.toDigits_ne_nil (n := n / 10) (b := 10)) with
          ⟨first, others, shape⟩
        rw [shape] at zeroFirst
        obtain rfl : first = '0' := (List.cons.inj zeroFirst).1
        have := ih (n / 10) (by omega) shape
        omega

theorem isCanonical_ofInt (n : Int) : IsCanonical (ofInt n) n where
  denotes := denotes_iff.2 (integer?_ofInt n)
  noPlus := by
    intro rest shape
    have isSign : '+' ∈ ofInt n := by simp [shape]
    exact absurd (mem_ofInt isSign) (by decide)
  noZeroFirst := by
    intro rest zeroFirst
    unfold ofInt at zeroFirst ⊢
    split at zeroFirst
    · have isZero : n.natAbs = 0 := by
        rcases zeroFirst with shape | shape
        · simp at shape
        · exact eq_zero_of_digits (List.cons.inj shape).2
      omega
    · next natural =>
        have isZero : n.natAbs = 0 := by
          rcases zeroFirst with shape | shape
          · exact eq_zero_of_digits shape
          · have isDigit : '-'.isDigit = true := isDigit_of_mem_digits (n := n.natAbs) (by simp [shape])
            exact absurd isDigit (by decide)
        simp [natural, isZero, digits]

/-- An integer has one canonical form. -/
theorem isCanonical_iff {text : List Char} {n : Int} : IsCanonical text n ↔ text = ofInt n := by
  constructor
  · rintro ⟨denotes, noPlus, noZeroFirst⟩
    cases denotes with
    | unsigned areDigits =>
        have canonical := digits_value areDigits (by
          rintro rest rfl
          simpa using noZeroFirst rest (Or.inl rfl))
        simp [ofInt, magnitude_eq_value, canonical]
    | @plus digits areDigits => exact absurd rfl (noPlus digits)
    | @minus digits areDigits =>
        have noZero : ∀ rest, digits ≠ '0' :: rest := by
          rintro rest rfl
          simpa using noZeroFirst rest (Or.inr rfl)
        have canonical := digits_value areDigits fun rest shape => absurd shape (noZero rest)
        have positive : 0 < value digits := by
          rw [Nat.pos_iff_ne_zero]
          intro isZero
          rw [isZero] at canonical
          exact noZero [] (by simp [← canonical, Numeral.digits])
        simp [ofInt, magnitude_eq_value, positive, canonical]
  · rintro rfl
    exact isCanonical_ofInt n

end Numeral

theorem Number.natAbs_le_of_isSafe {n : Int} (safe : isSafe n = true) : n.natAbs ≤ maxSafe + 1 := by
  have bound : n.natAbs ≤ maxSafe := by simpa [isSafe] using safe
  omega

namespace Literal

/-- An integer numeral of any length keeps its value: as a number if it is safe, as a big integer if
it is not. -/
theorem ofText_integer {value : String} {n : Int} (read : Numeral.integer? value.toList = some n) :
    ofText value = if Number.isSafe n then .number (.integer n) else .big n := by
  rw [ofText, read]
  dsimp only
  rw [Number.isSafeInteger_ofInt]
  split
  · next safe => rw [Number.ofInt_eq_integer (Number.natAbs_le_of_isSafe safe)]
  · rfl

theorem ofText_ofInt (n : Int) :
    ofText (String.ofList (Numeral.ofInt n)) =
      if Number.isSafe n then .number (.integer n) else .big n :=
  ofText_integer (by rw [String.toList_ofList, Numeral.integer?_ofInt])

/-- A safe integer is written with its canonical numeral. -/
theorem render_integer {n : Int} (safe : Number.isSafe n = true) :
    (Literal.number (.integer n)).render = String.ofList (Numeral.ofInt n) := by
  rw [render, Number.text_integer (Number.natAbs_le_of_isSafe safe)]

end Literal

/-- The check of a port accepts the integer numerals of the ports. -/
theorem FieldClass.checkPort_eq_ok {value : String} : checkPort value = .ok () ↔
    ∃ number, Numeral.integer? value.toList = some number ∧ 0 ≤ number ∧ number ≤ maxPort := by
  have inRange : ∀ number, (Number.ofInt number).isBetween 0 maxPort = true ↔
      0 ≤ number ∧ number ≤ maxPort := Number.isBetween_ofInt (by decide) (by decide)
  cases read : Numeral.integer? value.toList with
  | none => simp [checkPort, read]
  | some number =>
      simp only [checkPort, read, Option.map_some, Option.some.injEq, exists_eq_left', ← inRange]
      split <;> simp_all

end FlowLog
