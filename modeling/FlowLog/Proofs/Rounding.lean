import Mathlib.Algebra.Order.Ring.Nat
import Mathlib.Tactic.Ring
import FlowLog.Number

/-!
# Integers as numbers

Integers up to `2 ^ 53` are numbers themselves. An integer beyond is replaced by the nearest number,
which is an integer again or an infinity, and is never one of the integers below `2 ^ 53`. A
question about the safe integers that is put to the nearest number is therefore answered as it would
be for the integer itself (`Number.isSafeInteger_ofInt`, `Number.isBetween_ofInt`).

The infinity is reached half a unit in the last place below `2 ^ 1024`, at `Number.infiniteFrom`.
-/

namespace FlowLog

@[simp]
theorem Numeral.natAbs_signed (negative : Bool) (magnitude : Nat) :
    (signed negative magnitude).natAbs = magnitude := by
  cases negative <;> simp [signed]

namespace Number

theorem maxSafe_eq : maxSafe = 9007199254740991 := rfl

theorem isSafe_iff {n : Int} : isSafe n = true ↔ n.natAbs ≤ maxSafe := decide_eq_true_iff

/-! ## Rounding a quotient -/

theorem divRound_bounds (numerator denominator : Nat) :
    numerator / denominator ≤ divRound numerator denominator ∧
      divRound numerator denominator ≤ numerator / denominator + 1 := by
  unfold divRound
  dsimp only
  split
  · omega
  · split <;> omega

/-- Rounding reaches an even number from half a unit below it. -/
theorem le_divRound_iff {numerator half bound : Nat} (positive : 0 < half) (boundPositive : 0 < bound)
    (even : bound % 2 = 0) :
    bound ≤ divRound numerator (2 * half) ↔ (2 * bound - 1) * half ≤ numerator := by
  have bounds := divRound_bounds numerator (2 * half)
  have parts := Nat.div_add_mod numerator (2 * half)
  have rest := Nat.mod_lt numerator (show 2 * half > 0 by omega)
  rcases Nat.lt_trichotomy bound (numerator / (2 * half) + 1) with below | isNext | above
  · have reached : (2 * bound - 1) * half ≤ 2 * (numerator / (2 * half)) * half :=
      Nat.mul_le_mul_right half (by omega)
    have whole : 2 * (numerator / (2 * half)) * half = 2 * half * (numerator / (2 * half)) := by ring
    constructor <;> omega
  · have middle : (2 * bound - 1) * half = 2 * half * (numerator / (2 * half)) + half := by
      rw [isNext, show 2 * (numerator / (2 * half) + 1) - 1 = 2 * (numerator / (2 * half)) + 1 by omega]
      ring
    rw [middle]
    unfold divRound
    dsimp only
    split
    · omega
    · split <;> omega
  · have beyond : (2 * (numerator / (2 * half)) + 2) * half ≤ (2 * bound - 1) * half :=
      Nat.mul_le_mul_right half (by omega)
    have whole : (2 * (numerator / (2 * half)) + 2) * half =
        2 * half * (numerator / (2 * half)) + 2 * half := by ring
    constructor <;> omega

theorem divRound_mul (quotient : Nat) {denominator : Nat} (positive : 0 < denominator) :
    divRound (quotient * denominator) denominator = quotient := by
  simp [divRound, positive]

/-! ## The unit in the last place -/

theorem floorLog2_one {n : Nat} (positive : n ≠ 0) : floorLog2 n 1 = n.log2 := by
  have reached : Nat.pow 2 n.log2 ≤ n := Nat.log2_self_le positive
  have estimate : ((n.log2 : Nat) : Int) - (Nat.log2 1 : Nat) = n.log2 := by
    rw [show Nat.log2 1 = 0 by decide]
    exact Int.sub_zero _
  simp only [floorLog2, estimate]
  apply if_pos
  rw [if_pos (Int.natCast_nonneg _), Int.toNat_natCast, Nat.one_mul]
  exact reached

theorem le_log2 {n : Nat} (large : 2 ^ 52 ≤ n) : n ≠ 0 ∧ 52 ≤ n.log2 := by
  have positive : n ≠ 0 := by
    rintro rfl
    exact absurd large (by decide)
  exact ⟨positive, (Nat.le_log2 positive).2 large⟩

/-- The unit in the last place of the numbers around a natural number beyond `2 ^ 52`. -/
def unitAt (n : Nat) : Nat := 2 ^ (n.log2 - 52)

/-- Beyond `2 ^ 52` a natural number has at least 53 digits to the base of two in front of its
unit. -/
theorem unitAt_bounds {n : Nat} (large : 2 ^ 52 ≤ n) :
    2 ^ 52 * unitAt n ≤ n ∧ n < 2 ^ 53 * unitAt n := by
  rcases le_log2 large with ⟨positive, logged⟩
  have low : 2 ^ 52 * unitAt n = 2 ^ n.log2 := by
    rw [unitAt, ← pow_add, Nat.add_sub_cancel' logged]
  have high : 2 ^ 53 * unitAt n = 2 ^ (n.log2 + 1) := by
    rw [unitAt, ← pow_add]
    congr 1
    omega
  rw [low, high]
  exact ⟨Nat.log2_self_le positive, Nat.lt_log2_self⟩

theorem le_divRound_unitAt {n : Nat} (large : 2 ^ 52 ≤ n) : 2 ^ 52 ≤ divRound n (unitAt n) := by
  have positive : 0 < unitAt n := Nat.two_pow_pos _
  have quotient : 2 ^ 52 ≤ n / unitAt n := (Nat.le_div_iff_mul_le positive).2 (unitAt_bounds large).1
  exact quotient.trans (divRound_bounds n (unitAt n)).1

theorem divRound_unitAt_le {n : Nat} (large : 2 ^ 52 ≤ n) : divRound n (unitAt n) ≤ 2 ^ 53 := by
  have positive : 0 < unitAt n := Nat.two_pow_pos _
  have quotient : n / unitAt n < 2 ^ 53 := (Nat.div_lt_iff_lt_mul positive).2 (unitAt_bounds large).2
  have := (divRound_bounds n (unitAt n)).2
  omega

/-- The magnitude from which on rounding gives an infinity. -/
def overflow : Nat := 2 ^ overflowExponent

theorem nearest_natural (negative : Bool) {n : Nat} (large : 2 ^ 52 ≤ n) :
    nearest negative n 1 =
      if overflow ≤ divRound n (unitAt n) * unitAt n then .infinite negative
      else .integer (Numeral.signed negative (divRound n (unitAt n) * unitAt n)) := by
  rcases le_log2 large with ⟨positive, logged⟩
  have rounded : divRound n (unitAt n) * unitAt n ≠ 0 := by
    have := le_divRound_unitAt large
    exact Nat.mul_ne_zero (by omega) (Nat.two_pow_pos _).ne'
  have exponent : max ((n.log2 : Int) - 52) minExponent = ((n.log2 - 52 : Nat) : Int) := by
    rw [minExponent]
    omega
  rw [nearest, if_neg positive, floorLog2_one positive]
  simp only [exponent]
  rw [if_pos (Int.natCast_nonneg _), Int.toNat_natCast, Nat.one_mul]
  exact if_congr (Nat.le_log2 rounded) rfl rfl

/-! ## Integers that are kept -/

theorem reduce_mul_pow (negative : Bool) (significand scale : Nat) :
    reduce negative (significand * 2 ^ scale) scale =
      .integer (Numeral.signed negative significand) := by
  induction scale with
  | zero => simp [reduce]
  | succ scale ih =>
      have doubled : significand * 2 ^ (scale + 1) = 2 * (significand * 2 ^ scale) := by ring
      simp [reduce, doubled, ih]

theorem nearest_below {n : Nat} (negative : Bool) (small : n < 2 ^ 52) :
    nearest negative n 1 = .integer (Numeral.signed negative n) := by
  by_cases isZero : n = 0
  · subst isZero
    cases negative <;> rfl
  · have logged : n.log2 < 52 := (Nat.log2_lt isZero).2 small
    have exponent : max ((n.log2 : Int) - 52) minExponent = -((52 - n.log2 : Nat) : Int) := by
      rw [minExponent]
      omega
    simp only [nearest, isZero, if_false, floorLog2_one isZero, exponent]
    rw [if_neg (by omega), Int.neg_neg, Int.toNat_natCast]
    have whole : divRound (n * Nat.pow 2 (52 - n.log2)) 1 = n * 2 ^ (52 - n.log2) := by
      simpa using divRound_mul (n * 2 ^ (52 - n.log2)) Nat.one_pos
    rw [whole, reduce_mul_pow]

theorem unitAt_dvd {n : Nat} (large : 2 ^ 52 ≤ n) (small : n ≤ 2 ^ 53) : unitAt n ∣ n := by
  rcases le_log2 large with ⟨positive, logged⟩
  rcases Nat.lt_or_eq_of_le small with below | isLast
  · have : n.log2 < 53 := (Nat.log2_lt positive).2 below
    simp [unitAt, show n.log2 - 52 = 0 by omega]
  · subst isLast
    rw [unitAt, Nat.log2_two_pow]
    exact Nat.pow_dvd_pow 2 (by decide)

/-- Up to `2 ^ 53` every integer is a number. -/
theorem nearest_of_small {n : Nat} (negative : Bool) (small : n ≤ 2 ^ 53) :
    nearest negative n 1 = .integer (Numeral.signed negative n) := by
  by_cases large : 2 ^ 52 ≤ n
  · obtain ⟨quotient, whole⟩ : ∃ quotient, n = quotient * unitAt n :=
      exists_eq_mul_left_of_dvd (unitAt_dvd large small)
    have kept : divRound n (unitAt n) * unitAt n = n := by
      have positive : 0 < unitAt n := Nat.two_pow_pos _
      have exactly := divRound_mul quotient positive
      rw [← whole] at exactly
      rw [exactly, ← whole]
    have finite : ¬overflow ≤ n := by
      have : 2 ^ 53 < overflow := Nat.pow_lt_pow_right (by decide) (by decide)
      omega
    rw [nearest_natural negative large, kept, if_neg finite]
  · exact nearest_below negative (by omega)

theorem ofInt_eq_integer {n : Int} (small : n.natAbs ≤ maxSafe + 1) : ofInt n = .integer n := by
  have signed : Numeral.signed (n < 0) n.natAbs = n := by
    simp only [Numeral.signed, decide_eq_true_eq]
    split <;> omega
  rw [ofInt, nearest_of_small _ small, signed]

/-! ## Integers that are rounded -/

theorem le_rounded {n : Nat} (large : 2 ^ 53 ≤ n) : 2 ^ 53 ≤ divRound n (unitAt n) * unitAt n := by
  have beyond : 2 ^ 52 ≤ n := by omega
  have unit : 2 ^ 1 ≤ unitAt n := by
    have logged : 53 ≤ n.log2 := (Nat.le_log2 (le_log2 beyond).1).2 large
    exact Nat.pow_le_pow_right (by decide) (by omega)
  exact Nat.mul_le_mul (le_divRound_unitAt beyond) unit

/-- Beyond `2 ^ 53` the nearest number has the sign of the integer and is beyond `2 ^ 53` as
well. -/
theorem ofInt_of_large {n : Int} (large : maxSafe + 1 < n.natAbs) :
    ofInt n = .infinite (n < 0) ∨
      ∃ magnitude : Nat, maxSafe < magnitude ∧
        ofInt n = .integer (Numeral.signed (n < 0) magnitude) := by
  rw [maxSafe_eq] at large
  rw [ofInt, nearest_natural _ (by omega)]
  split
  · exact Or.inl rfl
  · refine Or.inr ⟨_, ?_, rfl⟩
    exact Nat.lt_of_lt_of_le (by decide) (le_rounded (by omega))

/-- No other integer is rounded to a safe one, so the nearest number tells the safe integers. -/
theorem isSafeInteger_ofInt (n : Int) : (ofInt n).isSafeInteger = isSafe n := by
  by_cases small : n.natAbs ≤ maxSafe + 1
  · rw [ofInt_eq_integer small]
    rfl
  · have notSafe : isSafe n = false := by
      simp only [isSafe, decide_eq_false_iff_not]
      omega
    rw [notSafe]
    rcases ofInt_of_large (n := n) (by omega) with infinite | ⟨magnitude, beyond, rounded⟩
    · rw [infinite]
      rfl
    · simpa [rounded, isSafeInteger, isSafe] using beyond

/-- Rounding keeps the order with respect to the safe integers. -/
theorem isBetween_ofInt {low high : Int} (lowSafe : isSafe low = true) (highSafe : isSafe high = true)
    (n : Int) : (ofInt n).isBetween low high = true ↔ low ≤ n ∧ n ≤ high := by
  rw [isSafe_iff] at lowSafe highSafe
  by_cases small : n.natAbs ≤ maxSafe + 1
  · rw [ofInt_eq_integer small]
    simp [isBetween]
  · rcases ofInt_of_large (n := n) (by omega) with infinite | ⟨magnitude, beyond, rounded⟩
    · rw [infinite]
      simp only [isBetween, Bool.false_eq_true, false_iff]
      omega
    · rw [rounded]
      simp only [isBetween, Numeral.signed, decide_eq_true_eq, Bool.and_eq_true]
      split <;> omega

/-! ## The infinity -/

/-- The least natural number whose nearest number is an infinity. -/
def infiniteFrom : Nat := 2 ^ 1024 - 2 ^ 970

theorem overflow_eq : overflow = 2 ^ 54 * 2 ^ 970 := by
  rw [overflow, overflowExponent, ← pow_add]

theorem infiniteFrom_eq : infiniteFrom = (2 * 2 ^ 53 - 1) * 2 ^ 970 := by
  rw [infiniteFrom, Nat.sub_mul, ← pow_succ', ← pow_add, Nat.one_mul]

theorem overflow_le_iff {n : Nat} (large : 2 ^ 52 ≤ n) :
    overflow ≤ divRound n (unitAt n) * unitAt n ↔ infiniteFrom ≤ n := by
  have bounds := unitAt_bounds large
  have positive : ∀ exponent, 0 < 2 ^ exponent := Nat.two_pow_pos
  rw [overflow_eq, infiniteFrom_eq]
  rcases Nat.lt_trichotomy (n.log2 - 52) 971 with below | isLast | beyond
  · have small : unitAt n ≤ 2 ^ 970 := by
      unfold unitAt
      gcongr
      · decide
      · omega
    have rounded : divRound n (unitAt n) * unitAt n ≤ 2 ^ 53 * 2 ^ 970 :=
      Nat.mul_le_mul (divRound_unitAt_le large) small
    have bounded : 2 ^ 53 * unitAt n ≤ 2 ^ 53 * 2 ^ 970 := Nat.mul_le_mul_left _ small
    have halfPositive := positive 970
    generalize 2 ^ 970 = half at *
    omega
  · have unit_eq : unitAt n = 2 * 2 ^ 970 := by rw [unitAt, isLast, ← pow_succ']
    have whole : 2 ^ 54 * 2 ^ 970 = 2 ^ 53 * (2 * 2 ^ 970) := by
      rw [← Nat.mul_assoc, ← pow_succ]
    rw [unit_eq, whole, Nat.mul_le_mul_right_iff (Nat.mul_pos (by decide) (positive 970))]
    exact le_divRound_iff (positive 970) (positive 53) (by decide)
  · have big : 2 ^ 2 * 2 ^ 970 ≤ unitAt n := by
      rw [← pow_add]
      unfold unitAt
      gcongr
      · decide
      · exact beyond
    have rounded : 2 ^ 52 * (2 ^ 2 * 2 ^ 970) ≤ divRound n (unitAt n) * unitAt n :=
      Nat.mul_le_mul (le_divRound_unitAt large) big
    have bounded : 2 ^ 52 * (2 ^ 2 * 2 ^ 970) ≤ 2 ^ 52 * unitAt n := Nat.mul_le_mul_left _ big
    generalize 2 ^ 970 = half at *
    omega

/-- A natural number is nearest to an integer, and to a positive one if it is positive itself, up to
the point from which it is nearest to the infinity. -/
theorem ofInt_natural (n : Nat) :
    (n < infiniteFrom → ∃ m : Nat, ofInt n = .integer m ∧ (0 < n → 0 < m)) ∧
      (infiniteFrom ≤ n → ofInt n = .infinite false) := by
  by_cases small : (n : Int).natAbs ≤ maxSafe + 1
  · have finite : n < infiniteFrom := by
      rw [Int.natAbs_natCast, maxSafe_eq] at small
      rw [infiniteFrom_eq]
      have halfPositive : ∀ exponent, 0 < 2 ^ exponent := Nat.two_pow_pos
      have := halfPositive 970
      generalize 2 ^ 970 = half at *
      omega
    refine ⟨fun _ => ⟨n, ofInt_eq_integer small, id⟩, fun infinite => ?_⟩
    omega
  · have large : 2 ^ 52 ≤ n := by
      rw [Int.natAbs_natCast, maxSafe_eq] at small
      omega
    have rounded : ofInt n = nearest false n 1 := by
      rw [ofInt, Int.natAbs_natCast]
      congr 1
    rw [rounded, nearest_natural false large]
    constructor
    · intro finite
      refine ⟨_, if_neg (mt (overflow_le_iff large).1 (by omega)), fun _ => ?_⟩
      exact Nat.mul_pos (Nat.lt_of_lt_of_le (by decide) (le_divRound_unitAt large)) (Nat.two_pow_pos _)
    · intro infinite
      exact if_pos ((overflow_le_iff large).2 infinite)

end Number

end FlowLog
