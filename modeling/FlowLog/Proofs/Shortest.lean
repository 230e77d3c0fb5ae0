import FlowLog.Number.Shortest
import FlowLog.Proofs.Rounding

/-!
# The text of an integer

The text of a number has as few significant digits as read back as the number. For an integer up to
`2 ^ 53` these are its own digits up to the zeros at its end, because no other integer in its
neighbourhood reads back as it. The zeros are written out, so that the text is the canonical numeral
and has no exponent (`Number.text_integer`).
-/

namespace FlowLog

theorem Numeral.digits_mul_pow {c : Nat} (positive : 0 < c) (k : Nat) :
    digits (c * 10 ^ k) = digits c ++ List.replicate k '0' := by
  induction k with
  | zero => simp
  | succ k ih =>
      have appended := Nat.toDigits_append_toDigits (b := 10) (n := c * 10 ^ k) (d := 0) (by decide)
        (Nat.mul_pos positive (Nat.pow_pos (by decide))) (by decide)
      have shifted : c * 10 ^ (k + 1) = 10 * (c * 10 ^ k) + 0 := by ring
      rw [digits, shifted, ← appended, Nat.toDigits_zero]
      change digits (c * 10 ^ k) ++ _ = _
      rw [ih, List.replicate_succ', List.append_assoc]

theorem Numeral.length_digits_le {n count : Nat} (positive : 0 < count) (bounded : n < 10 ^ count) :
    (digits n).length ≤ count :=
  (Nat.length_toDigits_le_iff (by decide) positive).2 bounded

theorem Numeral.length_digits_safe {n : Nat} (safe : n ≤ Number.maxSafe) : (digits n).length ≤ 16 := by
  rw [Number.maxSafe_eq] at safe
  exact length_digits_le (by decide) (by omega)

namespace Number

theorem ofInt_natCast (m : Nat) : ofInt m = nearest false m 1 := by
  rw [ofInt, Int.natAbs_natCast]
  congr 1

/-- A safe integer is the nearest number of no other integer. -/
theorem ofInt_eq_safe {m n : Int} (safe : n.natAbs ≤ maxSafe) : ofInt m = .integer n ↔ m = n := by
  by_cases small : m.natAbs ≤ maxSafe + 1
  · simp [ofInt_eq_integer small]
  · have differs : m ≠ n := by
      rintro rfl
      omega
    simp only [differs, iff_false]
    rcases ofInt_of_large (n := m) (by omega) with infinite | ⟨magnitude, beyond, rounded⟩
    · simp [infinite]
    · rw [rounded, integer.injEq]
      rintro rfl
      simp at safe
      omega

variable {n : Nat}

/-- A coefficient with zeros behind it reads back as a safe integer only if it is that integer. -/
theorem ofDecimal_eq_safe (safe : n ≤ maxSafe) {coefficient exponent : Nat} (notZero : coefficient ≠ 0)
    (short : (Numeral.digits coefficient).length + exponent ≤ 330) :
    ofDecimal { negative := false, coefficient, exponent } = .integer n ↔
      coefficient * 10 ^ exponent = n := by
  have rounded : ofDecimal { negative := false, coefficient, exponent } =
      ofInt ((coefficient * 10 ^ exponent : Nat) : Int) := by
    rw [ofInt_natCast, ofDecimal]
    dsimp only
    rw [if_neg (by omega), if_neg (by omega), if_pos (by omega), Int.toNat_natCast]
    rfl
  rw [rounded, ofInt_eq_safe (by simpa using safe), Nat.cast_inj]

theorem scaleTen_zeros (n k : Nat) : scaleTen n 1 (-(k : Int)) = (n, 10 ^ k) := by
  cases k with
  | zero => simp [scaleTen]
  | succ k =>
      rw [scaleTen, if_neg (by omega), Int.neg_neg, Int.toNat_natCast, Nat.one_mul]
      rfl

/-- Of the integers next to a safe one that end with `k` zeros, only the integer itself reads back
as it. -/
theorem roundTrip?_zeros (positive : 0 < n) (safe : n ≤ maxSafe) {k : Nat} (few : k ≤ 16) :
    roundTrip? (.integer n) (-(k : Int)) = if 10 ^ k ∣ n then some (n / 10 ^ k) else none := by
  have readsBack : ∀ c, c ≤ n / 10 ^ k + 1 → (c != 0 &&
      ofDecimal { negative := false, coefficient := c, exponent := -(-(k : Int)) } == .integer n) =
        decide (c * 10 ^ k = n) := by
    intro c bounded
    by_cases isZero : c = 0
    · subst isZero
      simp [positive.ne]
    · have short : (Numeral.digits c).length + k ≤ 330 := by
        have : (Numeral.digits c).length ≤ 17 := by
          apply Numeral.length_digits_le (by decide)
          have := Nat.div_le_self n (10 ^ k)
          rw [maxSafe_eq] at safe
          omega
        omega
      rw [Int.neg_neg, Bool.eq_iff_iff]
      simp [isZero, ofDecimal_eq_safe safe isZero short]
  have above : (n / 10 ^ k + 1) * 10 ^ k ≠ n := by
    have := Nat.lt_mul_div_succ n (Nat.pow_pos (n := k) (show 0 < 10 by decide))
    rw [Nat.mul_comm]
    omega
  have below : n / 10 ^ k * 10 ^ k = n ↔ 10 ^ k ∣ n := (Nat.dvd_iff_div_mul_eq n _).symm
  simp only [roundTrip?, ratio, Int.natAbs_natCast, scaleTen_zeros]
  split
  · rw [List.find?_cons, List.find?_singleton, readsBack _ (by omega), readsBack _ (by omega)]
    by_cases divides : 10 ^ k ∣ n <;> simp [above, below, divides]
  · rw [List.find?_cons, List.find?_singleton, readsBack _ (by omega), readsBack _ (by omega)]
    by_cases divides : 10 ^ k ∣ n <;> simp [above, below, divides]

/-- The first index at which a search over `List.range` succeeds. -/
theorem exists_first_of_findSome?_range {α : Type} {f : Nat → Option α} (bound : Nat) {index : Nat}
    (inside : index < bound) (hit : (f index).isSome = true) :
    ∃ first result, (List.range bound).findSome? f = some result ∧ f first = some result ∧
      first ≤ index ∧ ∀ earlier < first, f earlier = none := by
  cases found : (List.range bound).findSome? f with
  | none =>
      have misses := List.findSome?_eq_none_iff.1 found index (List.mem_range.2 inside)
      simp [misses] at hit
  | some result =>
      rcases List.findSome?_eq_some_iff.1 found with ⟨before, first, after, whole, isResult, misses⟩
      have ascending := List.pairwise_lt_range (n := bound)
      rw [whole, List.pairwise_append, List.pairwise_cons] at ascending
      have earlierMisses : ∀ earlier < first, f earlier = none := by
        intro earlier isEarlier
        have isMember : earlier ∈ before ++ first :: after := by
          have isFirst : first ∈ List.range bound := by simp [whole]
          rw [List.mem_range] at isFirst
          rw [← whole, List.mem_range]
          omega
        rcases List.mem_append.1 isMember with isBefore | isAfter
        · exact misses earlier isBefore
        · rcases List.mem_cons.1 isAfter with rfl | isLater
          · omega
          · have := ascending.2.1.1 earlier isLater
            omega
      refine ⟨first, result, rfl, isResult, ?_, earlierMisses⟩
      by_contra isBehind
      simp [earlierMisses index (by omega)] at hit

/-- With `extra + 1` of its digits kept, a safe integer reads back if the others are zeros. -/
theorem withDigits?_integer (positive : 0 < n) (safe : n ≤ maxSafe) {length extra : Nat}
    (short : length ≤ 16) (inside : extra < length) :
    withDigits? (.integer n) length extra =
      if 10 ^ (length - 1 - extra) ∣ n then
        some (n / 10 ^ (length - 1 - extra), -((length - 1 - extra : Nat) : Int)) else none := by
  have places : (extra : Int) + 1 - length = -((length - 1 - extra : Nat) : Int) := by omega
  rw [withDigits?, places, roundTrip?_zeros positive safe (by omega)]
  split <;> rfl

/-- The coefficient of a safe integer is the integer without the zeros at its end. -/
theorem shortest_integer (positive : 0 < n) (safe : n ≤ maxSafe) :
    ∃ c k : Nat, shortest (.integer n) = (c, -(k : Int)) ∧ c * 10 ^ k = n ∧ c % 10 ≠ 0 := by
  have short := Numeral.length_digits_safe safe
  have nonempty : 0 < (Numeral.digits n).length := Nat.length_toDigits_pos
  have bounded : n < 10 ^ (Numeral.digits n).length :=
    (Nat.length_toDigits_le_iff (by decide) nonempty).1 (Nat.le_refl _)
  have point : pointPosition n 1 = (Numeral.digits n).length := by
    simp [pointPosition, Nat.one_le_iff_ne_zero, positive.ne']
  simp only [shortest, ratio, Int.natAbs_natCast, point]
  generalize (Numeral.digits n).length = length at *
  have allDigits : (withDigits? (.integer n) length (length - 1)).isSome = true := by
    rw [withDigits?_integer positive safe short (by omega)]
    simp
  rcases exists_first_of_findSome?_range 17 (by omega) allDigits with
    ⟨first, result, found, isResult, isInside, misses⟩
  rw [withDigits?_integer positive safe short (by omega)] at isResult
  split at isResult
  · next divides =>
      cases isResult
      refine ⟨_, _, by rw [found]; rfl, Nat.div_mul_cancel divides, ?_⟩
      intro endsWithZero
      cases first with
      | zero =>
          have isDigit : n / 10 ^ (length - 1 - 0) < 10 := by
            rw [Nat.div_lt_iff_lt_mul (Nat.pow_pos (by decide)), ← pow_succ']
            rwa [show length - 1 - 0 + 1 = length by omega]
          have notZero := Nat.div_pos (Nat.le_of_dvd positive divides) (Nat.pow_pos (by decide))
          rw [Nat.mod_eq_of_lt isDigit] at endsWithZero
          exact notZero.ne' endsWithZero
      | succ earlier =>
          have missed := misses earlier (by omega)
          rw [withDigits?_integer positive safe short (by omega), if_pos] at missed
          · cases missed
          · rw [show length - 1 - earlier = length - 1 - (earlier + 1) + 1 by omega, Nat.pow_succ]
            exact Nat.mul_dvd_of_dvd_div divides (Nat.dvd_of_mod_eq_zero endsWithZero)
  · cases isResult

theorem stripZeros_of_ne {coefficient : Nat} (ends : coefficient % 10 ≠ 0) (fuel : Nat) (places : Int) :
    stripZeros fuel coefficient places = (coefficient, places) := by
  cases fuel with
  | zero => rfl
  | succ fuel => simp [stripZeros, ends]

theorem layout_zeros {digits : List Char} {k : Nat} (short : digits.length + k ≤ 21) :
    layout digits (digits.length + k) = digits ++ List.replicate k '0' := by
  have positionalPoint : positional.1 < (digits.length : Int) + k ∧
      (digits.length : Int) + k ≤ positional.2 := by
    simp only [positional]
    omega
  rw [layout, if_pos positionalPoint, if_pos (by omega), add_sub_cancel_left, Int.toNat_natCast]

theorem magnitudeText_safe (positive : 0 < n) (safe : n ≤ maxSafe) :
    magnitudeText (.integer n) = Numeral.digits n := by
  rcases shortest_integer positive safe with ⟨c, k, isShortest, whole, ends⟩
  have written : Numeral.digits n = Numeral.digits c ++ List.replicate k '0' := by
    rw [← whole]
    exact Numeral.digits_mul_pow (by omega) k
  have short := Numeral.length_digits_safe safe
  rw [written, List.length_append, List.length_replicate] at short
  simp only [magnitudeText, isShortest, stripZeros_of_ne ends, Int.sub_neg]
  rw [layout_zeros (by omega), written]

/-- The last integer of the range, to which its successor is rounded as well. -/
theorem magnitudeText_last :
    magnitudeText (.integer 9007199254740992) = Numeral.digits 9007199254740992 := by
  decide +kernel

/-- Up to `2 ^ 53` an integer is written with its canonical numeral. -/
theorem text_integer {n : Int} (small : n.natAbs ≤ maxSafe + 1) :
    text (.integer n) = Numeral.ofInt n := by
  have magnitude : ∀ m : Nat, 0 < m → m ≤ maxSafe + 1 →
      magnitudeText (.integer m) = Numeral.digits m := by
    intro m positive bounded
    rcases Nat.lt_or_eq_of_le bounded with below | isLast
    · exact magnitudeText_safe positive (by omega)
    · rw [maxSafe_eq] at isLast
      subst isLast
      exact magnitudeText_last
  rcases Int.lt_trichotomy n 0 with negative | isZero | positive
  · rw [text, if_neg (by omega), if_pos negative, Numeral.ofInt, if_pos negative,
      ← magnitude n.natAbs (by omega) small, Int.ofNat_natAbs_of_nonpos (by omega)]
  · subst isZero
    decide
  · rw [text, if_neg (by omega), if_neg (by omega), Numeral.ofInt, if_neg (by omega),
      ← magnitude n.natAbs (by omega) small, Int.natAbs_of_nonneg (by omega)]

end Number

end FlowLog
