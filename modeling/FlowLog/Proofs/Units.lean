import Mathlib.Data.List.Basic
import FlowLog.Text.Units

/-!
# Units and characters

A text is written in characters and held in units, and `Text.join` leads from units to characters.
Joining goes through a text piece by piece, as long as no pair of halves is cut apart: in front of a
character that is no second half (`join_append`), and behind characters that are no first halves
(`join_append_of_plain`).

`Text.renew` says what becomes of units that are joined and split again, where a half without its
partner is kept as it is. A text in units stays the same.
-/

namespace FlowLog.Text

/-- Whether a character stands for one unit. -/
def isUnit (c : Char) : Bool := c.toNat < 0x10000 || isHighHalf c || isLowHalf c

/-- A text in units, as the library holds it. -/
def AreUnits (text : List Char) : Prop := text.all isUnit = true

instance : DecidablePred AreUnits := fun text => inferInstanceAs (Decidable (text.all isUnit = true))

theorem join_append {left right : List Char} (notLow : ∀ c ∈ right.head?, isLowHalf c = false) :
    join (left ++ right) = join left ++ join right := by
  induction left using join.induct with
  | case1 first second rest isPair ih =>
      simp only [List.cons_append, join, if_pos isPair, ih]
  | case2 first second rest notPair ih =>
      rw [List.cons_append, List.cons_append, join, if_neg notPair, ← List.cons_append, ih, join,
        if_neg notPair, List.cons_append]
  | case3 unit =>
      cases right with
      | nil => simp [join]
      | cons c rest => simp [join, notLow c rfl]
  | case4 => rfl

theorem join_append_of_plain {left : List Char} (plain : ∀ c ∈ left, isHighHalf c = false)
    (right : List Char) : join (left ++ right) = left ++ join right := by
  induction left with
  | nil => rfl
  | cons c rest ih =>
      rw [List.forall_mem_cons] at plain
      rw [List.cons_append, join_cons_of_not_high plain.1, ih plain.2, List.cons_append]

theorem join_of_plain {text : List Char} (plain : ∀ c ∈ text, isHighHalf c = false) :
    join text = text := by
  have joined := join_append_of_plain plain []
  rwa [List.append_nil, join, List.append_nil] at joined

theorem toNat_lt (c : Char) : c.toNat < 0x110000 := by
  have := c.valid
  simp only [UInt32.isValidChar, Nat.isValidChar] at this
  simp only [Char.toNat]
  omega

theorem toNat_ofNat {n : Nat} (valid : n.isValidChar) : (Char.ofNat n).toNat = n := by
  rw [Char.ofNat, dif_pos valid]
  rfl

theorem unitsOf_pair {high low : Char} (isHigh : isHighHalf high = true) (isLow : isLowHalf low = true) :
    0x10000 ≤ (pair high low).toNat ∧ unitsOf (pair high low) = [high, low] := by
  simp only [isHighHalf, isLowHalf, Bool.and_eq_true, decide_eq_true_eq] at isHigh isLow
  have value : (pair high low).toNat =
      0x10000 + (high.toNat - 0x10D800) * 0x400 + (low.toNat - 0x10DC00) := by
    apply toNat_ofNat
    right
    omega
  have first : half (0xD800 + ((pair high low).toNat - 0x10000) / 0x400) = high := by
    rw [half, halfOffset]
    have code : 0x100000 + (0xD800 + ((pair high low).toNat - 0x10000) / 0x400) = high.toNat := by omega
    rw [code, Char.ofNat_toNat]
  have second : half (0xDC00 + ((pair high low).toNat - 0x10000) % 0x400) = low := by
    rw [half, halfOffset]
    have code : 0x100000 + (0xDC00 + ((pair high low).toNat - 0x10000) % 0x400) = low.toNat := by omega
    rw [code, Char.ofNat_toNat]
  have large : 0x10000 ≤ (pair high low).toNat := by omega
  refine ⟨large, ?_⟩
  rw [unitsOf, if_neg (by omega)]
  simp only [first, second]

/-- A character as it is read again: one that stands for no unit is split. -/
def renewUnit (c : Char) : List Char := if isUnit c then [c] else unitsOf c

/-- A text as it is read again after it was written. -/
def renew (text : List Char) : List Char := text.flatMap renewUnit

theorem renewUnit_of_isUnit {c : Char} (isUnit : isUnit c = true) : renewUnit c = [c] := if_pos isUnit

theorem renewUnit_of_not_half {c : Char} (notHigh : isHighHalf c = false)
    (notLow : isLowHalf c = false) :
    renewUnit c = unitsOf c := by
  by_cases basic : c.toNat < 0x10000
  · rw [unitsOf, if_pos basic]
    exact renewUnit_of_isUnit (by simp [isUnit, basic])
  · exact if_neg (by simp [isUnit, basic, notHigh, notLow])

theorem renew_of_areUnits {text : List Char} (areUnits : AreUnits text) : renew text = text := by
  have single : ∀ c ∈ text, renewUnit c = [c] := fun c isMember =>
    renewUnit_of_isUnit (List.all_eq_true.1 areUnits c isMember)
  rw [renew, List.flatMap_congr single, List.flatMap_singleton']

/-- Nothing but a text itself is read again as this text, if it is within the basic plane. -/
theorem eq_of_renew {text basic : List Char} (isBasic : ∀ c ∈ basic, c.toNat < 0x10000)
    (same : renew text = basic) : text = basic := by
  have areUnits : AreUnits text := by
    refine List.all_eq_true.2 fun c isMember => ?_
    by_contra notUnit
    have large : ¬c.toNat < 0x10000 := by
      intro small
      simp [isUnit, small] at notUnit
    have bound := toNat_lt c
    have isHalf := toNat_half (0xD800 + (c.toNat - 0x10000) / 0x400) (by omega)
    have isFirst : half (0xD800 + (c.toNat - 0x10000) / 0x400) ∈ basic := by
      rw [← same]
      refine List.mem_flatMap.2 ⟨c, isMember, ?_⟩
      rw [renewUnit, if_neg notUnit, unitsOf, if_neg large]
      exact List.mem_cons_self
    have small := isBasic _ isFirst
    rw [isHalf, halfOffset] at small
    omega
  rw [← same, renew_of_areUnits areUnits]

end FlowLog.Text
