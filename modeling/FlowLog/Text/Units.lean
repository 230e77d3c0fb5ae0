/-!
# Texts as sequences of 16-bit units

Positions, lengths and cuts in a filter text count 16-bit units. A character of the basic plane is
one unit and any other character is two, a high half and a low half. Inside the library every text
is already split this way: one `Char` stands for one unit, and a half is held by the private-use
character `0x100000` above it. Taking, dropping and measuring lists of characters are then exact,
and a half that a cut separates from its partner is still a character of its own.

`Text.split` leads into this form and `Text.join` leads out of it; `join_split` says that nothing is
lost in between.
-/

namespace FlowLog.Text

/-- Distance between a half and the character that holds it. -/
def halfOffset : Nat := 0x100000

/-- The character that holds the half with the given unit value. -/
def half (unit : Nat) : Char := Char.ofNat (halfOffset + unit)

/-- The unit value of a character: the value of the half it holds, else its own code. -/
def unitValue (c : Char) : Nat :=
  if halfOffset ≤ c.toNat then c.toNat - halfOffset else c.toNat

/-- Whether a character holds the first half of a pair. -/
def isHighHalf (c : Char) : Bool := 0x10D800 ≤ c.toNat && c.toNat ≤ 0x10DBFF

/-- Whether a character holds the second half of a pair. -/
def isLowHalf (c : Char) : Bool := 0x10DC00 ≤ c.toNat && c.toNat ≤ 0x10DFFF

/-- The units of one character. -/
def unitsOf (c : Char) : List Char :=
  if c.toNat < 0x10000 then [c]
  else
    let rest := c.toNat - 0x10000
    [half (0xD800 + rest / 0x400), half (0xDC00 + rest % 0x400)]

/-- The character that two matching halves make. -/
def pair (high low : Char) : Char :=
  Char.ofNat (0x10000 + (high.toNat - 0x10D800) * 0x400 + (low.toNat - 0x10DC00))

/-- The units of a sequence of characters. -/
def split (characters : List Char) : List Char := characters.flatMap unitsOf

/-- The characters of a sequence of units: neighbouring halves that match become one character. -/
def join : List Char → List Char
  | first :: second :: rest =>
      if isHighHalf first && isLowHalf second then pair first second :: join rest
      else first :: join (second :: rest)
  | [unit] => [unit]
  | [] => []

/-- A string with each character replaced by its units. -/
def toUnits (s : String) : String := String.ofList (split s.toList)

/-- A string with matching halves joined to characters. -/
def ofUnits (s : String) : String := String.ofList (join s.toList)

theorem toNat_half (unit : Nat) (isHalf : 0xD800 ≤ unit ∧ unit < 0xE000) :
    (half unit).toNat = halfOffset + unit := by
  have valid : (halfOffset + unit).isValidChar := by
    right
    simp only [halfOffset]
    omega
  rw [half, Char.ofNat, dif_pos valid]
  rfl

theorem isHighHalf_eq_false {c : Char} (basic : c.toNat < 0x10000) : isHighHalf c = false := by
  simp only [isHighHalf, Bool.and_eq_false_iff, decide_eq_false_iff_not]
  left
  omega

/-- A character that is not a half stands for itself in front of any units. -/
theorem join_cons_of_not_high {c : Char} (notHigh : isHighHalf c = false) (rest : List Char) :
    join (c :: rest) = c :: join rest := by
  cases rest with
  | nil => rfl
  | cons next rest => simp [join, notHigh]

theorem join_unitsOf_append (c : Char) (rest : List Char) :
    join (unitsOf c ++ rest) = c :: join rest := by
  by_cases basic : c.toNat < 0x10000
  · simp [unitsOf, basic, join_cons_of_not_high (isHighHalf_eq_false basic)]
  · have bound : c.toNat < 0x110000 := by
      have := c.valid
      simp only [UInt32.isValidChar, Nat.isValidChar] at this
      simp only [Char.toNat]
      omega
    have highValue := toNat_half (0xD800 + (c.toNat - 0x10000) / 0x400) (by omega)
    have lowValue := toNat_half (0xDC00 + (c.toNat - 0x10000) % 0x400) (by omega)
    simp only [halfOffset] at highValue lowValue
    have isHigh : isHighHalf (half (0xD800 + (c.toNat - 0x10000) / 0x400)) = true := by
      simp only [isHighHalf, highValue, Bool.and_eq_true, decide_eq_true_eq]
      omega
    have isLow : isLowHalf (half (0xDC00 + (c.toNat - 0x10000) % 0x400)) = true := by
      simp only [isLowHalf, lowValue, Bool.and_eq_true, decide_eq_true_eq]
      omega
    have paired : pair (half (0xD800 + (c.toNat - 0x10000) / 0x400))
        (half (0xDC00 + (c.toNat - 0x10000) % 0x400)) = c := by
      rw [pair, highValue, lowValue]
      have value : 0x10000 + (0x100000 + (0xD800 + (c.toNat - 0x10000) / 0x400) - 0x10D800) * 0x400 +
          (0x100000 + (0xDC00 + (c.toNat - 0x10000) % 0x400) - 0x10DC00) = c.toNat := by
        omega
      rw [value, Char.ofNat_toNat]
    simp [unitsOf, basic, join, isHigh, isLow, paired]

/-- Joining the units of some characters gives the characters back. -/
@[simp]
theorem join_split (characters : List Char) : join (split characters) = characters := by
  induction characters with
  | nil => rfl
  | cons c rest ih =>
      show join (unitsOf c ++ split rest) = c :: rest
      rw [join_unitsOf_append, ih]

@[simp]
theorem ofUnits_toUnits (s : String) : ofUnits (toUnits s) = s := by
  simp [ofUnits, toUnits]

end FlowLog.Text
