/-!
# Blank characters and trimming

The blank characters are the spaces and line ends of Unicode together with the byte order mark. The
next line control `U+0085` and the zero width space `U+200B` are not blank.
-/

namespace FlowLog.Text

/-- Whether a character is dropped from the ends of a text by `trim`. -/
def isBlank (c : Char) : Bool :=
  let code := c.toNat
  (0x09 ≤ code && code ≤ 0x0D) || code == 0x20 || code == 0xA0 || code == 0x1680 ||
    (0x2000 ≤ code && code ≤ 0x200A) || code == 0x2028 || code == 0x2029 || code == 0x202F ||
    code == 0x205F || code == 0x3000 || code == 0xFEFF

/-- The text without the blank characters at its end. -/
def trimEnd (text : List Char) : List Char := (text.reverse.dropWhile isBlank).reverse

/-- The text without the blank characters at its two ends. -/
def trim (text : List Char) : List Char := trimEnd (text.dropWhile isBlank)

/-- The string without the blank characters at its two ends. -/
def trimmed (s : String) : String := String.ofList (trim s.toList)

/-- Whether a text has nothing but blank characters. -/
def blank (text : List Char) : Bool := (trim text).isEmpty

/-- Trimming never lengthens a text. -/
theorem length_trim_le (text : List Char) : (trim text).length ≤ text.length := by
  simp only [trim, trimEnd, List.length_reverse]
  refine Nat.le_trans (List.dropWhile_sublist _).length_le ?_
  rw [List.length_reverse]
  exact (List.dropWhile_sublist _).length_le

end FlowLog.Text
