import FlowLog.Text.Blank

/-!
# Letter case ignored while searching

Keywords, operators and names are searched in the folded text. Every word searched for is written in
lower-case ASCII letters, so folding has to be right for the characters whose lower case is, or
contains, such a letter: the upper-case ASCII letters, the Kelvin sign (`k`), and `U+0130`, whose
lower case is the letter `i` followed by a combining dot. That last one makes a folded text longer
than the written one.
-/

namespace FlowLog.Text

/-- The folded form of one character. -/
def foldChar (c : Char) : List Char :=
  if c = '\u0130' then ['i', '\u0307']
  else if c = '\u212A' then ['k']
  else [c.toLower]

/-- The folded form of a text. -/
def fold (text : List Char) : List Char := text.flatMap foldChar

/-- The folded form of a string. -/
def folded (s : String) : String := String.ofList (fold s.toList)

/-- The folded form of a string without the blanks around it. -/
def normalized (s : String) : String := folded (trimmed s)

@[simp]
theorem fold_nil : fold [] = [] := rfl

@[simp]
theorem fold_cons (c : Char) (text : List Char) : fold (c :: text) = foldChar c ++ fold text := rfl

@[simp]
theorem fold_append (left right : List Char) : fold (left ++ right) = fold left ++ fold right := by
  simp [fold]

end FlowLog.Text
