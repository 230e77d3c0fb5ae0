/-!
# Searching a text

`find?` gives the position of the first occurrence of a word, and `splitLast?` cuts a text at the
last occurrence of one character.
-/

namespace FlowLog.Text

/-- The position of the first occurrence of `word` in a text. -/
def find? (word : List Char) : List Char → Option Nat
  | [] => if word.isEmpty then some 0 else none
  | c :: rest => if word.isPrefixOf (c :: rest) then some 0 else (find? word rest).map (· + 1)

/-- The parts before and after the last occurrence of `separator`. -/
def splitLast? (separator : Char) (text : List Char) : Option (List Char × List Char) :=
  match text.reverse.dropWhile (· != separator) with
  | [] => none
  | _ :: before => some (before.reverse, (text.reverse.takeWhile (· != separator)).reverse)

/-- An occurrence lies inside the text, and the word stands there. -/
theorem isPrefix_drop_of_find? {word text : List Char} {position : Nat}
    (found : find? word text = some position) : word <+: text.drop position := by
  induction text generalizing position with
  | nil =>
      simp only [find?] at found
      split at found
      · rename_i isEmpty
        rw [List.isEmpty_iff.1 isEmpty]
        exact List.nil_prefix
      · simp at found
  | cons c rest ih =>
      simp only [find?] at found
      split at found
      · rename_i starts
        obtain rfl : 0 = position := by simpa using found
        exact List.isPrefixOf_iff_prefix.1 starts
      · obtain ⟨later, foundLater, rfl⟩ := Option.map_eq_some_iff.1 found
        simpa using ih foundLater

/-- Cutting at the last separator undoes putting a separator in front of a text that has none. -/
theorem splitLast?_append {separator : Char} {before after : List Char}
    (absent : separator ∉ after) :
    splitLast? separator (before ++ separator :: after) = some (before, after) := by
  have differs : ∀ c ∈ after.reverse, (c != separator) = true := by
    intro c isMember
    simp only [bne_iff_ne, ne_eq]
    rintro rfl
    exact absent (List.mem_reverse.1 isMember)
  have reversed : (before ++ separator :: after).reverse =
      after.reverse ++ separator :: before.reverse := by
    simp
  simp [splitLast?, reversed, List.dropWhile_append_of_pos differs,
    List.takeWhile_append_of_pos differs]

end FlowLog.Text
