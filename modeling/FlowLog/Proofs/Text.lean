import Mathlib.Data.List.DropRight
import Mathlib.Data.List.Infix
import FlowLog.Text.Blank
import FlowLog.Text.Fold
import FlowLog.Text.Search

/-!
# Laws of trimming, folding and searching

A text that neither starts nor ends with a blank character is its own trimmed form, and every
trimmed form is such a text.

A text without `U+0130` is aligned: folding replaces each of its characters by exactly one, so a
position in the folded text is the same position in the written one. Folding never makes a space or
a symbol out of another character.

The section on searching says where `find?` finds a word, in terms of occurrences of the word.
-/

namespace FlowLog.Text

/-! ## Trimming -/

theorem trim_eq_self {text : List Char} (headVisible : ∀ c ∈ text.head?, isBlank c = false)
    (lastVisible : ∀ c ∈ text.getLast?, isBlank c = false) : trim text = text := by
  have leading : text.dropWhile isBlank = text := by
    cases text with
    | nil => rfl
    | cons c rest => simp [headVisible c (by simp)]
  rw [trim, leading]
  apply List.rdropWhile_eq_self_iff.2
  intro nonempty
  simp [lastVisible _ (List.getLast?_eq_some_getLast nonempty)]

theorem head?_trim_visible (text : List Char) : ∀ c ∈ (trim text).head?, isBlank c = false := by
  intro c isHead
  obtain ⟨rest, shape⟩ : ∃ rest, trim text = c :: rest := by
    cases shape : trim text with
    | nil => simp [shape] at isHead
    | cons first rest => exact ⟨rest, by simpa [shape] using isHead⟩
  have starts : c :: rest <+: text.dropWhile isBlank := by
    rw [← shape]
    exact List.rdropWhile_prefix isBlank (text.dropWhile isBlank)
  rcases starts with ⟨after, whole⟩
  have nonempty : text.dropWhile isBlank ≠ [] := by simp [← whole]
  have visible := List.head_dropWhile_not isBlank nonempty
  simpa [← whole] using visible

theorem getLast?_trim_visible (text : List Char) : ∀ c ∈ (trim text).getLast?, isBlank c = false := by
  intro c isLast
  have nonempty : trim text ≠ [] := by
    rintro isNil
    simp [isNil] at isLast
  have visible : ¬isBlank ((trim text).getLast nonempty) = true :=
    List.rdropWhile_last_not isBlank (text.dropWhile isBlank) nonempty
  rw [List.getLast?_eq_some_getLast nonempty, Option.mem_some_iff] at isLast
  subst isLast
  simpa using visible

/-- Trimming twice is trimming once. -/
@[simp]
theorem trim_trim (text : List Char) : trim (trim text) = trim text :=
  trim_eq_self (head?_trim_visible text) (getLast?_trim_visible text)

theorem trim_of_visible {text : List Char} (visible : ∀ c ∈ text, isBlank c = false) :
    trim text = text :=
  trim_eq_self (fun c isHead => visible c (List.mem_of_mem_head? isHead))
    fun c isLast => visible c (List.mem_of_mem_getLast? isLast)

theorem trim_isInfix (text : List Char) : trim text <:+: text :=
  (List.rdropWhile_prefix isBlank _).isInfix.trans (List.dropWhile_suffix isBlank).isInfix

/-- A text whose first and last characters are visible. -/
structure Framed (text : List Char) : Prop where
  starts : ∃ c rest, text = c :: rest ∧ isBlank c = false
  ends : ∃ before c, text = before ++ [c] ∧ isBlank c = false

namespace Framed

theorem of_visible {text : List Char} (nonempty : text ≠ [])
    (visible : ∀ c ∈ text, isBlank c = false) : Framed text where
  starts := by
    rcases List.exists_cons_of_ne_nil nonempty with ⟨first, rest, rfl⟩
    exact ⟨first, rest, rfl, visible first List.mem_cons_self⟩
  ends := by
    refine ⟨text.dropLast, text.getLast nonempty, ?_, visible _ (List.getLast_mem nonempty)⟩
    exact (List.dropLast_append_getLast nonempty).symm

theorem trim_eq {text : List Char} (framed : Framed text) : trim text = text := by
  apply trim_eq_self
  · rcases framed.starts with ⟨first, rest, rfl, visible⟩
    simpa using visible
  · rcases framed.ends with ⟨before, last, rfl, visible⟩
    simpa using visible

theorem not_blank {text : List Char} (framed : Framed text) : blank text = false := by
  rcases framed.starts with ⟨first, rest, rfl, -⟩
  rw [blank, framed.trim_eq]
  rfl

theorem append {left right : List Char} (leftFramed : Framed left) (rightFramed : Framed right)
    (between : List Char) : Framed (left ++ (between ++ right)) := by
  rcases leftFramed.starts with ⟨first, rest, rfl, firstVisible⟩
  rcases rightFramed.ends with ⟨before, last, rfl, lastVisible⟩
  refine ⟨⟨first, rest ++ (between ++ (before ++ [last])), rfl, firstVisible⟩, ?_⟩
  exact ⟨first :: rest ++ (between ++ before), last, by simp, lastVisible⟩

end Framed

/-! ## Folding -/

/-- A text whose folded form has one character for each of its own. -/
def Aligned (text : List Char) : Prop := '\u0130' ∉ text

instance : DecidablePred Aligned := fun text => inferInstanceAs (Decidable ('\u0130' ∉ text))

@[simp]
theorem aligned_nil : Aligned [] := by
  simp [Aligned]

@[simp]
theorem aligned_cons {c : Char} {text : List Char} :
    Aligned (c :: text) ↔ c ≠ '\u0130' ∧ Aligned text := by
  simp [Aligned, eq_comm]

@[simp]
theorem aligned_append {left right : List Char} :
    Aligned (left ++ right) ↔ Aligned left ∧ Aligned right := by
  simp [Aligned]

theorem foldChar_ne_nil (c : Char) : foldChar c ≠ [] := by
  unfold foldChar
  split
  · simp
  · split <;> simp

theorem length_foldChar {c : Char} (single : c ≠ '\u0130') : (foldChar c).length = 1 := by
  simp only [foldChar, if_neg single]
  split <;> rfl

theorem length_fold {text : List Char} (aligned : Aligned text) :
    (fold text).length = text.length := by
  induction text with
  | nil => rfl
  | cons c rest ih =>
      rcases aligned_cons.1 aligned with ⟨single, restAligned⟩
      rw [fold_cons, List.length_append, length_foldChar single, ih restAligned, List.length_cons]
      omega

theorem tail_fold_cons {c : Char} (single : c ≠ '\u0130') (rest : List Char) :
    (fold (c :: rest)).tail = fold rest := by
  rw [fold_cons]
  rcases List.length_eq_one_iff.1 (length_foldChar single) with ⟨lower, shape⟩
  simp [shape]

theorem drop_fold_append {left : List Char} (aligned : Aligned left) (right : List Char) :
    (fold (left ++ right)).drop left.length = fold right := by
  rw [fold_append, ← length_fold aligned, List.drop_left]

/-- Without the two letters that fold in a way of their own, folding is lower-casing. -/
theorem fold_eq_map {text : List Char} (regular : ∀ c ∈ text, c ≠ '\u0130' ∧ c ≠ '\u212A') :
    fold text = text.map Char.toLower := by
  have lowered : ∀ c ∈ text, foldChar c = [c.toLower] := by
    intro c isUnit
    rw [foldChar, if_neg (regular c isUnit).1, if_neg (regular c isUnit).2]
  rw [fold, List.flatMap_congr lowered, List.map_eq_flatMap]

theorem toLower_eq_self_or (c : Char) :
    c.toLower = c ∨ 97 ≤ c.toLower.toNat ∧ c.toLower.toNat ≤ 122 := by
  delta Char.toLower
  split
  · rename_i isUpper
    right
    have lowest : 65 ≤ c.toNat := UInt32.le_iff_toNat_le.1 isUpper.1
    have highest : c.toNat ≤ 90 := UInt32.le_iff_toNat_le.1 isUpper.2
    simp only [Char.toNat] at lowest highest ⊢
    rw [UInt32.toNat_add]
    simp only [show ('a'.val - 'A'.val).toNat = 32 from rfl]
    omega
  · exact Or.inl rfl

/-- Folding makes a character below the letters only of itself. -/
theorem eq_of_mem_foldChar {c d : Char} (low : d.toNat < 65) (isFolded : d ∈ foldChar c) : c = d := by
  unfold foldChar at isFolded
  split at isFolded
  · rcases List.mem_pair.1 isFolded with rfl | rfl
    · exact absurd low (by decide)
    · exact absurd low (by decide)
  · split at isFolded
    · rw [List.mem_singleton.1 isFolded] at low
      exact absurd low (by decide)
    · have lower : d = c.toLower := List.mem_singleton.1 isFolded
      rcases toLower_eq_self_or c with same | letter
      · exact same.symm.trans lower.symm
      · rw [lower] at low
        omega

theorem mem_of_mem_fold {text : List Char} {c : Char} (low : c.toNat < 65) (isMember : c ∈ fold text) :
    c ∈ text := by
  rcases List.mem_flatMap.1 isMember with ⟨unit, isUnit, isFolded⟩
  rwa [eq_of_mem_foldChar low isFolded] at isUnit

theorem space_notMem_foldChar {c : Char} (notSpace : c ≠ ' ') : ' ' ∉ foldChar c :=
  fun isFolded => notSpace (eq_of_mem_foldChar (by decide) isFolded)

theorem space_mem_of_mem_fold {text : List Char} (isMember : ' ' ∈ fold text) : ' ' ∈ text :=
  mem_of_mem_fold (by decide) isMember

/-- Below the letters, folding changes nothing. -/
theorem foldChar_of_low {c : Char} (low : c.toNat < 65) : foldChar c = [c] := by
  have notDotted : c ≠ '\u0130' := by
    rintro rfl
    exact absurd low (by decide)
  have notKelvin : c ≠ '\u212A' := by
    rintro rfl
    exact absurd low (by decide)
  have notUpper : ¬(c.val ≥ 'A'.val ∧ c.val ≤ 'Z'.val) := by
    rintro ⟨lowest, -⟩
    have : 65 ≤ c.toNat := UInt32.le_iff_toNat_le.1 lowest
    omega
  have unchanged : c.toLower = c := dif_neg notUpper
  rw [foldChar, if_neg notDotted, if_neg notKelvin, unchanged]

/-! ## Searching -/

theorem takeWhile_append_space {left : List Char} (spaceless : ' ' ∉ left) (rest : List Char) :
    (left ++ ' ' :: rest).takeWhile (· ≠ ' ') = left := by
  have differs : ∀ c ∈ left, decide (c ≠ ' ') = true := by
    intro c isMember
    rw [decide_eq_true_eq]
    rintro rfl
    exact spaceless isMember
  rw [List.takeWhile_append_of_pos differs]
  simp

theorem find?_of_isPrefix {word text : List Char} (starts : word <+: text) :
    find? word text = some 0 := by
  cases text with
  | nil => simp [find?, List.prefix_nil.1 starts]
  | cons c rest => simp [find?, List.isPrefixOf_iff_prefix.2 starts]

theorem find?_eq_none {word text : List Char} : find? word text = none ↔ ¬word <:+: text := by
  induction text with
  | nil => simp [find?, List.infix_nil]
  | cons c rest ih =>
      rw [find?, List.infix_cons_iff, not_or, ← ih]
      by_cases starts : word <+: c :: rest
      · simp [List.isPrefixOf_iff_prefix.2 starts, starts]
      · simp [mt List.isPrefixOf_iff_prefix.1 starts, starts]

/-- A word that starts at no unit of `before` is looked for behind it. -/
theorem find?_append {word before text : List Char}
    (absent : ∀ suffix ∈ before.tails, suffix ≠ [] → ¬word <+: suffix ++ text) :
    find? word (before ++ text) = (find? word text).map (· + before.length) := by
  induction before with
  | nil => simp
  | cons c rest ih =>
      rw [List.tails, List.forall_mem_cons] at absent
      have notHere : word.isPrefixOf (c :: (rest ++ text)) = false := by
        rw [Bool.eq_false_iff, ne_eq, List.isPrefixOf_iff_prefix]
        exact absent.1 (List.cons_ne_nil c rest)
      rw [List.cons_append, find?, notHere, if_neg Bool.false_ne_true, ih absent.2, Option.map_map]
      rfl

/-- A word is looked for behind units that its first letter is not among. -/
theorem find?_append_of_notMem {c : Char} {word before : List Char} (absent : c ∉ before)
    (text : List Char) :
    find? (c :: word) (before ++ text) = (find? (c :: word) text).map (· + before.length) := by
  apply find?_append
  rintro suffix isSuffix nonempty ⟨behind, starts⟩
  rcases List.exists_cons_of_ne_nil nonempty with ⟨first, rest, rfl⟩
  have isFirst : c = first := (List.cons.inj starts).1
  exact absent (isFirst ▸ ((List.mem_tails _ _).1 isSuffix).subset List.mem_cons_self)

theorem cons_isInfix_append {c : Char} {word before : List Char} (absent : c ∉ before)
    (text : List Char) : c :: word <:+: before ++ text ↔ c :: word <:+: text := by
  rw [← not_iff_not, ← find?_eq_none, ← find?_eq_none, find?_append_of_notMem absent,
    Option.map_eq_none_iff]

theorem concat_isInfix_append {c : Char} {word after : List Char} (absent : c ∉ after)
    (text : List Char) : word ++ [c] <:+: text ++ after ↔ word ++ [c] <:+: text := by
  have absentReversed : c ∉ after.reverse := mt List.mem_reverse.1 absent
  calc word ++ [c] <:+: text ++ after
    _ ↔ c :: word.reverse <:+: after.reverse ++ text.reverse := by
      rw [← List.reverse_infix, List.reverse_append, List.reverse_append, List.reverse_singleton,
        List.singleton_append]
    _ ↔ c :: word.reverse <:+: text.reverse := cons_isInfix_append absentReversed text.reverse
    _ ↔ word ++ [c] <:+: text := by rw [← List.reverse_concat, List.reverse_infix]

/-- What was cut at the last separator is the text again with the separator put back. -/
theorem eq_of_splitLast? {separator : Char} {text before after : List Char}
    (cut : splitLast? separator text = some (before, after)) : text = before ++ separator :: after := by
  have whole := List.takeWhile_append_dropWhile (p := (· != separator)) (l := text.reverse)
  rw [splitLast?] at cut
  split at cut
  · cases cut
  · next c earlier found =>
      cases cut
      have isSeparator : c = separator := by
        have stops := List.head_dropWhile_not (· != separator) (l := text.reverse) (by simp [found])
        simpa [found] using stops
      rw [found, isSeparator] at whole
      have reversed := congrArg List.reverse whole
      simpa using reversed.symm

/-! ## Joining -/

theorem mem_intercalate {separator c : Char} {parts : List (List Char)}
    (isMember : c ∈ [separator].intercalate parts) : c = separator ∨ ∃ part ∈ parts, c ∈ part := by
  induction parts with
  | nil => cases isMember
  | cons part rest ih =>
      by_cases single : rest = []
      · subst single
        rw [List.intercalate_singleton] at isMember
        exact Or.inr ⟨part, List.mem_cons_self, isMember⟩
      · rw [List.intercalate_cons_of_ne_nil single, List.mem_append, List.mem_append,
          List.mem_singleton] at isMember
        rcases isMember with (inPart | isSeparator) | inRest
        · exact Or.inr ⟨part, List.mem_cons_self, inPart⟩
        · exact Or.inl isSeparator
        · rcases ih inRest with isSeparator | ⟨other, isOther, inOther⟩
          · exact Or.inl isSeparator
          · exact Or.inr ⟨other, List.mem_cons_of_mem part isOther, inOther⟩

end FlowLog.Text
