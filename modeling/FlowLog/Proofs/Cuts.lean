import FlowLog.Proofs.Splitting

/-!
# What is cut out of a text

A connective is looked for in the folded text and cut out of the written text at the same position.
A position of the folded text lies as far behind the written one as there are letters `U+0130` in
front of it, because each of them is folded to two characters. Where there is none, the connective
itself is cut out, and the text is made up of the operands with connectives between them
(`Outline.Divides`): nothing else is dropped, and nothing is moved from one operand to another.

Two connectives may share the space between them. The operand between them is then empty.
-/

namespace FlowLog

namespace Text

theorem length_fold_eq (text : List Char) :
    (fold text).length = text.length + text.count '\u0130' := by
  induction text with
  | nil => rfl
  | cons c rest ih =>
      rw [fold_cons, List.length_append, ih, List.length_cons]
      by_cases dotted : c = '\u0130'
      · subst dotted
        rw [List.count_cons_self]
        change 2 + _ = _
        omega
      · rw [length_foldChar dotted, List.count_cons_of_ne dotted]
        omega

/-- A word that begins with a space is never found in the middle of what one character is folded
to. -/
theorem exists_of_isPrefix_drop_fold {word text : List Char} {position : Nat}
    (starts : ' ' :: word <+: (fold text).drop position) :
    ∃ found, position = (fold (text.take found)).length ∧ ' ' :: word <+: fold (text.drop found) := by
  induction text generalizing position with
  | nil => simp at starts
  | cons c rest ih =>
      have passed : ∀ later, (fold (c :: rest)).drop position = (fold rest).drop later →
          position = (foldChar c).length + later →
          ∃ found, position = (fold ((c :: rest).take found)).length ∧
            ' ' :: word <+: fold ((c :: rest).drop found) := by
        intro later dropped counted
        rw [dropped] at starts
        rcases ih starts with ⟨found, later_eq, isPrefix⟩
        refine ⟨found + 1, ?_, isPrefix⟩
        rw [List.take_succ_cons, fold_cons, List.length_append, counted, later_eq]
      by_cases dotted : c = '\u0130'
      · subst dotted
        match position with
        | 0 => exact ⟨0, rfl, starts⟩
        | 1 =>
            rcases starts with ⟨more, shape⟩
            exact absurd (List.cons.inj shape).1 (by decide)
        | later + 2 => exact passed later rfl (Nat.add_comm later 2)
      · cases position with
        | zero => exact ⟨0, rfl, starts⟩
        | succ later =>
            apply passed later
            · rw [← tail_fold_cons dotted rest, List.drop_tail]
            · rw [length_foldChar dotted, Nat.add_comm]

theorem eq_space_of_toLower {c : Char} (isSpace : c.toLower = ' ') : c = ' ' := by
  rcases toLower_eq_self_or c with same | letter
  · rw [← same, isSpace]
  · rw [isSpace] at letter
    exact absurd letter (by decide)

/-- A word without the letters that other characters are folded to is written in some letter
case. -/
theorem exists_written {word text : List Char} (plain : ∀ c ∈ word, c ≠ 'i' ∧ c ≠ 'k')
    (starts : word <+: fold text) : ∃ written, written <+: text ∧ written.map Char.toLower = word := by
  induction word generalizing text with
  | nil => exact ⟨[], List.nil_prefix, rfl⟩
  | cons letter word ih =>
      cases text with
      | nil => simp at starts
      | cons c rest =>
          rcases plain letter List.mem_cons_self with ⟨notI, notK⟩
          have notDotted : c ≠ '\u0130' := by
            rintro rfl
            rcases starts with ⟨more, shape⟩
            exact notI (List.cons.inj shape).1
          have notKelvin : c ≠ '\u212A' := by
            rintro rfl
            rcases starts with ⟨more, shape⟩
            exact notK (List.cons.inj shape).1
          have folded : foldChar c = [c.toLower] := by
            rw [foldChar, if_neg notDotted, if_neg notKelvin]
          rw [fold_cons, folded, List.singleton_append, List.cons_prefix_cons] at starts
          rcases starts with ⟨isLetter, restStarts⟩
          rcases ih (fun d isMember => plain d (List.mem_cons_of_mem letter isMember)) restStarts with
            ⟨written, isPrefix, lowered⟩
          refine ⟨c :: written, List.cons_prefix_cons.2 ⟨rfl, isPrefix⟩, ?_⟩
          rw [List.map_cons, lowered, isLetter]

end Text

namespace Spelling

open Outline

variable {connective : Connective}

theorem length_separator (spelling : Spelling connective) :
    spelling.separator.length = (word connective).length := by
  rw [← spelling.fold_separator, Text.length_fold spelling.aligned_separator]

/-- The spaces of a separator are its first and its last unit. -/
theorem eq_last_of_space (spelling : Spelling connective) {offset : Nat} (positive : 0 < offset)
    (isSpace : spelling.separator[offset]? = some ' ') : offset + 1 = (word connective).length := by
  obtain ⟨index, rfl⟩ : ∃ index, offset = index + 1 := ⟨offset - 1, by omega⟩
  have counted : spelling.text.length + 2 = (word connective).length := by
    rw [← spelling.length_separator, separator]
    simp
  rw [separator, List.getElem?_cons_succ] at isSpace
  have notLetter : ¬index < spelling.text.length := by
    intro isLetter
    rw [List.getElem?_append_left isLetter] at isSpace
    exact spelling.spaceless (List.mem_of_getElem? isSpace)
  have bounded := (List.getElem?_eq_some_iff.1 isSpace).1
  rw [List.length_append, List.length_singleton] at bounded
  omega

end Spelling

namespace Outline

variable {connective : Connective}

/-- What is found in the folded text stands in the written text in some letter case. -/
theorem exists_spelling {text : List Char} (starts : word connective <+: Text.fold text) :
    ∃ spelling : Spelling connective, spelling.separator <+: text := by
  have plain : ∀ c ∈ word connective, c ≠ 'i' ∧ c ≠ 'k' := by
    cases connective <;> simp [word, Connective.keyword]
  rcases Text.exists_written plain starts with ⟨written, isPrefix, lowered⟩
  rw [word, List.cons_append] at lowered
  rcases List.map_eq_cons_iff.1 lowered with ⟨first, rest, rfl, isSpace, restLowered⟩
  rcases List.map_eq_append_iff.1 restLowered with ⟨letters, ending, rfl, spells, endingLowered⟩
  rcases List.map_eq_singleton_iff.1 endingLowered with ⟨last, rfl, isSpaceToo⟩
  rw [Text.eq_space_of_toLower isSpace, Text.eq_space_of_toLower isSpaceToo] at isPrefix
  exact ⟨⟨letters, spells⟩, isPrefix⟩

theorem isPrefix_of_mem_cutsFrom {word written folded : List Char} {position cut : Nat}
    {context : Context} (isCut : cut ∈ cutsFrom word position context written folded) :
    ∃ offset, cut = position + offset ∧ word <+: folded.drop offset := by
  induction written generalizing position context folded with
  | nil => simp [cutsFrom] at isCut
  | cons c rest ih =>
      have later : ∀ {context}, cut ∈ cutsFrom word (position + 1) context rest folded.tail →
          ∃ offset, cut = position + offset ∧ word <+: folded.drop offset := by
        intro context isLater
        rcases ih isLater with ⟨offset, rfl, isPrefix⟩
        rw [List.drop_tail] at isPrefix
        exact ⟨offset + 1, by omega, isPrefix⟩
      simp only [cutsFrom] at isCut
      split at isCut
      · rename_i isHere
        rcases List.mem_cons.1 isCut with rfl | isLater
        · exact ⟨0, rfl, List.isPrefixOf_iff_prefix.1 (Bool.and_eq_true_iff.1 isHere).2⟩
        · exact later isLater
      · exact later isCut

theorem le_of_mem_cutsFrom {word written folded : List Char} {position cut : Nat}
    {context : Context} (isCut : cut ∈ cutsFrom word position context written folded) :
    position ≤ cut := by
  rcases isPrefix_of_mem_cutsFrom isCut with ⟨offset, rfl, -⟩
  exact Nat.le_add_right position offset

theorem pairwise_cutsFrom (word : List Char) (position : Nat) (context : Context)
    (written folded : List Char) :
    (cutsFrom word position context written folded).Pairwise (· < ·) := by
  induction written generalizing position context folded with
  | nil => exact .nil
  | cons c rest ih =>
      simp only [cutsFrom]
      split
      · refine .cons ?_ (ih _ _ _)
        intro cut isLater
        exact le_of_mem_cutsFrom isLater
      · exact ih _ _ _

/-- Where a cut is made, the connective stands in front of it, by as many units as there are letters
`U+0130` before the connective. -/
theorem exists_found {text : List Char} {position : Nat} (isCut : position ∈ cuts connective text) :
    ∃ found, position = found + (text.take found).count '\u0130' ∧
      ∃ spelling : Spelling connective, spelling.separator <+: text.drop found := by
  rcases isPrefix_of_mem_cutsFrom isCut with ⟨offset, rfl, isPrefix⟩
  rw [Nat.zero_add]
  rcases Text.exists_of_isPrefix_drop_fold isPrefix with ⟨found, offset_eq, starts⟩
  rcases exists_spelling starts with ⟨spelling, stands⟩
  have inside : found ≤ text.length := by
    by_contra beyond
    rw [List.drop_eq_nil_of_le (by omega)] at stands
    simp [Spelling.separator] at stands
  refine ⟨found, ?_, spelling, stands⟩
  rw [offset_eq, Text.length_fold_eq, List.length_take, Nat.min_eq_left inside]

/-- A text made up of operands with the connective between each two, or with connectives that share
the space between them and have an empty operand there. -/
inductive Divides (connective : Connective) : (pieces : List (List Char)) → (text : List Char) → Prop
  | whole (text : List Char) : Divides connective [text] text
  | cut (piece : List Char) (spelling : Spelling connective) {pieces : List (List Char)}
      {rest : List Char} (restDivides : Divides connective pieces rest) :
      Divides connective (piece :: pieces) (piece ++ (spelling.separator ++ rest))
  | shared (piece : List Char) (spelling : Spelling connective) {pieces : List (List Char)}
      {rest : List Char} (restDivides : Divides connective ([] :: pieces) (' ' :: rest)) :
      Divides connective (piece :: [] :: pieces) (piece ++ (spelling.separator ++ rest))

/-- Two separators in a text overlap in a space at most. -/
theorem separators_apart {text : List Char} {first second : Nat} {spelling next : Spelling connective}
    (later : first < second) (stands : spelling.separator <+: text.drop first)
    (nextStands : next.separator <+: text.drop second) :
    first + (word connective).length ≤ second ∨ second + 1 = first + (word connective).length := by
  by_cases inside : second < first + (word connective).length
  · right
    obtain ⟨offset, rfl⟩ : ∃ offset, second = first + offset := ⟨second - first, by omega⟩
    have isSpace : spelling.separator[offset]? = some ' ' := by
      have fits : offset < spelling.separator.length := by
        rw [spelling.length_separator]
        omega
      rcases stands with ⟨behind, whole⟩
      rcases nextStands with ⟨nextBehind, nextWhole⟩
      have here : (text.drop (first + offset))[0]? = some ' ' := by
        rw [← nextWhole]
        rfl
      rw [List.getElem?_drop, Nat.add_zero, ← List.getElem?_drop, ← whole,
        List.getElem?_append_left fits] at here
      exact here
    have := spelling.eq_last_of_space (by omega) isSpace
    omega
  · left
    omega

theorem drop_of_separator {text : List Char} {position : Nat} {spelling : Spelling connective}
    (stands : spelling.separator <+: text.drop position) :
    text.drop position = spelling.separator ++ text.drop (position + (word connective).length) := by
  rw [← List.drop_drop, ← spelling.length_separator]
  exact (List.prefix_iff_eq_append.1 stands).symm

theorem lt_length_of_separator {text : List Char} {position : Nat} {spelling : Spelling connective}
    (stands : spelling.separator <+: text.drop position) : position < text.length := by
  have fits := stands.length_le
  rw [List.length_drop, Spelling.separator, List.length_cons] at fits
  omega

/-- The pieces between separators divide the text that they are cut from. Where the last space of a
separator is the first of the next one, nothing is kept between them. -/
theorem divides_pieces {text : List Char} {positions : List Nat} {start : Nat}
    (separated : ∀ position ∈ positions, ∃ spelling : Spelling connective,
      spelling.separator <+: text.drop position)
    (ascending : positions.Pairwise (· < ·)) (ahead : ∀ position ∈ positions.head?, start ≤ position) :
    Divides connective (pieces text (word connective).length start positions) (text.drop start) := by
  induction positions generalizing start with
  | nil => exact .whole _
  | cons position rest ih =>
      rw [List.forall_mem_cons] at separated
      rcases separated with ⟨⟨spelling, stands⟩, restSeparated⟩
      rw [List.pairwise_cons] at ascending
      rcases ascending with ⟨isFirst, restAscending⟩
      have atCut : text.drop start = (text.take position).drop start ++
          (spelling.separator ++ text.drop (position + (word connective).length)) := by
        have inside : start ≤ (text.take position).length := by
          have startsBefore : start ≤ position := ahead position rfl
          have := lt_length_of_separator stands
          rw [List.length_take]
          omega
        rw [← drop_of_separator stands, ← List.drop_append_of_le_length inside, List.take_append_drop]
      rw [atCut, pieces]
      cases rest with
      | nil => exact .cut _ spelling (.whole _)
      | cons next later =>
          rcases restSeparated next List.mem_cons_self with ⟨nextSpelling, nextStands⟩
          rcases separators_apart (isFirst next List.mem_cons_self) stands nextStands with apart | meets
          · refine .cut _ spelling (ih restSeparated restAscending ?_)
            simpa using apart
          · have fromNext : Divides connective
                (pieces text (word connective).length next (next :: later)) (text.drop next) :=
              ih restSeparated restAscending (by simp)
            have atNext : text.drop next = ' ' :: text.drop (position + (word connective).length) := by
              rw [← meets, ← List.tail_drop, drop_of_separator nextStands]
              rfl
            have nothing : ∀ bound ≥ next, (text.take next).drop bound = [] := by
              intro bound isBehind
              apply List.drop_eq_nil_of_le
              rw [List.length_take]
              omega
            rw [pieces, nothing next (by omega), atNext] at fromNext
            rw [pieces, nothing _ (by omega)]
            exact .shared _ spelling fromNext

theorem separator_of_aligned {text : List Char} {position : Nat}
    (isCut : position ∈ cuts connective text)
    (aligned : Text.Aligned (text.take position)) :
    ∃ spelling : Spelling connective, spelling.separator <+: text.drop position := by
  rcases exists_found isCut with ⟨found, position_eq, stands⟩
  have none : (text.take found).count '\u0130' = 0 := by
    apply List.count_eq_zero_of_not_mem
    intro isMember
    apply aligned
    exact (List.take_subset_take_left text (by omega)) isMember
  rwa [position_eq, none, Nat.add_zero]

/-- A cut is made behind a connective in the text, as many units behind it as there are letters
`U+0130` in front of it. Where none stands in front of a cut, the cut takes out the connective. If
that is so for all cuts, connectives are all that is taken out, up to the blanks around the
operands. -/
theorem cuts_take_out_connectives (connective : Connective) (text : List Char) :
    (∀ position ∈ cuts connective text, ∃ found, position = found + (text.take found).count '\u0130' ∧
      ∃ spelling : Spelling connective, spelling.separator <+: text.drop found) ∧
    (∀ position ∈ cuts connective text, Text.Aligned (text.take position) →
      ∃ spelling : Spelling connective,
        (text.drop position).take (word connective).length = spelling.separator) ∧
    ((∀ position ∈ cuts connective text, Text.Aligned (text.take position)) →
      ∃ pieces, split connective text = pieces.map Text.trim ∧ Divides connective pieces text) := by
  refine ⟨fun position isCut => exists_found isCut, ?_, ?_⟩
  · intro position isCut aligned
    rcases separator_of_aligned isCut aligned with ⟨spelling, stands⟩
    refine ⟨spelling, ?_⟩
    rw [drop_of_separator stands, ← spelling.length_separator, List.take_left]
  · intro aligned
    refine ⟨_, rfl, ?_⟩
    have separated := fun position isCut => separator_of_aligned isCut (aligned position isCut)
    have divided : Divides connective (pieces text (word connective).length 0 (cuts connective text))
        (text.drop 0) := divides_pieces separated (pairwise_cutsFrom _ _ _ _ _) (by simp)
    exact divided

/-- Two connectives that share a space, with a letter `U+0130` behind them. -/
theorem cuts_take_out_connectives_adjacent :
    let text := "a = 1 AND and b = \u0130".toList
    cuts .and text = [5, 9] ∧ (∀ position ∈ cuts .and text, Text.Aligned (text.take position)) ∧
      (∃ spelling : Spelling .and, (text.drop 5).take 5 = spelling.separator) ∧
      ∃ pieces, split .and text = pieces.map Text.trim ∧ Divides .and pieces text := by
  intro text
  have isCut : cuts .and text = [5, 9] := by decide
  have aligned : ∀ position ∈ cuts .and text, Text.Aligned (text.take position) := by
    rw [isCut]
    decide
  rcases cuts_take_out_connectives .and text with ⟨-, takesOut, divides⟩
  exact ⟨isCut, aligned, takesOut 5 (by simp [isCut]) (aligned 5 (by simp [isCut])), divides aligned⟩

/-- Behind a letter `U+0130` a cut takes out the first letter of the next field and leaves a blank
of the connective. -/
theorem cut_misses_connective :
    let text := "tag = \u0130 and dstport = 22".toList
    cuts .and text = [8] ∧ (text.drop 8).take 5 = "and d".toList ∧
      (¬∃ spelling : Spelling .and, (text.drop 8).take 5 = spelling.separator) ∧
      split .and text = ["tag = \u0130".toList, "stport = 22".toList] := by
  refine ⟨by decide, by decide, ?_, by decide⟩
  rintro ⟨spelling, same⟩
  have first := congrArg List.head? same
  exact absurd first (by simp [Spelling.separator])

end Outline

end FlowLog
