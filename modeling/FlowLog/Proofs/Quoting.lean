import FlowLog.Filter.Literal

/-!
# Reading quoted texts

A text of a filter stands between single quotes, with a backslash in front of every quote inside. A
reader takes this pair for a quote and every other unit for itself, and it stops at the first quote
that is left.

A backslash of the text is not marked. That does no harm inside the text, also not in front of a
quote, because what is written for a quote begins with a backslash of its own. At the end of the
text it does: there the backslash and the closing quote are taken for a pair, and the reader goes on
in what follows.
-/

namespace FlowLog.Literal

/-- Puts units in front of what a reader has read; the second list is what it has left. -/
def prepend (front : List Char) (reading : List Char × List Char) : List Char × List Char :=
  (front ++ reading.1, reading.2)

/-- Reads behind an opening quote up to the closing one. -/
def readInside : List Char → Option (List Char × List Char)
  | [] => none
  | '\\' :: '\'' :: rest => (readInside rest).map (prepend ['\''])
  | c :: rest => if c = '\'' then some ([], rest) else (readInside rest).map (prepend [c])

/-- Reads a quoted text. -/
def read? : List Char → Option (List Char × List Char)
  | '\'' :: rest => readInside rest
  | _ => none

theorem map_prepend_nil (reading : Option (List Char × List Char)) :
    reading.map (prepend []) = reading := by
  cases reading <;> rfl

theorem map_prepend_append (front more : List Char) (reading : Option (List Char × List Char)) :
    (reading.map (prepend more)).map (prepend front) = reading.map (prepend (front ++ more)) := by
  cases reading <;> simp [prepend]

@[simp]
theorem readInside_quote (rest : List Char) : readInside ('\'' :: rest) = some ([], rest) := rfl

@[simp]
theorem readInside_pair (rest : List Char) :
    readInside ('\\' :: '\'' :: rest) = (readInside rest).map (prepend ['\'']) := rfl

theorem readInside_plain {c : Char} {rest : List Char} (notQuote : c ≠ '\'')
    (notPair : c = '\\' → rest.head? ≠ some '\'') :
    readInside (c :: rest) = (readInside rest).map (prepend [c]) := by
  rw [readInside]
  · simp [notQuote]
  · rintro behind rfl rfl
    exact notPair rfl rfl

@[simp]
theorem escapeQuotes_cons_quote (rest : List Char) :
    escapeQuotes ('\'' :: rest) = '\\' :: '\'' :: escapeQuotes rest := rfl

theorem escapeQuotes_cons_plain {c : Char} (notQuote : c ≠ '\'') (rest : List Char) :
    escapeQuotes (c :: rest) = c :: escapeQuotes rest := by
  simp [escapeQuotes, notQuote]

theorem escapeQuotes_of_notMem {value : List Char} (quoteless : '\'' ∉ value) :
    escapeQuotes value = value := by
  induction value with
  | nil => rfl
  | cons c rest ih =>
      rw [List.mem_cons, not_or] at quoteless
      rw [escapeQuotes_cons_plain (Ne.symm quoteless.1), ih quoteless.2]

theorem quoted_of_notMem {value : String} (quoteless : '\'' ∉ value.toList) :
    quoted value = "'" ++ value ++ "'" := by
  apply String.toList_injective
  simp [quoted, escapeQuotes_of_notMem quoteless]

theorem head?_escapeQuotes_cons (c : Char) (rest following : List Char) :
    (escapeQuotes (c :: rest) ++ following).head? ≠ some '\'' := by
  by_cases isQuote : c = '\''
  · simp [isQuote]
  · simp [escapeQuotes_cons_plain isQuote, isQuote]

/-- Reading gives back an escaped text and goes on behind it, unless a backslash at its end meets a
quote. -/
theorem readInside_escapeQuotes {value following : List Char}
    (apart : value.getLast? = some '\\' → following.head? ≠ some '\'') :
    readInside (escapeQuotes value ++ following) = (readInside following).map (prepend value) := by
  induction value with
  | nil => exact (map_prepend_nil _).symm
  | cons c rest ih =>
      have later : readInside (escapeQuotes rest ++ following) =
          (readInside following).map (prepend rest) := by
        apply ih
        intro ends
        apply apart
        simp [List.getLast?_cons, ends]
      by_cases isQuote : c = '\''
      · rw [isQuote, escapeQuotes_cons_quote, List.cons_append, List.cons_append, readInside_pair, later,
          map_prepend_append]
        rfl
      · have notPair : c = '\\' → (escapeQuotes rest ++ following).head? ≠ some '\'' := by
          rintro rfl
          cases rest with
          | nil => exact apart rfl
          | cons d more => exact head?_escapeQuotes_cons d more following
        rw [escapeQuotes_cons_plain isQuote, List.cons_append, readInside_plain isQuote notPair, later,
          map_prepend_append]
        rfl

theorem eq_quote_of_readInside_nil {text behind : List Char}
    (reads : readInside text = some ([], behind)) : text = '\'' :: behind := by
  rw [readInside.eq_def] at reads
  split at reads
  · cases reads
  · rcases Option.map_eq_some_iff.1 reads with ⟨later, -, joined⟩
    cases joined
  · next c rest _ =>
      split at reads
      · next isQuote =>
          cases reads
          rw [isQuote]
      · rcases Option.map_eq_some_iff.1 reads with ⟨later, -, joined⟩
        cases joined

/-- No text that is read ends with a backslash: in front of the closing quote it would be part of a
pair. -/
theorem getLast?_of_readInside {text inside behind : List Char}
    (reads : readInside text = some (inside, behind)) : inside.getLast? ≠ some '\\' := by
  fun_induction readInside text generalizing inside with
  | case1 => cases reads
  | case2 rest ih =>
      rcases Option.map_eq_some_iff.1 reads with ⟨⟨later, left⟩, laterReads, joined⟩
      cases joined
      cases later with
      | nil => simp
      | cons d more => simpa using ih laterReads
  | case3 rest =>
      cases reads
      simp
  | case4 c rest notPair notQuote ih =>
      rcases Option.map_eq_some_iff.1 reads with ⟨⟨later, left⟩, laterReads, joined⟩
      cases joined
      cases later with
      | nil =>
          have rest_eq := eq_quote_of_readInside_nil laterReads
          simp only [List.append_nil, List.getLast?_singleton, ne_eq, Option.some.injEq]
          intro isBackslash
          exact notPair left isBackslash rest_eq
      | cons d more => simpa using ih laterReads

theorem read?_quoted_append (value : String) (following : List Char) :
    read? ((quoted value).toList ++ following) =
      readInside (escapeQuotes value.toList ++ '\'' :: following) := by
  simp [quoted, read?]

theorem read?_of_plain_end {value : String} (plainEnd : value.toList.getLast? ≠ some '\\')
    (following : List Char) :
    read? ((quoted value).toList ++ following) = some (value.toList, following) := by
  rw [read?_quoted_append, readInside_escapeQuotes fun ends => absurd ends plainEnd, readInside_quote]
  simp [prepend]

theorem read?_of_backslash_end {value : String} (ends : value.toList.getLast? = some '\\')
    (following : List Char) :
    read? ((quoted value).toList ++ following) =
      (readInside following).map (prepend (value.toList.dropLast ++ ['\''])) := by
  rcases List.getLast?_eq_some_iff.1 ends with ⟨front, shape⟩
  have escaped : escapeQuotes (front ++ ['\\']) = escapeQuotes front ++ ['\\'] := by
    simp [escapeQuotes]
  rw [read?_quoted_append, shape, escaped, List.append_assoc, List.singleton_append,
    readInside_escapeQuotes (by simp), readInside_pair, map_prepend_append, List.dropLast_concat]

/-- A quoted text is read back, whatever follows it, exactly if it does not end with a backslash. If
it does, the literal goes on up to the next quote of what follows. -/
theorem quoted_read_back (value : String) (following : List Char) :
    (read? ((quoted value).toList ++ following) = some (value.toList, following) ↔
      value.toList.getLast? ≠ some '\\') ∧
    read? ((quoted value).toList ++ following) =
      if value.toList.getLast? = some '\\' then
        (readInside following).map (prepend (value.toList.dropLast ++ ['\'']))
      else some (value.toList, following) := by
  constructor
  · constructor
    · intro reads
      rw [read?_quoted_append] at reads
      exact getLast?_of_readInside reads
    · intro plainEnd
      exact read?_of_plain_end plainEnd following
  · split
    · next ends => exact read?_of_backslash_end ends following
    · next plainEnd => exact read?_of_plain_end plainEnd following

/-- With a backslash at its end a text takes in the connective and the field behind it. -/
theorem quoted_overrun :
    quoted "x\\" = "'x\\'" ∧
      read? ((quoted "x\\").toList ++ " and az_id = 'y'".toList) =
        some ("x' and az_id = ".toList, "y'".toList) ∧
      read? ((quoted "x\\").toList ++ " and az_id = 'y'".toList) ≠
        some ("x\\".toList, " and az_id = 'y'".toList) := by
  decide

end FlowLog.Literal
