import Mathlib.Data.List.Find
import Mathlib.Data.List.Infix
import FlowLog.Filter.Clause
import FlowLog.Proofs.Text

/-!
# Locating operators

The operator of a clause is looked for by symbol and not by position: the first symbol in scan order
that occurs anywhere between two spaces wins. `ofText?_spaced` says when this finds the operator
that a clause was written with: its field has no space, and no operator that is looked for earlier
stands between two spaces from the value on. Quotes around the value make no difference to this.

An operator that is looked for earlier cannot be found in the symbol of a later one. This is checked
unit by unit in `clashes_of_earlier`, once for all pairs.

Only a clause without any operator between two spaces is searched for bare symbols. For comparisons
the two searches agree (`ofText?_spaced_and_bare`), as long as the value is `Inert`.
-/

namespace FlowLog.Clause

/-- Whether a word starts at none of some units that are followed by a space, whatever comes
then. -/
def Clashes (word units : List Char) : Prop :=
  ∀ suffix ∈ units.tails, suffix ≠ [] → ¬word.take (suffix.length + 1) <+: suffix ++ [' ']

instance (word units : List Char) : Decidable (Clashes word units) :=
  inferInstanceAs (Decidable (∀ suffix ∈ units.tails, suffix ≠ [] →
    ¬word.take (suffix.length + 1) <+: suffix ++ [' ']))

theorem Clashes.not_isPrefix {word units : List Char} (clashes : Clashes word units)
    (text : List Char) :
    ∀ suffix ∈ units.tails, suffix ≠ [] → ¬word <+: suffix ++ ' ' :: text := by
  intro suffix isSuffix nonempty starts
  apply clashes suffix isSuffix nonempty
  have shortened := starts.take (suffix.length + 1)
  rwa [List.take_length_add_append, List.take_succ_cons, List.take_zero] at shortened

/-- The operators that are looked for before a given one. -/
def earlier (operator : Operator) : List Operator := Operator.scanOrder.takeWhile (· ≠ operator)

theorem scanOrder_eq (operator : Operator) :
    ∃ later, Operator.scanOrder = earlier operator ++ operator :: later := by
  rcases operator with comparison | _ | _
  · cases comparison <;> exact ⟨_, rfl⟩
  · exact ⟨_, rfl⟩
  · exact ⟨_, rfl⟩

theorem ne_of_mem_earlier {operator other : Operator} (isEarlier : other ∈ earlier operator) :
    other ≠ operator := by
  simpa using List.mem_takeWhile_imp isEarlier

theorem mem_scanOrder (operator : Operator) : operator ∈ Operator.scanOrder := by
  rcases scanOrder_eq operator with ⟨later, whole⟩
  rw [whole]
  exact List.mem_append_right _ List.mem_cons_self

theorem clashes_of_earlier (operator : Operator) :
    ∀ other ∈ earlier operator, Clashes (spaced other) (' ' :: bare operator) := by
  rcases operator with comparison | _ | _
  · cases comparison <;> decide
  · decide
  · decide

@[simp]
theorem fold_spaced (operator : Operator) : Text.fold (spaced operator) = spaced operator := by
  rcases operator with comparison | _ | _
  · cases comparison <;> rfl
  · rfl
  · rfl

theorem map_operator_scan? (word : Operator → List Char) (text : List Char) :
    (scan? word text).map Clause.operator =
      Operator.scanOrder.find? fun operator => word operator <:+: Text.fold text := by
  rw [scan?]
  induction Operator.scanOrder with
  | nil => rfl
  | cons operator rest ih =>
      rw [List.findSome?_cons, List.find?_cons]
      cases found : Text.find? (word operator) (Text.fold text) with
      | none => simp [Text.find?_eq_none.1 found, ih]
      | some position =>
          have occurs : word operator <:+: Text.fold text := by
            by_contra absent
            simp [Text.find?_eq_none.2 absent] at found
          simp [occurs, cut]

theorem scan?_eq_none {word : Operator → List Char} {text : List Char} :
    scan? word text = none ↔ ∀ operator, ¬word operator <:+: Text.fold text := by
  simp only [scan?, List.findSome?_eq_none_iff, Option.map_eq_none_iff, Text.find?_eq_none]
  exact ⟨fun absent operator => absent operator (mem_scanOrder operator),
    fun absent operator _ => absent operator⟩

/-- The scan takes an operator that it finds, if it has found none that is looked for earlier. -/
theorem scan?_of_find? {word : Operator → List Char} {text : List Char} {operator : Operator}
    {position : Nat}
    (found : Text.find? (word operator) (Text.fold text) = some position)
    (missed : ∀ other ∈ earlier operator, ¬word other <:+: Text.fold text) :
    scan? word text = some (cut text operator position (word operator).length) := by
  rcases scanOrder_eq operator with ⟨later, order⟩
  rw [scan?, List.findSome?_eq_some_iff]
  refine ⟨earlier operator, operator, later, order, ?_, ?_⟩
  · rw [found]
    rfl
  · intro other isEarlier
    rw [Text.find?_eq_none.2 (missed other isEarlier)]
    rfl

theorem cut_append (field symbol value : List Char) (operator : Operator) :
    cut (field ++ (symbol ++ value)) operator field.length symbol.length =
      ⟨String.ofList (Text.trim field), operator, String.ofList (stripQuotes (Text.trim value))⟩ := by
  have behind : (field ++ (symbol ++ value)).drop (field.length + symbol.length) = value := by
    rw [List.drop_length_add_append, List.drop_left]
  simp [cut, behind]

section Spaced

variable {field value : List Char} {operator : Operator}

theorem find?_field (fieldSpaceless : ' ' ∉ field) (other : Operator) (text : List Char) :
    Text.find? (spaced other) (Text.fold field ++ text) =
      (Text.find? (spaced other) text).map (· + (Text.fold field).length) :=
  Text.find?_append_of_notMem (mt Text.space_mem_of_mem_fold fieldSpaceless) text

theorem fold_clause (field value : List Char) (operator : Operator) :
    Text.fold (field ++ (spaced operator ++ value)) =
      Text.fold field ++ ((' ' :: bare operator) ++ ' ' :: Text.fold value) := by
  rw [Text.fold_append, Text.fold_append, fold_spaced]
  simp [spaced]

/-- An operator that is looked for earlier occurs in a clause only from its value on. -/
theorem spaced_isInfix_clause (fieldSpaceless : ' ' ∉ field) {other : Operator}
    (isEarlier : other ∈ earlier operator) :
    spaced other <:+: Text.fold (field ++ (spaced operator ++ value)) ↔
      spaced other <:+: Text.fold (' ' :: value) := by
  have inSymbol := (clashes_of_earlier operator other isEarlier).not_isPrefix (Text.fold value)
  rw [← not_iff_not, ← Text.find?_eq_none, ← Text.find?_eq_none, fold_clause,
    find?_field fieldSpaceless, Text.find?_append inSymbol, Option.map_eq_none_iff,
    Option.map_eq_none_iff]
  rfl

theorem find?_operator (fieldAligned : Text.Aligned field) (fieldSpaceless : ' ' ∉ field) :
    Text.find? (spaced operator) (Text.fold (field ++ (spaced operator ++ value))) =
      some field.length := by
  have starts : spaced operator <+: (' ' :: bare operator) ++ ' ' :: Text.fold value :=
    ⟨Text.fold value, by simp [spaced]⟩
  rw [fold_clause, find?_field fieldSpaceless, Text.find?_of_isPrefix starts,
    Text.length_fold fieldAligned]
  simp

/-- The spaced scan finds the operator behind a field without spaces, if none that is looked for
earlier stands in the value. -/
theorem scan?_spaced (fieldAligned : Text.Aligned field) (fieldSpaceless : ' ' ∉ field)
    (unspaced : ∀ other ∈ earlier operator, ¬spaced other <:+: Text.fold (' ' :: value)) :
    scan? spaced (field ++ (spaced operator ++ value)) =
      some (cut (field ++ (spaced operator ++ value)) operator field.length
        (spaced operator).length) := by
  apply scan?_of_find? (find?_operator fieldAligned fieldSpaceless)
  intro other isEarlier
  exact mt (spaced_isInfix_clause fieldSpaceless isEarlier).1 (unspaced other isEarlier)

theorem map_operator_ofText? (fieldSpaceless : ' ' ∉ field) :
    (ofText? (field ++ (spaced operator ++ value))).map Clause.operator =
      Operator.scanOrder.find? fun other =>
        other = operator ∨ spaced other <:+: Text.fold (' ' :: value) := by
  have scanned := map_operator_scan? spaced (field ++ (spaced operator ++ value))
  have agree : ∀ other ∈ earlier operator,
      decide (spaced other <:+: Text.fold (field ++ (spaced operator ++ value))) =
        decide (other = operator ∨ spaced other <:+: Text.fold (' ' :: value)) := by
    intro other isEarlier
    rw [decide_eq_decide, spaced_isInfix_clause fieldSpaceless isEarlier,
      or_iff_right (ne_of_mem_earlier isEarlier)]
  rcases scanOrder_eq operator with ⟨later, order⟩
  rw [order, List.find?_append, List.find?_cons_of_pos (by simp), List.find?_congr agree] at scanned
  rw [order, List.find?_append, List.find?_cons_of_pos (by simp), ← scanned, ofText?]
  cases found : scan? spaced (field ++ (spaced operator ++ value)) with
  | none => simp [found] at scanned
  | some clause => rfl

/-- A clause with spaces around its operator is read as it was written. -/
theorem ofText?_spaced (fieldAligned : Text.Aligned field) (fieldSpaceless : ' ' ∉ field)
    (unspaced : ∀ other ∈ earlier operator, ¬spaced other <:+: Text.fold (' ' :: value)) :
    ofText? (field ++ (spaced operator ++ value)) =
      some { field := String.ofList (Text.trim field)
             operator := operator
             value := String.ofList (stripQuotes (Text.trim value)) } := by
  rw [ofText?, scan?_spaced fieldAligned fieldSpaceless unspaced, cut_append]

end Spaced

/-! ## Quoted values -/

section Quoted

variable {value : List Char}

/-- An operator between two spaces that stands behind a quote lies inside the quotes. -/
theorem spaced_isInfix_quoted (operator : Operator) :
    spaced operator <:+: Text.fold (' ' :: '\'' :: (value ++ ['\''])) ↔
      spaced operator <:+: Text.fold value := by
  have folded : Text.fold (' ' :: '\'' :: (value ++ ['\''])) =
      ' ' :: '\'' :: (Text.fold value ++ ['\'']) := by
    have space : Text.foldChar ' ' = [' '] := rfl
    have quote : Text.foldChar '\'' = ['\''] := rfl
    simp [space, quote]
  have notHere : ¬spaced operator <+: ' ' :: '\'' :: (Text.fold value ++ ['\'']) := by
    rw [← List.isPrefixOf_iff_prefix]
    rcases operator with comparison | _ | _
    · cases comparison <;> exact Bool.false_ne_true
    · exact Bool.false_ne_true
    · exact Bool.false_ne_true
  have notNext : ¬spaced operator <+: '\'' :: (Text.fold value ++ ['\'']) := by
    rintro ⟨behind, starts⟩
    simp [spaced] at starts
  have notLast : ¬spaced operator <:+ Text.fold value ++ ['\''] := by
    rintro ⟨before, ends⟩
    rw [spaced, ← List.append_assoc] at ends
    have last := congrArg List.getLast? ends
    rw [List.getLast?_concat, List.getLast?_concat] at last
    exact absurd last (by decide)
  rw [folded, List.infix_cons_iff, List.infix_cons_iff, List.infix_concat_iff]
  simp only [notHere, notNext, notLast, false_or]

theorem stripQuotes_quoted (unquoted : ∀ c ∈ value, isQuote c = false) :
    stripQuotes ('\'' :: (value ++ ['\''])) = value := by
  cases value with
  | nil => rfl
  | cons c rest =>
      have headPlain : isQuote c = false := unquoted c List.mem_cons_self
      have leading : ('\'' :: (c :: rest ++ ['\''])).dropWhile isQuote = c :: rest ++ ['\''] := by
        rw [List.dropWhile_cons_of_pos (by decide), List.cons_append,
          List.dropWhile_cons_of_neg (by simp [headPlain])]
      have trailing : List.rdropWhile isQuote (c :: rest) = c :: rest := by
        rw [List.rdropWhile_eq_self_iff]
        intro nonempty
        simp [unquoted _ (List.getLast_mem nonempty)]
      rw [stripQuotes, leading]
      exact (List.rdropWhile_concat_pos isQuote (c :: rest) '\'' (by decide)).trans trailing

theorem trim_quoted (value : List Char) :
    Text.trim ('\'' :: (value ++ ['\''])) = '\'' :: (value ++ ['\'']) := by
  have framed : Text.Framed ('\'' :: (value ++ ['\''])) :=
    ⟨⟨_, _, rfl, by decide⟩, ⟨'\'' :: value, '\'', rfl, by decide⟩⟩
  exact framed.trim_eq

/-- Behind a field of visible ASCII characters, a clause with a quoted value is read as it was
written exactly if no operator that is looked for earlier stands between two spaces inside the
quotes, in any letter case. In general the first operator in scan order is found, of the one in
front of the quotes and those inside them. -/
theorem ofText?_quoted {field : List Char}
    (visible : ∀ c ∈ field, c.toNat < 128 ∧ Text.isBlank c = false)
    (unquoted : ∀ c ∈ value, isQuote c = false) (operator : Operator) :
    let text := field ++ (spaced operator ++ '\'' :: (value ++ ['\'']))
    (ofText? text = some ⟨String.ofList field, operator, String.ofList value⟩ ↔
      ∀ other ∈ earlier operator, ¬spaced other <:+: Text.fold value) ∧
    (ofText? text).map Clause.operator =
      Operator.scanOrder.find? fun other => other = operator ∨ spaced other <:+: Text.fold value := by
  intro text
  have aligned : Text.Aligned field := by
    intro isMember
    exact absurd (visible _ isMember).1 (by decide)
  have spaceless : ' ' ∉ field := by
    intro isMember
    exact absurd (visible _ isMember).2 (by decide)
  have trimmed : Text.trim field = field := by
    apply Text.trim_eq_self
    · intro c isHead
      exact (visible c (List.mem_of_mem_head? isHead)).2
    · intro c isLast
      exact (visible c (List.mem_of_mem_getLast? isLast)).2
  have operatorFound : (ofText? text).map Clause.operator =
      Operator.scanOrder.find? fun other => other = operator ∨ spaced other <:+: Text.fold value := by
    rw [map_operator_ofText? spaceless]
    simp only [spaced_isInfix_quoted]
  refine ⟨⟨?_, ?_⟩, operatorFound⟩
  · intro asWritten other isEarlier inside
    obtain ⟨first, isFirst⟩ := Option.isSome_iff_exists.1 (List.find?_isSome.2
      ⟨other, isEarlier, by simpa using Or.inr inside⟩ :
        ((earlier operator).find? fun other =>
          other = operator ∨ spaced other <:+: Text.fold value).isSome)
    rcases scanOrder_eq operator with ⟨later, order⟩
    rw [asWritten, order, List.find?_append, isFirst] at operatorFound
    have sameOperator : operator = first := by simpa using operatorFound
    exact ne_of_mem_earlier (List.mem_of_find?_eq_some isFirst) sameOperator.symm
  · intro unspaced
    have found : ofText? text = some _ := ofText?_spaced aligned spaceless
      fun other isEarlier => mt (spaced_isInfix_quoted other).1 (unspaced other isEarlier)
    rwa [trimmed, trim_quoted, stripQuotes_quoted unquoted] at found

/-- Operators that are looked for later do no harm inside the quotes. -/
theorem ofText?_quoted_later_inside :
    (∀ c ∈ "bytes".toList, c.toNat < 128 ∧ Text.isBlank c = false) ∧
      (∀ c ∈ "x <= y LIKE z".toList, isQuote c = false) ∧
      ofText? "bytes >= 'x <= y LIKE z'".toList = some ⟨"bytes", .compare .ge, "x <= y LIKE z"⟩ := by
  have visible : ∀ c ∈ "bytes".toList, c.toNat < 128 ∧ Text.isBlank c = false := by
    simp [Text.isBlank]
  have unquoted : ∀ c ∈ "x <= y LIKE z".toList, isQuote c = false := by
    simp [isQuote]
  have quoted := (ofText?_quoted visible unquoted (.compare .ge)).1.2 (by decide)
  exact ⟨visible, unquoted, quoted⟩

/-- An operator inside the quotes that is looked for earlier is taken for the operator of the
clause. -/
theorem quoted_operator_taken :
    ofText? "action = 'a != b'".toList = some ⟨"action = 'a", .compare .ne, "b"⟩ ∧
      ofText? "action = 'a != b'".toList ≠ some ⟨"action", .compare .eq, "a != b"⟩ := by
  decide

end Quoted

/-! ## Comparisons without spaces -/

section Bare

variable {field value : List Char} {comparison : Comparison}

@[simp]
theorem fold_bare (operator : Operator) : Text.fold (bare operator) = bare operator := by
  rcases operator with comparison | _ | _
  · cases comparison <;> rfl
  · rfl
  · rfl

theorem bare_isInfix_spaced (operator : Operator) : bare operator <:+: spaced operator :=
  ⟨[' '], [' '], rfl⟩

theorem bare_isInfix_space_cons (operator : Operator) (text : List Char) :
    bare operator <:+: ' ' :: text ↔ bare operator <:+: text := by
  have shape : ∃ first word, bare operator = first :: word ∧ first ≠ ' ' := by
    rcases operator with comparison | _ | _
    · cases comparison <;> exact ⟨_, _, rfl, by decide⟩
    · exact ⟨_, _, rfl, by decide⟩
    · exact ⟨_, _, rfl, by decide⟩
  rcases shape with ⟨first, word, shape, notSpace⟩
  have absent : first ∉ [' '] := by simpa using notSpace
  rw [shape]
  exact Text.cons_isInfix_append absent text

theorem exists_bare_cons (comparison : Comparison) :
    ∃ first word, bare (.compare comparison) = first :: word ∧ first ∈ ['!', '=', '<', '>'] := by
  cases comparison with
  | eq => exact ⟨'=', [], rfl, by simp⟩
  | ne => exact ⟨'!', ['='], rfl, by simp⟩
  | gt => exact ⟨'>', [], rfl, by simp⟩
  | lt => exact ⟨'<', [], rfl, by simp⟩
  | ge => exact ⟨'>', ['='], rfl, by simp⟩
  | le => exact ⟨'<', ['='], rfl, by simp⟩

theorem exists_bare_concat (comparison : Comparison) :
    ∃ word last, bare (.compare comparison) = word ++ [last] ∧ last ∈ ['=', '<', '>'] := by
  cases comparison with
  | eq => exact ⟨[], '=', rfl, by simp⟩
  | ne => exact ⟨['!'], '=', rfl, by simp⟩
  | gt => exact ⟨[], '>', rfl, by simp⟩
  | lt => exact ⟨[], '<', rfl, by simp⟩
  | ge => exact ⟨['>'], '=', rfl, by simp⟩
  | le => exact ⟨['<'], '=', rfl, by simp⟩

theorem space_notMem_bare (comparison : Comparison) : ' ' ∉ bare (.compare comparison) := by
  cases comparison <;> decide

theorem not_isInfix_of_earlier (operator : Operator) :
    ∀ other ∈ earlier operator, ¬bare other <:+: bare operator := by
  rcases operator with comparison | _ | _
  · cases comparison <;> decide
  · decide
  · decide

theorem low_of_mem_signs {c : Char} (isSign : c ∈ ['!', '=', '<', '>']) : c.toNat < 65 := by
  simp only [List.mem_cons, List.not_mem_nil, or_false] at isSign
  rcases isSign with rfl | rfl | rfl | rfl <;> decide

/-- A text in which no operator occurs. It has none of the signs with which comparisons end, and the
pattern operator does not stand in it in any letter case. -/
structure Inert (text : List Char) : Prop where
  signless : ∀ c ∈ ['=', '<', '>'], c ∉ text
  likeless : ¬"like".toList <:+: Text.fold text

namespace Inert

variable (inert : Inert value)

include inert

theorem notMem_fold {c : Char} (isSign : c ∈ ['=', '<', '>']) : c ∉ Text.fold value := by
  intro isMember
  exact inert.signless c isSign
    (Text.mem_of_mem_fold (low_of_mem_signs (List.mem_cons_of_mem '!' isSign)) isMember)

theorem not_bare_isInfix (operator : Operator) : ¬bare operator <:+: Text.fold value := by
  intro occurs
  cases operator with
  | compare comparison =>
      rcases exists_bare_concat comparison with ⟨word, last, shape, isSign⟩
      rw [shape] at occurs
      exact inert.notMem_fold isSign (occurs.subset (by simp))
  | like => exact inert.likeless occurs
  | notLike =>
      have likeInside : "like".toList <:+: bare .notLike := ⟨"not ".toList, [], rfl⟩
      exact inert.likeless (likeInside.trans occurs)

theorem not_spaced_isInfix (operator : Operator) : ¬spaced operator <:+: Text.fold (' ' :: value) := by
  intro occurs
  have bareOccurs : bare operator <:+: ' ' :: Text.fold value :=
    (bare_isInfix_spaced operator).trans occurs
  exact inert.not_bare_isInfix operator ((bare_isInfix_space_cons operator _).1 bareOccurs)

end Inert

theorem fold_bare_clause (field value : List Char) (operator : Operator) :
    Text.fold (field ++ (bare operator ++ value)) =
      Text.fold field ++ (bare operator ++ Text.fold value) := by
  rw [Text.fold_append, Text.fold_append, fold_bare]

section Scan

variable (plain : ∀ c ∈ ['!', '=', '<', '>'], c ∉ field) (spaceless : ' ' ∉ field) (inert : Inert value)

include spaceless in
theorem space_cons_isInfix_clause (word : List Char) :
    ' ' :: word <:+: Text.fold (field ++ (bare (.compare comparison) ++ value)) ↔
      ' ' :: word <:+: Text.fold value := by
  have absent : ' ' ∉ Text.fold field ++ bare (.compare comparison) := by
    rw [List.mem_append, not_or]
    exact ⟨mt Text.space_mem_of_mem_fold spaceless, space_notMem_bare comparison⟩
  rw [fold_bare_clause, ← List.append_assoc, Text.cons_isInfix_append absent]

include plain in
theorem notMem_fold_field {c : Char} (isSign : c ∈ ['!', '=', '<', '>']) : c ∉ Text.fold field := by
  intro isMember
  exact plain c isSign (Text.mem_of_mem_fold (low_of_mem_signs isSign) isMember)

include plain inert in
/-- A comparison occurs in a clause only inside the symbol of the clause. -/
theorem bare_isInfix_clause (other : Comparison) :
    bare (.compare other) <:+: Text.fold (field ++ (bare (.compare comparison) ++ value)) ↔
      bare (.compare other) <:+: bare (.compare comparison) := by
  rcases exists_bare_cons other with ⟨first, tail, starts, isFirst⟩
  rcases exists_bare_concat other with ⟨front, last, ends, isLast⟩
  rw [fold_bare_clause, starts, Text.cons_isInfix_append (notMem_fold_field plain isFirst),
    ← starts, ends, Text.concat_isInfix_append (inert.notMem_fold isLast)]

include plain spaceless inert in
theorem not_bare_isInfix_of_earlier {other : Operator}
    (isEarlier : other ∈ earlier (.compare comparison)) :
    ¬bare other <:+: Text.fold (field ++ (bare (.compare comparison) ++ value)) := by
  cases other with
  | compare other =>
      rw [bare_isInfix_clause plain inert]
      exact not_isInfix_of_earlier _ _ isEarlier
  | like =>
      have notEarlier : Operator.like ∉ earlier (.compare comparison) := by cases comparison <;> decide
      exact absurd isEarlier notEarlier
  | notLike =>
      intro occurs
      have likeInside : ' ' :: "like".toList <:+: bare .notLike := ⟨"not".toList, [], rfl⟩
      have inValue := (space_cons_isInfix_clause spaceless _).1 (likeInside.trans occurs)
      exact inert.likeless ((List.suffix_cons ' ' _).isInfix.trans inValue)

include spaceless inert in
theorem scan?_spaced_bare :
    scan? spaced (field ++ (bare (.compare comparison) ++ value)) = none := by
  apply scan?_eq_none.2
  intro operator occurs
  have inValue := (space_cons_isInfix_clause spaceless _).1 occurs
  exact inert.not_bare_isInfix operator ((bare_isInfix_spaced operator).trans inValue)

include plain spaceless inert in
theorem scan?_bare (aligned : Text.Aligned field) :
    scan? bare (field ++ (bare (.compare comparison) ++ value)) =
      some (cut (field ++ (bare (.compare comparison) ++ value)) (.compare comparison) field.length
        (bare (.compare comparison)).length) := by
  have found : Text.find? (bare (.compare comparison))
      (Text.fold (field ++ (bare (.compare comparison) ++ value))) = some field.length := by
    rcases exists_bare_cons comparison with ⟨first, word, starts, isFirst⟩
    rw [fold_bare_clause, starts, Text.find?_append_of_notMem (notMem_fold_field plain isFirst),
      Text.find?_of_isPrefix (List.prefix_append _ _), Text.length_fold aligned]
    simp
  exact scan?_of_find? found fun other => not_bare_isInfix_of_earlier plain spaceless inert

end Scan

/-- Behind a field of visible ASCII characters that belong to no comparison, and in front of a
trimmed value in which no operator occurs, a comparison is read as it was written, with spaces
around it or without. -/
theorem ofText?_spaced_and_bare
    (word : ∀ c ∈ field, c.toNat < 128 ∧ Text.isBlank c = false ∧ c ∉ ['!', '=', '<', '>'])
    (trimmed : Text.trim value = value) (signless : ∀ c ∈ ['=', '<', '>'], c ∉ value)
    (likeless : ¬"like".toList <:+: Text.fold value) (comparison : Comparison) :
    let clause : Clause := ⟨String.ofList field, .compare comparison, String.ofList (stripQuotes value)⟩
    ofText? (field ++ (spaced (.compare comparison) ++ value)) = some clause ∧
      ofText? (field ++ (bare (.compare comparison) ++ value)) = some clause := by
  intro clause
  have inert : Inert value := ⟨signless, likeless⟩
  have aligned : Text.Aligned field := fun isMember => absurd (word _ isMember).1 (by decide)
  have spaceless : ' ' ∉ field := fun isMember => absurd (word _ isMember).2.1 (by decide)
  have plain : ∀ c ∈ ['!', '=', '<', '>'], c ∉ field :=
    fun c isSign isMember => (word c isMember).2.2 isSign
  have fieldTrimmed : Text.trim field = field :=
    Text.trim_of_visible fun c isMember => (word c isMember).2.1
  constructor
  · rw [ofText?_spaced aligned spaceless fun other _ => inert.not_spaced_isInfix other,
      fieldTrimmed, trimmed]
  · rw [ofText?, scan?_spaced_bare spaceless inert, scan?_bare plain spaceless inert aligned, cut_append,
      fieldTrimmed, trimmed]

/-- A field that is called like an operator, and a value with parts of operators in it. -/
theorem ofText?_spaced_and_bare_like :
    ofText? "like >= '! İ not'".toList = some ⟨"like", .compare .ge, "! İ not"⟩ ∧
      ofText? "like>='! İ not'".toList = some ⟨"like", .compare .ge, "! İ not"⟩ := by
  have word : ∀ c ∈ "like".toList,
      c.toNat < 128 ∧ Text.isBlank c = false ∧ c ∉ ['!', '=', '<', '>'] := by
    simp [Text.isBlank]
  have trimmed : Text.trim "'! İ not'".toList = "'! İ not'".toList := rfl
  have signless : ∀ c ∈ ['=', '<', '>'], c ∉ "'! İ not'".toList := by
    simp
  have likeless : ¬"like".toList <:+: Text.fold "'! İ not'".toList := by
    decide
  exact ofText?_spaced_and_bare word trimmed signless likeless .ge

end Bare

end FlowLog.Clause
