import FlowLog.Filter.Parse
import FlowLog.Proofs.Clause
import FlowLog.Proofs.Numeral
import FlowLog.Proofs.Splitting

/-!
# Rendered leaves

A canonical leaf is one that a filter text can express as it stands: its field is a word, a text
value holds nothing that the scanners would stop at, and a number is an integer that its field class
takes.

Such a leaf is rendered as its field, its operator between spaces, and a value text. `ValueText`
collects what both scanners need to know of the value: it has visible ends, it is sealed against
both connectives, it holds no operator between spaces, and quotes around it come off again. Quoted
texts and numerals are value texts. From that alone follow `sealed_clause`, by which a rendered leaf
may stand as an operand anywhere, and `readClause_clause`, by which it is read back.
-/

namespace FlowLog

/-- A field name of ASCII letters, digits and underscores that is no connective in any letter
case. -/
structure IsWord (field : String) : Prop where
  nonempty : field ≠ ""
  letters : ∀ c ∈ field.toList, c.isAlphanum = true ∨ c = '_'
  notConnective : ∀ connective : Connective,
    field.toList.map Char.toLower ≠ connective.keyword.toList

namespace IsWord

variable {field : String}

instance (field : String) : Decidable (IsWord field) :=
  decidable_of_iff
    (field ≠ "" ∧ field.toList.all (fun c => c.isAlphanum || c == '_') = true ∧
      field.toList.map Char.toLower ≠ Connective.and.keyword.toList ∧
      field.toList.map Char.toLower ≠ Connective.or.keyword.toList) <| by
    constructor
    · rintro ⟨nonempty, letters, notAnd, notOr⟩
      refine ⟨nonempty, by simpa using letters, ?_⟩
      intro connective
      cases connective with
      | and => exact notAnd
      | or => exact notOr
    · rintro ⟨nonempty, letters, notConnective⟩
      exact ⟨nonempty, by simpa using letters, notConnective .and, notConnective .or⟩

theorem letter_ne (isWord : IsWord field) {c d : Char} (isLetter : c ∈ field.toList)
    (notLetter : ¬(d.isAlphanum = true ∨ d = '_')) : c ≠ d := by
  rintro rfl
  exact notLetter (isWord.letters c isLetter)

theorem aligned (isWord : IsWord field) : Text.Aligned field.toList := by
  intro isLetter
  exact isWord.letter_ne isLetter (by decide) rfl

theorem spaceless (isWord : IsWord field) : ' ' ∉ field.toList := by
  intro isLetter
  exact isWord.letter_ne isLetter (by decide) rfl

theorem closed (isWord : IsWord field) : Outline.Closed field.toList := by
  apply Outline.Closed.of_plain
  intro c isLetter
  have notSingle := isWord.letter_ne (d := '\'') isLetter (by decide)
  have notDouble := isWord.letter_ne (d := '"') isLetter (by decide)
  have notOpening := isWord.letter_ne (d := '(') isLetter (by decide)
  have notClosing := isWord.letter_ne (d := ')') isLetter (by decide)
  simp [Clause.isQuote, notSingle, notDouble, notOpening, notClosing]

theorem fold_eq_map (isWord : IsWord field) :
    Text.fold field.toList = field.toList.map Char.toLower := by
  apply Text.fold_eq_map
  intro c isLetter
  constructor
  · exact isWord.letter_ne isLetter (by decide)
  · exact isWord.letter_ne isLetter (by decide)

theorem visible {c : Char} (isLetter : c.isAlphanum = true ∨ c = '_') : Text.isBlank c = false := by
  have bounds : 48 ≤ c.toNat ∧ c.toNat ≤ 122 := by
    rcases isLetter with isAlphanum | rfl
    · delta Char.isAlphanum Char.isAlpha Char.isUpper Char.isLower Char.isDigit at isAlphanum
      simp only [Bool.or_eq_true, Bool.and_eq_true, decide_eq_true_eq, ge_iff_le,
        UInt32.le_iff_toNat_le] at isAlphanum
      simp at isAlphanum
      omega
    · decide
  simp only [Text.isBlank, Bool.or_eq_false_iff, Bool.and_eq_false_iff, decide_eq_false_iff_not,
    beq_eq_false_iff_ne]
  omega

/-- A word in front of a space is no connective, also behind a space. -/
theorem opening (isWord : IsWord field) (connective : Connective) (rest : List Char) :
    (Outline.word connective).isPrefixOf
      (Text.fold (' ' :: (field.toList ++ ' ' :: rest))) = false := by
  rw [Bool.eq_false_iff, ne_eq, List.isPrefixOf_iff_prefix]
  rintro ⟨behind, starts⟩
  have aligned : connective.keyword.toList ++ ' ' :: behind =
      field.toList.map Char.toLower ++ ' ' :: Text.fold rest := by
    have spaced : Text.foldChar ' ' = [' '] := rfl
    simpa [Outline.word, isWord.fold_eq_map, spaced] using starts
  have keywordSpaceless : ' ' ∉ connective.keyword.toList := by
    cases connective <;> decide
  have wordSpaceless : ' ' ∉ field.toList.map Char.toLower := by
    rw [← isWord.fold_eq_map]
    exact mt Text.space_mem_of_mem_fold isWord.spaceless
  have same := congrArg (List.takeWhile (· ≠ ' ')) aligned
  rw [Text.takeWhile_append_space keywordSpaceless, Text.takeWhile_append_space wordSpaceless] at same
  exact isWord.notConnective connective same.symm

theorem toList_ne_nil (isWord : IsWord field) : field.toList ≠ [] := by
  intro isNil
  exact isWord.nonempty (String.toList_eq_nil_iff.1 isNil)

theorem framed (isWord : IsWord field) : Text.Framed field.toList :=
  .of_visible isWord.toList_ne_nil fun c isLetter => visible (isWord.letters c isLetter)

end IsWord

/-! ## Value texts -/

/-- A text that may stand behind an operator, with the value that is read from it. -/
structure ValueText (text : List Char) (value : String) : Prop where
  framed : Text.Framed text
  isSealed : ∀ connective, Outline.Sealed connective text
  unspaced : ∀ operator, ¬Clause.spaced operator <:+: Text.fold (' ' :: text)
  strips : Clause.stripQuotes text = value.toList

/-- A text value that holds no quote and no operator between two spaces, in any letter case. -/
structure IsPlainValue (value : String) : Prop where
  unquoted : ∀ c ∈ value.toList, Clause.isQuote c = false
  aligned : Text.Aligned value.toList
  unspaced : ∀ operator, ¬Clause.spaced operator <:+: Text.fold value.toList

namespace IsPlainValue

variable {value : String}

instance (value : String) : Decidable (IsPlainValue value) :=
  decidable_of_iff
    (value.toList.all (fun c => !Clause.isQuote c) = true ∧ Text.Aligned value.toList ∧
      Operator.scanOrder.all
        (fun operator => !decide (Clause.spaced operator <:+: Text.fold value.toList)) = true) <| by
    constructor
    · rintro ⟨unquoted, aligned, unspaced⟩
      refine ⟨by simpa using unquoted, aligned, ?_⟩
      intro operator
      simpa using List.all_eq_true.1 unspaced operator (Clause.mem_scanOrder operator)
    · rintro ⟨unquoted, aligned, unspaced⟩
      exact ⟨by simpa using unquoted, aligned, by simpa using fun operator _ => unspaced operator⟩

theorem single_notMem (plain : IsPlainValue value) : '\'' ∉ value.toList := by
  intro isMember
  exact absurd (plain.unquoted _ isMember) (by decide)

theorem quoted_eq (plain : IsPlainValue value) :
    (Literal.quoted value).toList = '\'' :: (value.toList ++ ['\'']) := by
  have unescaped : ∀ c ∈ value.toList, (if c = '\'' then ['\\', '\''] else [c]) = [c] := by
    intro c isMember
    rw [if_neg]
    rintro rfl
    exact plain.single_notMem isMember
  simp [Literal.quoted, Literal.escapeQuotes, List.flatMap_congr unescaped]

theorem sealed_quoted (plain : IsPlainValue value) (connective : Connective) :
    Outline.Sealed connective ('\'' :: (value.toList ++ ['\''])) where
  aligned := by
    simp [plain.aligned]
  closed := Outline.Closed.quoted (by decide) plain.single_notMem
  uncut position rest := by
    have entering := Outline.word_isPrefixOf_fold_cons connective (c := '\'') (by decide)
      (value.toList ++ ['\''] ++ rest)
    have opened : Outline.Context.start.step '\'' = ⟨0, some '\''⟩ := by decide
    rw [List.cons_append, Outline.cutsFrom_cons_of_absent (by decide) entering, opened]
    exact Outline.cutsFrom_of_quoted plain.single_notMem _ _ _ _
  opening rest := Outline.word_isPrefixOf_fold_space connective (by decide) _

theorem valueText (plain : IsPlainValue value) :
    ValueText (Literal.quoted value).toList value := by
  rw [plain.quoted_eq]
  exact {
    framed := ⟨⟨_, _, rfl, by decide⟩, ⟨'\'' :: value.toList, '\'', rfl, by decide⟩⟩
    isSealed := plain.sealed_quoted
    unspaced operator := mt (Clause.spaced_isInfix_quoted operator).1 (plain.unspaced operator)
    strips := Clause.stripQuotes_quoted plain.unquoted }

end IsPlainValue

namespace Numeral

theorem low_of_mem_ofInt {n : Int} {c : Char} (isMember : c ∈ ofInt n) :
    c.toNat = 45 ∨ 48 ≤ c.toNat ∧ c.toNat ≤ 57 := by
  rcases mem_ofInt isMember with rfl | isDigit
  · exact Or.inl rfl
  · exact Or.inr (Char.isDigit_iff_toNat.1 isDigit)

theorem ne_of_mem_ofInt {n : Int} {c d : Char} (isMember : c ∈ ofInt n)
    (notLow : ¬(d.toNat = 45 ∨ 48 ≤ d.toNat ∧ d.toNat ≤ 57)) : c ≠ d := by
  rintro rfl
  exact notLow (low_of_mem_ofInt isMember)

theorem visible_of_mem_ofInt {n : Int} {c : Char} (isMember : c ∈ ofInt n) :
    Text.isBlank c = false := by
  have bounds := low_of_mem_ofInt isMember
  simp only [Text.isBlank, Bool.or_eq_false_iff, Bool.and_eq_false_iff, decide_eq_false_iff_not,
    beq_eq_false_iff_ne]
  omega

theorem notQuote_of_mem_ofInt {n : Int} {c : Char} (isMember : c ∈ ofInt n) :
    Clause.isQuote c = false := by
  have notSingle := ne_of_mem_ofInt (d := '\'') isMember (by decide)
  have notDouble := ne_of_mem_ofInt (d := '"') isMember (by decide)
  simp [Clause.isQuote, notSingle, notDouble]

theorem spaceless_ofInt (n : Int) : ' ' ∉ ofInt n := by
  intro isMember
  exact ne_of_mem_ofInt (d := ' ') isMember (by decide) rfl

theorem sealed_ofInt (n : Int) (connective : Connective) : Outline.Sealed connective (ofInt n) where
  aligned := by
    intro isMember
    exact ne_of_mem_ofInt (d := '\u0130') isMember (by decide) rfl
  closed := by
    apply Outline.Closed.of_plain
    intro c isMember
    exact ⟨notQuote_of_mem_ofInt isMember, ne_of_mem_ofInt isMember (by decide),
      ne_of_mem_ofInt isMember (by decide)⟩
  uncut position rest := by
    apply Outline.cutsFrom_of_spaceless _ _ (spaceless_ofInt n)
    intro isMember
    exact ne_of_mem_ofInt (d := '\u0130') isMember (by decide) rfl
  opening rest := by
    rcases List.exists_cons_of_ne_nil (ofInt_ne_nil n) with ⟨first, more, shape⟩
    have bounds : first.toNat = 45 ∨ 48 ≤ first.toNat ∧ first.toNat ≤ 57 :=
      low_of_mem_ofInt (n := n) (by simp [shape])
    rw [shape]
    exact Outline.word_isPrefixOf_fold_space connective (by omega) _

theorem unspaced_ofInt (n : Int) (operator : Operator) :
    ¬Clause.spaced operator <:+: Text.fold (' ' :: ofInt n) := by
  intro isInfix
  have two : 2 ≤ (Clause.spaced operator).count ' ' := by
    simp [Clause.spaced]
  have one : (Text.fold (' ' :: ofInt n)).count ' ' = 1 := by
    have absent : ' ' ∉ Text.fold (ofInt n) := mt Text.space_mem_of_mem_fold (spaceless_ofInt n)
    have space : Text.foldChar ' ' = [' '] := rfl
    simp [space, List.count_eq_zero_of_not_mem absent]
  have bounded := isInfix.sublist.count_le ' '
  omega

theorem stripQuotes_ofInt (n : Int) : Clause.stripQuotes (ofInt n) = ofInt n := by
  have leading : (ofInt n).dropWhile Clause.isQuote = ofInt n := by
    rcases List.exists_cons_of_ne_nil (ofInt_ne_nil n) with ⟨first, more, shape⟩
    have notQuote : Clause.isQuote first = false := notQuote_of_mem_ofInt (n := n) (by simp [shape])
    rw [shape, List.dropWhile_cons_of_neg (by simp [notQuote])]
  have trailing : List.rdropWhile Clause.isQuote (ofInt n) = ofInt n := by
    rw [List.rdropWhile_eq_self_iff]
    intro nonempty
    simp [notQuote_of_mem_ofInt (List.getLast_mem nonempty)]
  rw [Clause.stripQuotes, leading]
  exact trailing

theorem framed_ofInt (n : Int) : Text.Framed (ofInt n) :=
  .of_visible (ofInt_ne_nil n) fun _ isMember => visible_of_mem_ofInt isMember

theorem valueText_ofInt (n : Int) : ValueText (ofInt n) (String.ofList (ofInt n)) where
  framed := framed_ofInt n
  isSealed := sealed_ofInt n
  unspaced := unspaced_ofInt n
  strips := by rw [stripQuotes_ofInt, String.toList_ofList]

end Numeral

/-! ## Clauses with a word as field -/

section Clause

variable {field : String} {operator : Operator} {text : List Char} {value : String}

theorem spaced_append (operator : Operator) (text : List Char) :
    Clause.spaced operator ++ text = (' ' :: Clause.bare operator) ++ ' ' :: text := by
  simp [Clause.spaced]

/-- No symbol of an operator starts like a connective. -/
theorem cutsFrom_symbol (connective : Connective) (operator : Operator) (position : Nat)
    (rest : List Char) :
    Outline.cutsFrom (Outline.word connective) position .start (' ' :: Clause.bare operator)
      (Text.fold ((' ' :: Clause.bare operator) ++ rest)) = [] := by
  rcases operator with comparison | _ | _
  · cases comparison <;> cases connective <;> rfl
  · cases connective <;> rfl
  · cases connective <;> rfl

theorem closed_symbol (operator : Operator) : Outline.Closed (' ' :: Clause.bare operator) := by
  rcases operator with comparison | _ | _
  · cases comparison <;> decide
  · decide
  · decide

theorem aligned_symbol (operator : Operator) : Text.Aligned (' ' :: Clause.bare operator) := by
  rcases operator with comparison | _ | _
  · cases comparison <;> decide
  · decide
  · decide

theorem sealed_clause (isWord : IsWord field) (valueText : ValueText text value)
    (operator : Operator) (connective : Connective) :
    Outline.Sealed connective (field.toList ++ (Clause.spaced operator ++ text)) := by
  have spaceClosed : Outline.Closed [' '] := by decide
  have valueSealed := valueText.isSealed connective
  rw [spaced_append]
  refine ⟨?_, ?_, ?_, ?_⟩
  · rw [Text.aligned_append, Text.aligned_append]
    exact ⟨isWord.aligned, aligned_symbol operator,
      Text.aligned_cons.2 ⟨by decide, valueSealed.aligned⟩⟩
  · exact isWord.closed.append
      ((closed_symbol operator).append (spaceClosed.append valueSealed.closed))
  · intro position rest
    have inField := Outline.cutsFrom_of_spaceless connective isWord.aligned isWord.spaceless position
      .start ((' ' :: Clause.bare operator) ++ (' ' :: text ++ rest))
    have inSymbol := cutsFrom_symbol connective operator (position + field.toList.length)
      (' ' :: text ++ rest)
    have behind := Outline.cutsFrom_cons_of_absent (by decide) (valueSealed.opening rest)
      (position + field.toList.length + (' ' :: Clause.bare operator).length) .start text
    have unmoved : Outline.Context.start.step ' ' = Outline.Context.start := by decide
    rw [List.append_assoc, List.append_assoc, Outline.cutsFrom_append, inField,
      isWord.closed.run_start, Text.drop_fold_append isWord.aligned, Outline.cutsFrom_append, inSymbol,
      (closed_symbol operator).run_start, Text.drop_fold_append (aligned_symbol operator),
      List.cons_append, behind, unmoved, valueSealed.uncut]
    rfl
  · intro rest
    have opening := isWord.opening connective (Clause.bare operator ++ ' ' :: text ++ rest)
    simpa only [List.append_assoc, List.cons_append] using opening

theorem framed_clause (isWord : IsWord field) (valueText : ValueText text value)
    (operator : Operator) : Text.Framed (field.toList ++ (Clause.spaced operator ++ text)) :=
  isWord.framed.append valueText.framed (Clause.spaced operator)

theorem ungroup?_clause (isWord : IsWord field) (rest : List Char) :
    Outline.ungroup? (field.toList ++ rest) = none := by
  rcases List.exists_cons_of_ne_nil isWord.toList_ne_nil with ⟨first, more, shape⟩
  have notOpening : first ≠ '(' := isWord.letter_ne (by simp [shape]) (by decide)
  rw [shape, List.cons_append, Outline.ungroup?]
  intro inner opens
  exact notOpening (List.cons_eq_cons.1 opens).1

/-- A clause is read from its parts as they were written. -/
theorem readClause_clause (isWord : IsWord field) (valueText : ValueText text value)
    (operator : Operator) (vocabulary : Filter.Vocabulary) :
    Filter.readClause vocabulary (field.toList ++ (Clause.spaced operator ++ text)) =
      Filter.readParts vocabulary (field.toList ++ (Clause.spaced operator ++ text))
        ⟨field, operator, value⟩ := by
  have unspaced : ∀ other ∈ Clause.earlier operator, ¬Clause.spaced other <:+: Text.fold (' ' :: text) :=
    fun other _ => valueText.unspaced other
  rw [Filter.readClause, Clause.ofText?_spaced isWord.aligned isWord.spaceless unspaced,
    isWord.framed.trim_eq, valueText.framed.trim_eq, valueText.strips, String.ofList_toList,
    String.ofList_toList]
  simp [isWord.nonempty]

end Clause

/-! ## Canonical leaves -/

namespace Leaf

/-- Leaves that a filter text can express as they stand, with the field classes of flow log
records. -/
inductive Canonical : Leaf → Prop
  | text {comparison : Comparison} {field value : String}
      (isEquality : comparison = .eq ∨ comparison = .ne)
      (unregistered : Registry.flowRecords.get? field = none) (plain : IsPlainValue value) :
      Canonical (.compare comparison field (.text value) none)
  | like {negated : Bool} {field pattern : String}
      (unregistered : Registry.flowRecords.get? field = none) (plain : IsPlainValue pattern) :
      Canonical (.like negated field pattern none)
  | number {comparison : Comparison} {field : String} {n : Int}
      (registered : Registry.flowRecords.get? field = some .numeric ∨
        Registry.flowRecords.get? field = some .protocol)
      (safe : Number.isSafe n = true) :
      Canonical (.compare comparison field (.number (.integer n)) none)
  | big {comparison : Comparison} {field : String} {n : Int}
      (registered : Registry.flowRecords.get? field = some .numeric ∨
        Registry.flowRecords.get? field = some .protocol)
      (tooLarge : Number.isSafe n = false) :
      Canonical (.compare comparison field (.big n) none)
  | port {comparison : Comparison} {field : String} {n : Int}
      (registered : Registry.flowRecords.get? field = some .port)
      (inRange : 0 ≤ n ∧ n ≤ maxPort) :
      Canonical (.compare comparison field (.number (.integer n)) none)

theorem formatField_of_isWord {field : String} (isWord : IsWord field) : formatField field = field := by
  have plain : field.toList.any isArithmetic = false := by
    rw [List.any_eq_false]
    intro c isLetter
    have notSpace := isWord.letter_ne (d := ' ') isLetter (by decide)
    have notMinus := isWord.letter_ne (d := '-') isLetter (by decide)
    have notSlash := isWord.letter_ne (d := '/') isLetter (by decide)
    have notStar := isWord.letter_ne (d := '*') isLetter (by decide)
    have notPlus := isWord.letter_ne (d := '+') isLetter (by decide)
    have notOpening := isWord.letter_ne (d := '(') isLetter (by decide)
    have notClosing := isWord.letter_ne (d := ')') isLetter (by decide)
    simp [isArithmetic, notSpace, notMinus, notSlash, notStar, notPlus, notOpening, notClosing]
  simp [formatField, plain]

theorem toList_render_compare {field : String} (isWord : IsWord field) (comparison : Comparison)
    (value : Literal) (source : Option String) :
    (Leaf.compare comparison field value source).render.toList =
      field.toList ++ (Clause.spaced (.compare comparison) ++ value.render.toList) := by
  have space : " ".toList = [' '] := rfl
  have written : (Leaf.compare comparison field value source).render =
      formatField field ++ " " ++ comparison.symbol ++ " " ++ value.render := rfl
  rw [written, formatField_of_isWord isWord, Clause.spaced, Clause.bare, Operator.symbol]
  simp only [String.toList_append, space, List.append_assoc, List.cons_append, List.nil_append]

theorem toList_render_like (negated : Bool) (field pattern : String) (source : Option String) :
    (Leaf.like negated field pattern source).render.toList =
      field.toList ++ (Clause.spaced (if negated then .notLike else .like) ++
        (Literal.quoted pattern).toList) := by
  have written : (Leaf.like negated field pattern source).render =
      field ++ (if negated then " not like " else " like ") ++ Literal.quoted pattern := rfl
  rw [written, String.toList_append, String.toList_append, List.append_assoc]
  cases negated <;> rfl

end Leaf

namespace Filter

/-- A clause means what the class of its field says, if the class takes the operator and the
value. -/
theorem readParts_eq {field : String} {operator : Operator} {value : String}
    {fieldClass : FieldClass} (resolved : Registry.flowRecords.resolve field = fieldClass)
    (takes : operator ∈ fieldClass.operators) (checks : fieldClass.checkValue value = .ok ())
    (written : List Char) :
    readParts {} written ⟨field, operator, value⟩ = fieldClass.condition field operator value := by
  unfold readParts
  simp only [resolved]
  split
  · contradiction
  · rw [if_neg (not_not.2 takes), checks]
    rfl

theorem readParts_text {field : String} {operator : Operator}
    (unregistered : Registry.flowRecords.get? field = none) (takes : operator ∈ Operator.equality)
    (value : String) (written : List Char) :
    readParts {} written ⟨field, operator, value⟩ =
      (FieldClass.textCondition field operator value).map .leaf := by
  have resolved : Registry.flowRecords.resolve field = .text := by
    rw [Registry.resolve, unregistered]
    rfl
  exact readParts_eq resolved takes rfl written

theorem compare_mem_ordered (comparison : Comparison) :
    Operator.compare comparison ∈ Operator.ordered := by
  cases comparison <;> decide

/-- A comparison of a numeric or protocol field with a numeral is a comparison with the integer. -/
theorem readParts_integer {field : String}
    (registered : Registry.flowRecords.get? field = some .numeric ∨
      Registry.flowRecords.get? field = some .protocol)
    (comparison : Comparison) (n : Int) (written : List Char) :
    readParts {} written ⟨field, .compare comparison, String.ofList (Numeral.ofInt n)⟩ =
      .ok (.leaf (.compare comparison field (.ofText (String.ofList (Numeral.ofInt n))) none)) := by
  rcases registered with isNumeric | isProtocol
  · have resolved : Registry.flowRecords.resolve field = .numeric := by
      rw [Registry.resolve, isNumeric]
      rfl
    have numeric : (Literal.ofText (String.ofList (Numeral.ofInt n))).isNumeric = true := by
      rw [Literal.ofText_ofInt]
      split <;> rfl
    rw [readParts_eq resolved (compare_mem_ordered comparison) rfl, FieldClass.condition,
      FieldClass.numericCondition, if_pos numeric]
    rfl
  · have resolved : Registry.flowRecords.resolve field = .protocol := by
      rw [Registry.resolve, isProtocol]
      rfl
    rw [readParts_eq resolved (compare_mem_ordered comparison) rfl, FieldClass.condition,
      FieldClass.protocolCondition, String.toList_ofList, Numeral.integer?_ofInt]
    rfl

theorem readParts_port {field : String} (registered : Registry.flowRecords.get? field = some .port)
    (comparison : Comparison) {n : Int} (inRange : 0 ≤ n ∧ n ≤ maxPort) (written : List Char) :
    readParts {} written ⟨field, .compare comparison, String.ofList (Numeral.ofInt n)⟩ =
      .ok (.leaf (.compare comparison field (.ofText (String.ofList (Numeral.ofInt n))) none)) := by
  have resolved : Registry.flowRecords.resolve field = .port := by
    rw [Registry.resolve, registered]
    rfl
  have checks : FieldClass.checkValue .port (String.ofList (Numeral.ofInt n)) = .ok () := by
    refine FieldClass.checkPort_eq_ok.2 ⟨n, ?_, inRange⟩
    rw [String.toList_ofList, Numeral.integer?_ofInt]
  rw [readParts_eq resolved (compare_mem_ordered comparison) checks]
  rfl

end Filter

namespace Leaf

/-- A canonical leaf is rendered as a clause that is read back as the leaf. -/
theorem Canonical.exists_clause {leaf : Leaf} (canonical : leaf.Canonical)
    (isWord : IsWord leaf.field) :
    ∃ operator text value,
      leaf.render.toList = leaf.field.toList ++ (Clause.spaced operator ++ text) ∧
      ValueText text value ∧
      ∀ written, Filter.readParts {} written ⟨leaf.field, operator, value⟩ = .ok (.leaf leaf) := by
  cases canonical with
  | text isEquality unregistered plain =>
      refine ⟨_, _, _, toList_render_compare isWord _ _ _, plain.valueText, ?_⟩
      intro written
      rcases isEquality with rfl | rfl
      · exact Filter.readParts_text unregistered (by decide) _ written
      · exact Filter.readParts_text unregistered (by decide) _ written
  | @like negated _ _ unregistered plain =>
      refine ⟨_, _, _, toList_render_like _ _ _ _, plain.valueText, ?_⟩
      intro written
      cases negated with
      | false => exact Filter.readParts_text unregistered (by decide) _ written
      | true => exact Filter.readParts_text unregistered (by decide) _ written
  | @number comparison field n registered safe =>
      have written := toList_render_compare isWord comparison (.number (.integer n)) none
      rw [Literal.render_integer safe, String.toList_ofList] at written
      refine ⟨_, _, _, written, Numeral.valueText_ofInt n, ?_⟩
      intro clause
      have read := Filter.readParts_integer registered comparison n clause
      rwa [Literal.ofText_ofInt, if_pos safe] at read
  | @big comparison field n registered tooLarge =>
      have written := toList_render_compare isWord comparison (.big n) none
      rw [Literal.render, String.toList_ofList] at written
      refine ⟨_, _, _, written, Numeral.valueText_ofInt n, ?_⟩
      intro clause
      have read := Filter.readParts_integer registered comparison n clause
      rwa [Literal.ofText_ofInt, tooLarge] at read
  | @port comparison field n registered inRange =>
      have safe : Number.isSafe n = true := by
        simp only [maxPort] at inRange
        rw [Number.isSafe, decide_eq_true_eq, Number.maxSafe_eq]
        omega
      have written := toList_render_compare isWord comparison (.number (.integer n)) none
      rw [Literal.render_integer safe, String.toList_ofList] at written
      refine ⟨_, _, _, written, Numeral.valueText_ofInt n, ?_⟩
      intro clause
      have read := Filter.readParts_port registered comparison inRange clause
      rwa [Literal.ofText_ofInt, if_pos safe] at read

end Leaf

end FlowLog
