import FlowLog.Proofs.Leaf
import FlowLog.Proofs.Typing

/-!
# Integers in filters

A comparison keeps an integer of any size and writes it in its canonical form. A port is compared
with as a number, and only integers that are ports are accepted. In both cases the program looks at
the number nearest to the integer, which for long numerals is another integer or an infinity.
-/

namespace FlowLog

/-! ## Comparisons with integers -/

/-- An integer numeral of any length is compared with as the integer itself and written in the
canonical form of the integer. Up to `2 ^ 53 - 1` it is a number and beyond a big integer. -/
theorem comparison_keeps_integer {value : String} {n : Int} (denotes : Numeral.Denotes value.toList n)
    (field : String) (operator : Comparison) :
    Literal.ofText value = (if n.natAbs ≤ 2 ^ 53 - 1 then .number (.integer n) else .big n) ∧
      ∃ written, (∀ other, Numeral.IsCanonical other n ↔ other = written) ∧
        (comparison field (.compare operator) value).render =
          Leaf.formatField field ++ " " ++ operator.symbol ++ " " ++ String.ofList written := by
  have literal := Literal.ofText_integer (Numeral.denotes_iff.1 denotes)
  have rendered : (Literal.ofText value).render = String.ofList (Numeral.ofInt n) := by
    rw [literal]
    split
    · next safe => exact Literal.render_integer safe
    · rfl
  refine ⟨?_, Numeral.ofInt n, fun other => Numeral.isCanonical_iff, ?_⟩
  · rw [literal]
    exact if_congr Number.isSafe_iff rfl rfl
  · unfold comparison Leaf.render
    dsimp only
    rw [rendered]

/-- A plus sign and zeros in front of an integer that no number is exactly, compared with a
computation. -/
theorem comparison_keeps_integer_padded :
    let value := "+0009007199254740993"
    Numeral.Denotes value.toList 9007199254740993 ∧ Literal.ofText value = .big 9007199254740993 ∧
      (comparison "end - start" (.compare .ge) value).render = "(end - start) >= 9007199254740993" := by
  intro value
  have denotes : Numeral.Denotes value.toList 9007199254740993 := Numeral.denotes_iff.2 (by decide)
  rcases comparison_keeps_integer denotes "end - start" .ge with ⟨literal, written, canonical, rendered⟩
  have isWritten : "9007199254740993".toList = written :=
    (canonical _).1 (Numeral.isCanonical_iff.2 (by decide))
  refine ⟨denotes, literal, ?_⟩
  rw [rendered, ← isWritten]
  decide

/-! ## Ports -/

namespace Filter

variable {vocabulary : Vocabulary} {clause : Clause}

/-- A clause on a field with a class is read in three steps: the operator, the value, the
condition. -/
theorem readParts_registered {fieldClass : FieldClass}
    (registered : vocabulary.registry.get? clause.field = some fieldClass) (text : List Char) :
    readParts vocabulary text clause =
      if clause.operator ∈ fieldClass.operators then do
        fieldClass.checkValue clause.value
        match vocabulary.computed clause.field with
        | some computation =>
            let condition ← fieldClass.condition computation clause.operator clause.value
            return condition.withSource clause.field
        | none => fieldClass.condition clause.field clause.operator clause.value
      else .error
        (.unsupportedOperator fieldClass clause.field clause.operator (String.ofList text)) := by
  have resolved : vocabulary.registry.resolve clause.field = fieldClass := by
    simp [Registry.resolve, registered]
  unfold readParts
  simp only [registered, resolved]
  by_cases takes : clause.operator ∈ fieldClass.operators
  · exact (if_neg (not_not.2 takes)).trans (if_pos takes).symm
  · exact (if_pos takes).trans (if_neg takes).symm

theorem condition_port {field value : String} {operator : Comparison} {n : Int}
    (denotes : Numeral.Denotes value.toList n) (inRange : 0 ≤ n ∧ n ≤ 65535)
    (computed : Option String) :
    (match computed with
      | some computation => do
          let condition ← FieldClass.port.condition computation (.compare operator) value
          return condition.withSource field
      | none => FieldClass.port.condition field (.compare operator) value) =
      .ok (.leaf (.compare operator (computed.getD field) (.number (.integer n))
        (computed.map fun _ => field))) := by
  have literal : Literal.ofText value = .number (.integer n) := by
    apply Literal.ofText_of_integer (Numeral.denotes_iff.1 denotes)
    rw [Number.maxSafe_eq]
    omega
  cases computed with
  | none => simp [FieldClass.condition, comparison, literal]
  | some computation =>
      simp only [FieldClass.condition, comparison, literal]
      rfl

/-- A clause on a port field is accepted exactly if it compares the field with a port, and then it
does so with the number that the port is. -/
theorem readParts_eq_ok_of_port (isPort : vocabulary.registry.get? clause.field = some .port)
    (text : List Char) (expr : Expr) :
    readParts vocabulary text clause = .ok expr ↔
      ∃ operator n, clause.operator = .compare operator ∧ Numeral.Denotes clause.value.toList n ∧
        0 ≤ n ∧ n ≤ 65535 ∧
        expr = .leaf (.compare operator ((vocabulary.computed clause.field).getD clause.field)
          (.number (.integer n)) ((vocabulary.computed clause.field).map fun _ => clause.field)) := by
  have checked : FieldClass.port.checkValue clause.value = .ok () ↔
      ∃ n, Numeral.Denotes clause.value.toList n ∧ 0 ≤ n ∧ n ≤ 65535 := by
    simp only [Numeral.denotes_iff]
    exact FieldClass.checkPort_eq_ok
  rw [readParts_registered isPort]
  constructor
  · intro accepted
    split at accepted
    · next takes =>
        rcases Operator.exists_comparison takes with ⟨operator, isComparison⟩
        rcases Fallible.bind_eq_ok.1 accepted with ⟨⟨⟩, checks, read⟩
        rcases checked.1 checks with ⟨n, denotes, inRange⟩
        refine ⟨operator, n, isComparison, denotes, inRange.1, inRange.2, ?_⟩
        rw [isComparison, condition_port denotes inRange] at read
        cases read
        rfl
    · cases accepted
  · rintro ⟨operator, n, isComparison, denotes, lowest, highest, rfl⟩
    have takes : clause.operator ∈ FieldClass.port.operators := by
      rw [isComparison]
      exact compare_mem_ordered operator
    rw [if_pos takes, checked.2 ⟨n, denotes, lowest, highest⟩, isComparison]
    exact condition_port denotes ⟨lowest, highest⟩ _

/-- The last port with a sign and a zero in front of it. -/
theorem readParts_eq_ok_of_port_padded :
    let clause : Clause := ⟨"dstport", .compare .ge, "+065535"⟩
    Registry.flowRecords.get? clause.field = some .port ∧
      readParts {} "dstport >= +065535".toList clause =
        .ok (.leaf (.compare .ge "dstport" (.number 65535) none)) := by
  intro clause
  have isPort : Registry.flowRecords.get? clause.field = some .port := by decide
  have denotes : Numeral.Denotes clause.value.toList 65535 := Numeral.denotes_iff.2 (by decide)
  refine ⟨isPort, (readParts_eq_ok_of_port isPort _ _).2 ?_⟩
  exact ⟨.ge, 65535, rfl, denotes, by decide, by decide, rfl⟩

end Filter

end FlowLog
