import FlowLog.Schema.FlowRecords

/-!
# The schema of flow log records

The schema refuses versions and fields with a fault of its own for each. These lemmas say in terms
of the tables what it accepts: three versions, and for each of them the star, the computed field
`duration` and the fields of its records.
-/

namespace FlowLog.Schema.FlowRecords

/-- The fields of the records of a version; a version that does not exist has none. -/
def recordFields (version : Number) : List String := (fieldsOf? version).getD []

/-- Whether a version exists. -/
def Known (version : Number) : Prop := version = 2 ∨ version = 3 ∨ version = 5

/-- Whether a name may be used with the records of a version. -/
def Has (version : Number) (field : String) : Prop :=
  field = "*" ∨ field = "duration" ∨ field ∈ recordFields version

instance (version : Number) : Decidable (Known version) :=
  inferInstanceAs (Decidable (version = 2 ∨ version = 3 ∨ version = 5))

instance (version : Number) (field : String) : Decidable (Has version field) :=
  inferInstanceAs (Decidable (field = "*" ∨ field = "duration" ∨ field ∈ recordFields version))

variable {version : Number}

theorem Known.fieldsOf? (known : Known version) :
    FlowRecords.fieldsOf? version = some (recordFields version) := by
  rcases known with rfl | rfl | rfl <;> rfl

theorem fieldsOf?_of_not_known (unknown : ¬Known version) : fieldsOf? version = none := by
  simp only [Known, not_or] at unknown
  rcases unknown with ⟨notTwo, notThree, notFive⟩
  simp [fieldsOf?, notTwo, notThree, notFive]

theorem checkVersion_eq_ok : flowRecords.checkVersion version = .ok () ↔ Known version := by
  change checkVersion version = .ok () ↔ Known version
  rw [checkVersion]
  by_cases known : Known version
  · simp [known.fieldsOf?, known]
  · simp [fieldsOf?_of_not_known known, known]

theorem fields_eq_ok {version : Number} {names : List String} :
    flowRecords.fields version = .ok names ↔ Known version ∧ recordFields version = names := by
  change fields version = .ok names ↔ _
  rw [fields]
  by_cases known : Known version
  · simp [known.fieldsOf?, known]
  · simp [fieldsOf?_of_not_known known, known]

theorem known_iff_mem_versions : Known version ↔ version ∈ versions := by
  simp [Known, versions]

/-- Later versions have the fields of version 2. -/
theorem Has.of_two {field : String} (has : Has 2 field) (known : Known version) : Has version field := by
  rcases has with isStar | isDuration | isField
  · exact Or.inl isStar
  · exact Or.inr (Or.inl isDuration)
  · right
    right
    rcases known with rfl | rfl | rfl
    · exact isField
    · exact List.mem_append_left extraFields isField
    · exact List.mem_append_left extraFields isField

/-- A field is lost only on the way from a later version to version 2. -/
theorem Has.or_lost {field : String} {other : Number} (has : Has version field) (known : Known version)
    (otherKnown : Known other) :
    Has other field ∨ field ∈ extraFields ∧ (version = 3 ∨ version = 5) ∧ other = 2 := by
  rcases known with rfl | isLater
  · exact Or.inl (has.of_two otherKnown)
  · have later : Has 3 field := by
      rcases isLater with rfl | rfl
      · exact has
      · exact has
    rcases otherKnown with rfl | rfl | rfl
    · rcases later with isStar | isDuration | isField
      · exact Or.inl (Or.inl isStar)
      · exact Or.inl (Or.inr (Or.inl isDuration))
      · rcases List.mem_append.1 isField with isBasic | isExtra
        · exact Or.inl (Or.inr (Or.inr isBasic))
        · exact Or.inr ⟨isExtra, isLater, rfl⟩
    · exact Or.inl later
    · exact Or.inl later

theorem isSome_computed (field : String) : (computed field).isSome = true ↔ field = "duration" := by
  by_cases isDuration : field = "duration"
  · subst isDuration
    exact ⟨fun _ => rfl, fun _ => rfl⟩
  · simp [computed, computations, isDuration, beq_false_of_ne isDuration]

theorem checkField_eq_ok (known : Known version) (field : String) :
    flowRecords.checkField field version = .ok () ↔ Has version field := by
  change checkField field version = .ok () ↔ Has version field
  simp only [checkField, known.fieldsOf?, isSome_computed]
  change (if Has version field then Except.ok () else _) = _ ↔ _
  by_cases has : Has version field
  · simp [has]
  · simp [has]

/-- The fault of a refused field shows the field and the version. -/
theorem fault_of_checkField {field : String} {fault : Fault}
    (refused : flowRecords.checkField field version = .error fault) :
    fault.field? = some field ∧ fault.version? = some version := by
  change checkField field version = .error fault at refused
  rw [checkField] at refused
  split at refused
  · cases refused
    exact ⟨rfl, rfl⟩
  · split at refused
    · cases refused
    · cases refused
      exact ⟨rfl, rfl⟩

theorem patternOf_ne_empty (fields : List String) : patternOf fields ≠ "" := by
  intro isEmpty
  unfold patternOf at isEmpty
  have beforeNames := (String.append_eq_empty_iff.1 isEmpty).1
  have beforeQuote := (String.append_eq_empty_iff.1 beforeNames).1
  have beforeStars := (String.append_eq_empty_iff.1 beforeQuote).1
  exact absurd beforeStars (by decide)

theorem parsePattern_eq (known : Known version) :
    flowRecords.parsePattern version = .ok (patternOf (recordFields version)) := by
  change parsePattern version = _
  rw [parsePattern, known.fieldsOf?]

end FlowLog.Schema.FlowRecords
