import FlowLog.Filter.Check
import FlowLog.Proofs.Expr
import FlowLog.Proofs.Fallible
import FlowLog.Proofs.FlowRecords

/-!
# Checking filters

A check goes through an expression on its own way. It stops at a connective without operands, so an
accepted expression is populated. In a populated expression it asks for the names that `Expr.fields`
lists, in the same order, and the first name that the schema refuses decides the fault.
-/

namespace FlowLog.Filter

variable {schema : Schema} {version : Number} {expr : Expr}

theorem checkAll_eq_forM (children : List Expr) :
    checkAll schema version children = children.forM (check schema version) := by
  induction children with
  | nil => rfl
  | cons child rest ih =>
      rw [checkAll, ih]
      rfl

theorem check_node {connective : Connective} {children : List Expr} (nonempty : children ≠ []) :
    check schema version (.node connective children) = children.forM (check schema version) := by
  rcases List.exists_cons_of_ne_nil nonempty with ⟨first, rest, rfl⟩
  rw [check, checkAll_eq_forM]
  simp

theorem populated_of_check (accepted : check schema version expr = .ok ()) : expr.Populated := by
  induction expr with
  | leaf condition => exact .leaf condition
  | node connective children ih =>
      have nonempty : children ≠ [] := by
        rintro rfl
        simp [check] at accepted
      rw [check_node nonempty, Fallible.forM_eq_ok] at accepted
      exact .node nonempty fun child isChild => ih child isChild (accepted child isChild)
  | not child ih =>
      rw [check] at accepted
      exact .not (ih accepted)

/-- Checks the name of a field. -/
def checkName (schema : Schema) (version : Number) (field : String) : Except CheckError Unit :=
  (schema.checkField field version).mapError .field

/-- Where every connective has operands, the names of the fields are checked one after another. -/
theorem check_eq_forM (populated : expr.Populated) :
    check schema version expr = expr.fields.forM (checkName schema version) := by
  induction populated with
  | leaf condition =>
      rw [check]
      exact (bind_pure _).symm
  | @node connective children nonempty _ ih =>
      rw [check_node nonempty, Expr.fields_node, Fallible.forM_flatMap]
      exact Fallible.forM_congr ih
  | not _ ih =>
      rw [check, ih]
      rfl

theorem check_eq_ok (populated : expr.Populated) :
    check schema version expr = .ok () ↔
      ∀ field ∈ expr.fields, schema.checkField field version = .ok () := by
  simp only [check_eq_forM populated, Fallible.forM_eq_ok, checkName, Fallible.mapError_eq_ok]

/-- A filter is accepted exactly if all its connectives have operands and the version has all its
fields. If a populated filter is refused, the fault is that of the first of its fields that is
refused. -/
theorem check_by_fields (version : Number) (expr : Expr) :
    (check .flowRecords version expr = .ok () ↔
      expr.Populated ∧ ∀ field ∈ expr.fields, Schema.flowRecords.checkField field version = .ok ()) ∧
    (expr.Populated → ∀ error, check .flowRecords version expr = .error error ↔
      ∃ before field after fault, expr.fields = before ++ field :: after ∧
        (∀ earlier ∈ before, Schema.flowRecords.checkField earlier version = .ok ()) ∧
        Schema.flowRecords.checkField field version = .error fault ∧ fault.field? = some field ∧
        fault.version? = some version ∧ error = .field fault) := by
  constructor
  · constructor
    · intro accepted
      have populated := populated_of_check accepted
      exact ⟨populated, (check_eq_ok populated).1 accepted⟩
    · rintro ⟨populated, hasFields⟩
      exact (check_eq_ok populated).2 hasFields
  · intro populated error
    rw [check_eq_forM populated, Fallible.forM_eq_error]
    simp only [checkName, Fallible.mapError_eq_ok, Fallible.mapError_eq_error]
    constructor
    · rintro ⟨before, field, after, listed, passed, fault, refused, rfl⟩
      rcases Schema.FlowRecords.fault_of_checkField refused with ⟨showsField, showsVersion⟩
      exact ⟨before, field, after, fault, listed, passed, refused, showsField, showsVersion, rfl⟩
    · rintro ⟨before, field, after, fault, listed, passed, refused, -, -, rfl⟩
      exact ⟨before, field, after, listed, passed, fault, refused, rfl⟩

/-- Two fields of the later versions stand behind a computed one, which is known by its name. -/
theorem check_by_fields_two_unknown :
    let expr : Expr := .node .and
      [.not (.node .or [.leaf (.compare .gt "end - start" (.number 60) (some "duration"))]),
        .leaf (.inSubnet "pkt_srcaddr" "10.0.0.0/8"), .leaf (.like false "vpc_id" "v" none)]
    expr.Populated ∧ expr.fields = ["duration", "pkt_srcaddr", "vpc_id"] ∧
      check .flowRecords 2 expr = .error (.field (.unknownField "pkt_srcaddr" 2)) ∧
      check .flowRecords 3 expr = .ok () := by
  intro expr
  have populated : expr.Populated := by
    refine .node (by simp) ?_
    simp only [List.forall_mem_cons]
    exact ⟨.not (.node (by simp) (by simpa using .leaf _)), .leaf _, .leaf _, by simp⟩
  have known : ∀ field ∈ expr.fields, Schema.flowRecords.checkField field 3 = .ok () := by
    change ∀ field ∈ ["duration", "pkt_srcaddr", "vpc_id"], _
    simp only [List.forall_mem_cons]
    exact ⟨rfl, rfl, rfl, by simp⟩
  refine ⟨populated, rfl, ?_, (check_by_fields 3 expr).1.2 ⟨populated, known⟩⟩
  rw [(check_by_fields 2 expr).2 populated]
  exact ⟨["duration"], "pkt_srcaddr", ["vpc_id"], _, rfl,
    List.forall_mem_singleton.2 rfl, rfl, rfl, rfl, rfl⟩

end FlowLog.Filter
