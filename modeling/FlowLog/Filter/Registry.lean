import FlowLog.Filter.FieldClass

/-!
# Registries of field classes

A registry says which class a field belongs to. A later registration of a field wins over an earlier
one.
-/

namespace FlowLog

/-- The registrations in force, one for each field. -/
structure Registry where
  entries : List (String × FieldClass)
  deriving DecidableEq, Repr

namespace Registry

/-- The registry without registrations. -/
def empty : Registry := ⟨[]⟩

/-- The class registered for a field. -/
def get? (registry : Registry) (field : String) : Option FieldClass := registry.entries.lookup field

/-- The class of a field: a field without a registration is a text field. -/
def resolve (registry : Registry) (field : String) : FieldClass := (registry.get? field).getD .text

/-- Registers a class for a field. -/
def register (registry : Registry) (field : String) (fieldClass : FieldClass) : Registry :=
  ⟨(field, fieldClass) :: registry.entries.filter (·.1 != field)⟩

@[simp]
theorem get?_empty (field : String) : empty.get? field = none := rfl

@[simp]
theorem get?_register_self (registry : Registry) (field : String) (fieldClass : FieldClass) :
    (registry.register field fieldClass).get? field = some fieldClass := by
  simp [get?, register]

/-- The number of registered fields. -/
def size (registry : Registry) : Nat := registry.entries.length

/-- The registry made by registrations one after another. -/
def ofList (registrations : List (String × FieldClass)) : Registry :=
  registrations.foldl (fun registry (field, fieldClass) => registry.register field fieldClass) empty

/-- The classes of the fields of flow log records. -/
def flowRecords : Registry := ofList [
  ("srcaddr", .address), ("dstaddr", .address), ("pkt_srcaddr", .address), ("pkt_dstaddr", .address),
  ("srcport", .port), ("dstport", .port), ("protocol", .protocol),
  ("packets", .numeric), ("bytes", .numeric), ("start", .numeric), ("end", .numeric),
  ("duration", .numeric)]

end Registry

end FlowLog
