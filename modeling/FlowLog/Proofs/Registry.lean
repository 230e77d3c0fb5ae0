import Mathlib.Data.Finset.Card
import FlowLog.Proofs.Typing

/-!
# Registrations

A registry answers for a field with the last class that was registered for it, and counts every
field once. Both follow from what a single registration does to the answers and to the registered
fields.

Reading a clause asks the registry about one field only, and this field is found again in what the
clause means. So a filter keeps its meaning as long as its own fields keep their classes
(`Filter.parse_transfer`), and a registration of any other field leaves it alone.
-/

namespace FlowLog

/-! ## The registered classes -/

theorem lookup_filter_ne {field other : String} (different : other ≠ field)
    (entries : List (String × FieldClass)) :
    (entries.filter (·.1 != field)).lookup other = entries.lookup other := by
  induction entries with
  | nil => rfl
  | cons entry rest ih =>
      by_cases isField : entry.1 = field
      · have passedOver : (other == entry.1) = false := by simpa [isField] using different
        rw [List.filter_cons_of_neg (by simpa using isField), ih, List.lookup_cons, passedOver]
      · rw [List.filter_cons_of_pos (by simpa using isField), List.lookup_cons, List.lookup_cons, ih]

namespace Registry

/-- The registered fields. -/
def fields (registry : Registry) : List String := registry.entries.map Prod.fst

/-- The class of the last registration of a field. -/
def lastClass? (registrations : List (String × FieldClass)) (field : String) : Option FieldClass :=
  (registrations.filter (·.1 == field)).getLast?.map Prod.snd

variable (registry : Registry) (field : String) (fieldClass : FieldClass)

theorem get?_register (other : String) :
    (registry.register field fieldClass).get? other =
      if other = field then some fieldClass else registry.get? other := by
  split
  · next isField => rw [isField, get?_register_self]
  · next different =>
      have passedOver : (other == field) = false := by simpa using different
      rw [register, get?, List.lookup_cons, passedOver, get?]
      exact lookup_filter_ne different registry.entries

theorem fields_register :
    (registry.register field fieldClass).fields = field :: registry.fields.filter (· != field) := by
  rw [register, fields, fields, List.map_cons, List.filter_map]
  rfl

theorem mem_fields_register {other : String} :
    other ∈ (registry.register field fieldClass).fields ↔ other = field ∨ other ∈ registry.fields := by
  by_cases isField : other = field <;> simp [fields_register, isField]

variable {registry} in
theorem nodup_fields_register (distinct : registry.fields.Nodup) :
    (registry.register field fieldClass).fields.Nodup := by
  rw [fields_register, List.nodup_cons]
  exact ⟨by simp, distinct.filter _⟩

theorem lastClass?_concat (registrations : List (String × FieldClass)) (other : String) :
    lastClass? (registrations ++ [(field, fieldClass)]) other =
      if other = field then some fieldClass else lastClass? registrations other := by
  split
  · next isField => simp [lastClass?, List.filter_append, isField]
  · next different => simp [lastClass?, List.filter_append, Ne.symm different]

variable (registrations : List (String × FieldClass))

theorem ofList_concat :
    ofList (registrations ++ [(field, fieldClass)]) =
      (ofList registrations).register field fieldClass := by
  rw [ofList, ofList, List.foldl_append]
  rfl

theorem get?_ofList : (ofList registrations).get? field = lastClass? registrations field := by
  induction registrations using List.reverseRecOn with
  | nil => rfl
  | append_singleton before last ih => rw [ofList_concat, get?_register, lastClass?_concat, ih]

theorem nodup_fields_ofList : (ofList registrations).fields.Nodup := by
  induction registrations using List.reverseRecOn with
  | nil => exact List.nodup_nil
  | append_singleton before last ih =>
      rw [ofList_concat]
      exact nodup_fields_register _ _ ih

theorem mem_fields_ofList :
    field ∈ (ofList registrations).fields ↔ field ∈ registrations.map Prod.fst := by
  induction registrations using List.reverseRecOn with
  | nil => rfl
  | append_singleton before last ih =>
      rw [ofList_concat, mem_fields_register, ih, List.map_append, List.mem_append, List.map_singleton,
        List.mem_singleton, or_comm]

theorem size_ofList : (ofList registrations).size = (registrations.map Prod.fst).toFinset.card := by
  have sameFields : (ofList registrations).fields.toFinset = (registrations.map Prod.fst).toFinset := by
    ext field
    rw [List.mem_toFinset, List.mem_toFinset, mem_fields_ofList]
  rw [← sameFields, List.toFinset_card_of_nodup (nodup_fields_ofList registrations), fields,
    List.length_map, size]

end Registry

/-! ## The fields that a filter asks about -/

theorem Expr.IsCondition.exists_mem_leaves {expr : Expr} (isCondition : expr.IsCondition) :
    ∃ condition, condition ∈ expr.leaves := by
  cases isCondition with
  | leaf condition => exact ⟨condition, List.mem_singleton_self condition⟩
  | outside field block => exact ⟨.inSubnet field block, List.mem_singleton_self _⟩

namespace Outline

variable {first second : List Char → Except Filter.Error Expr} {fields : List String}

mutual

/-- An expression about some fields is also what a second reader makes of an outline, if this reader
keeps the meaning of every clause about these fields. -/
theorem toExpr_transfer
    (keeps : ∀ {text expr}, first text = .ok expr → expr.fields ⊆ fields → second text = .ok expr) :
    ∀ (outline : Outline) {expr : Expr}, outline.toExpr first = .ok expr → expr.fields ⊆ fields →
      outline.toExpr second = .ok expr
  | .clause text, _, accepted, within => keeps accepted within
  | .emptyGroup _, _, accepted, _ => by cases accepted
  | .node connective parts, expr, accepted, within => by
      rw [toExpr] at accepted
      rcases Fallible.bind_eq_ok.1 accepted with ⟨children, childrenRead, joined⟩
      cases joined
      have each : ∀ child ∈ children, child.fields ⊆ fields := by
        intro child isChild field isField
        rw [Expr.fields_node] at within
        exact within (List.mem_flatMap.2 ⟨child, isChild, isField⟩)
      rw [toExpr, toExprs_transfer keeps parts childrenRead each]
      rfl

theorem toExprs_transfer
    (keeps : ∀ {text expr}, first text = .ok expr → expr.fields ⊆ fields → second text = .ok expr) :
    ∀ (parts : List Outline) {children : List Expr}, toExprs first parts = .ok children →
      (∀ child ∈ children, child.fields ⊆ fields) → toExprs second parts = .ok children
  | [], _, accepted, _ => accepted
  | part :: rest, children, accepted, within => by
      rw [toExprs] at accepted
      rcases Fallible.bind_eq_ok.1 accepted with ⟨child, childRead, later⟩
      rcases Fallible.bind_eq_ok.1 later with ⟨others, othersRead, listed⟩
      cases listed
      rw [List.forall_mem_cons] at within
      rw [toExprs, toExpr_transfer keeps part childRead within.1,
        toExprs_transfer keeps rest othersRead within.2]
      rfl

end

end Outline

namespace Filter

variable {registry other : Registry}

theorem readParts_congr {clause : Clause} (same : other.get? clause.field = registry.get? clause.field)
    (text : List Char) :
    readParts { registry := other } text clause = readParts { registry } text clause := by
  dsimp only [readParts, Registry.resolve]
  rw [same]

theorem field_mem_of_readParts {text : List Char} {clause : Clause} {expr : Expr}
    (accepted : readParts { registry } text clause = .ok expr) : clause.field ∈ expr.fields := by
  rcases readParts_cases accepted with ⟨computation, -, computed, -⟩ |
    ⟨fieldClass, -, takes, checked, ⟨computation, condition, computed, -, -⟩ | ⟨-, isCondition⟩⟩
  · cases computed
  · cases computed
  · rcases (isCondition_of_readParts accepted).exists_mem_leaves with ⟨condition, isLeaf⟩
    rcases FieldClass.admitsLeaves_of_condition takes checked isCondition condition isLeaf with
      ⟨aboutField, admits⟩
    rw [Expr.fields, List.mem_map]
    exact ⟨condition, isLeaf, admits.unsourced.trans aboutField⟩

theorem readClause_transfer {fields : List String}
    (same : ∀ field ∈ fields, other.get? field = registry.get? field) {text : List Char} {expr : Expr}
    (accepted : readClause { registry } text = .ok expr) (within : expr.fields ⊆ fields) :
    readClause { registry := other } text = .ok expr := by
  rcases readClause_cases accepted with ⟨clause, located, named, read⟩
  have sameClass := same clause.field (within (field_mem_of_readParts read))
  rw [readClause, located]
  dsimp only
  rw [if_neg named, readParts_congr sameClass, read]

/-- A filter keeps its meaning in every registry that has the same classes for its own fields. -/
theorem parse_transfer {text : String} {filter : Option Expr}
    (parsed : parse { registry } text = .ok filter)
    (same : ∀ expr ∈ filter, ∀ field ∈ expr.fields, other.get? field = registry.get? field) :
    parse { registry := other } text = .ok filter := by
  rw [parse] at parsed ⊢
  split at parsed
  · next isBlank => rw [if_pos isBlank, parsed]
  · next notBlank =>
      rw [if_neg notBlank]
      rcases Fallible.map_eq_ok.1 parsed with ⟨expr, accepted, rfl⟩
      have transferred :=
        Outline.toExpr_transfer (readClause_transfer (same expr rfl)) _ accepted fun _ => id
      rw [readExpr, transferred]
      rfl

/-- Whatever a registry was made of, it has the last class of every field and counts the fields
once. A further registration changes no filter that does not refer to the field. -/
theorem register_only_own_field (base registrations : List (String × FieldClass)) :
    let registry : Registry := registrations.foldl
      (fun registry (field, fieldClass) => registry.register field fieldClass) (.ofList base)
    (∀ field, registry.get? field = Registry.lastClass? (base ++ registrations) field) ∧
      registry.size = ((base ++ registrations).map Prod.fst).toFinset.card ∧
      ∀ text filter, parse { registry } text = .ok filter →
        ∀ field, (∀ expr ∈ filter, field ∉ expr.fields) →
          ∀ fieldClass, parse { registry := registry.register field fieldClass } text = .ok filter := by
  intro registry
  have made : registry = .ofList (base ++ registrations) := List.foldl_append.symm
  refine ⟨?_, ?_, ?_⟩
  · intro field
    rw [made, Registry.get?_ofList]
  · rw [made, Registry.size_ofList]
  · intro text filter parsed field apart fieldClass
    apply parse_transfer parsed
    intro expr isFilter own isOwn
    have different : own ≠ field := fun same => apart expr isFilter (same ▸ isOwn)
    rw [Registry.get?_register, if_neg different]

/-- A port that was a number at first, beside a text whose field becomes an address. -/
theorem register_only_own_field_port :
    let registry : Registry :=
      (Registry.ofList [("port", .numeric), ("host", .text)]).register "port" .port
    let filter : Expr := .node .and
      [.leaf (.compare .eq "port" (.number 443) none), .leaf (.like false "path" "%/80" none)]
    registry.get? "port" = some .port ∧ registry.get? "path" = none ∧ registry.size = 2 ∧
      parse { registry } "port = 443 and path like '%/80'" = .ok (some filter) ∧
      parse { registry := registry.register "host" .address } "port = 443 and path like '%/80'" =
        .ok (some filter) := by
  intro registry filter
  have parsed : parse { registry } "port = 443 and path like '%/80'" = .ok (some filter) := by
    rw [parse, if_neg (by decide), readExpr, Outline.ofText_eq]
    rfl
  have apart : ∀ expr ∈ some filter, "host" ∉ expr.fields := by
    rintro expr ⟨⟩
    decide
  have laws := register_only_own_field [("port", .numeric), ("host", .text)] [("port", .port)]
  exact ⟨laws.1 "port", laws.1 "path", laws.2.1, parsed, laws.2.2 _ _ parsed "host" apart .address⟩

end Filter

end FlowLog
