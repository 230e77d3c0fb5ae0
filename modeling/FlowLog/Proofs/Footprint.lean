import FlowLog.Proofs.Query

/-!
# The order of settings

A setting reads some slots of a query and writes one. Whether it is accepted and what it writes
follow from the slots that it reads, and the slots that it does not write stay as they are. So two
settings may change places if neither writes what the other reads or writes.

Verbs, fields and aggregations share one slot, because each of them looks at what the others left
there.
-/

namespace FlowLog

/-- The kind of a setting, named for the part of a query that it sets. -/
def Setting.part : Setting → QueryPart
  | .verb _ => .verb
  | .fields _ => .fields
  | .aggregations _ => .aggregations
  | .groupBy _ => .groupBy
  | .limit _ => .limit
  | .filter _ => .filter
  | .version _ => .version

namespace Query

/-- The slots of a query. -/
inductive Slot where
  | columns
  | groupBy
  | filters
  | limit
  | version
  deriving DecidableEq

/-- What a slot holds. Fields that wait for the verb `raw` are held with the other columns. -/
def Slot.Content : Slot → Type
  | .columns => List Aggregation × List String × List String
  | .groupBy => List String
  | .filters => List Expr
  | .limit => Number
  | .version => Number

/-- The content of a slot of a query. -/
def Slot.content (query : Query) : (slot : Slot) → slot.Content
  | .columns => (query.aggregations, query.fields, query.pending)
  | .groupBy => query.groupBy
  | .filters => query.filters
  | .limit => query.limit
  | .version => query.version

theorem ext_slots {query other : Query} (same : ∀ slot : Slot, slot.content query = slot.content other) :
    query = other := by
  have columns : (query.aggregations, query.fields, query.pending) =
      (other.aggregations, other.fields, other.pending) := same .columns
  have groupBy : query.groupBy = other.groupBy := same .groupBy
  have filters : query.filters = other.filters := same .filters
  have limit : query.limit = other.limit := same .limit
  have version : query.version = other.version := same .version
  cases query
  cases other
  simp_all

end Query

namespace Setting

open Query (Slot)

/-- The slot that a setting writes. -/
def writes : Setting → Slot
  | .verb _ => .columns
  | .fields _ => .columns
  | .aggregations _ => .columns
  | .groupBy _ => .groupBy
  | .limit _ => .limit
  | .filter _ => .filters
  | .version _ => .version

/-- The slots that a setting reads, to be checked or to be kept in part. -/
def reads : Setting → List Slot
  | .verb _ => [.columns]
  | .fields _ => [.columns, .version]
  | .aggregations _ => [.columns, .version]
  | .groupBy _ => [.version]
  | .limit _ => []
  | .filter _ => [.filters, .version]
  | .version _ => []

/-- Neither of two settings writes what the other reads or writes. -/
structure Apart (first second : Setting) : Prop where
  writes : first.writes ≠ second.writes
  secondReads : first.writes ∉ second.reads
  firstReads : second.writes ∉ first.reads

theorem Apart.symm {first second : Setting} (apart : first.Apart second) : second.Apart first :=
  ⟨apart.writes.symm, apart.firstReads, apart.secondReads⟩

end Setting

namespace Query

variable {schema : Schema} {query other middle next final : Query} {setting first second : Setting}

/-- A setting leaves every slot as it was but the one that it writes. -/
theorem Step.content_eq (step : Step schema query setting next) {slot : Slot}
    (untouched : slot ≠ setting.writes) : slot.content next = slot.content query := by
  cases step <;> cases slot <;> first | rfl | exact absurd rfl untouched

/-- A setting does the same to queries that agree on the slots that it reads. A query that agrees on
the columns is this one with its other slots changed, and the rule that applies here applies
there. -/
theorem Step.transfer (step : Step schema query setting next)
    (agree : ∀ slot ∈ setting.reads, slot.content query = slot.content other) :
    ∃ otherNext, Step schema other setting otherNext ∧
      setting.writes.content next = setting.writes.content otherNext := by
  have version : .version ∈ setting.reads → query.version = other.version := agree .version
  have filters : .filters ∈ setting.reads → query.filters = other.filters := agree .filters
  have columns : .columns ∈ setting.reads →
      ∃ groupBy filters limit version, other = { query with groupBy, filters, limit, version } := by
    intro isRead
    refine ⟨other.groupBy, other.filters, other.limit, other.version, ext_slots ?_⟩
    intro slot
    cases slot with
    | columns => exact (agree .columns isRead).symm
    | _ => rfl
  cases step with
  | list =>
      rcases columns (by simp [Setting.reads]) with ⟨_, _, _, _, rfl⟩
      exact ⟨_, .list, rfl⟩
  | aggregate lists =>
      rcases columns (by simp [Setting.reads]) with ⟨_, _, _, _, rfl⟩
      exact ⟨_, .aggregate lists, rfl⟩
  | function aggregates applies =>
      rcases columns (by simp [Setting.reads]) with ⟨_, _, _, _, rfl⟩
      exact ⟨_, .function aggregates applies, rfl⟩
  | fields lists checked =>
      rw [version (by simp [Setting.reads])] at checked
      rcases columns (by simp [Setting.reads]) with ⟨_, _, _, _, rfl⟩
      exact ⟨_, .fields lists checked, rfl⟩
  | noField aggregates =>
      rcases columns (by simp [Setting.reads]) with ⟨_, _, _, _, rfl⟩
      exact ⟨_, .noField aggregates, rfl⟩
  | field aggregates checked applies =>
      rw [version (by simp [Setting.reads])] at checked
      rcases columns (by simp [Setting.reads]) with ⟨_, _, _, _, rfl⟩
      exact ⟨_, .field aggregates checked applies, rfl⟩
  | aggregations nonempty checked =>
      rw [version (by simp [Setting.reads])] at checked
      rcases columns (by simp [Setting.reads]) with ⟨_, _, _, _, rfl⟩
      exact ⟨_, .aggregations nonempty checked, rfl⟩
  | groupBy checked =>
      rw [version (by simp [Setting.reads])] at checked
      exact ⟨_, .groupBy checked, rfl⟩
  | limit natural => exact ⟨_, .limit natural, rfl⟩
  | noFilter => exact ⟨_, .noFilter, filters (by simp [Setting.reads])⟩
  | @filter filter checked =>
      rw [version (by simp [Setting.reads])] at checked
      exact ⟨_, .filter checked, congrArg (· ++ [filter]) (filters (by simp [Setting.reads]))⟩
  | version checked => exact ⟨_, .version checked, rfl⟩

/-- Settings that stand apart may be applied in either order: each slot was last written by one of
the two, or by none. -/
theorem Step.swap (apart : first.Apart second) (firstStep : Step schema query first middle)
    (secondStep : Step schema middle second final) :
    ∃ other, Step schema query second other ∧ Step schema other first final := by
  have secondReads : ∀ slot ∈ second.reads, slot.content middle = slot.content query := by
    intro slot isRead
    apply firstStep.content_eq
    rintro rfl
    exact apart.secondReads isRead
  obtain ⟨other, secondFirst, secondWrites⟩ := secondStep.transfer secondReads
  have firstReads : ∀ slot ∈ first.reads, slot.content query = slot.content other := by
    intro slot isRead
    symm
    apply secondFirst.content_eq
    rintro rfl
    exact apart.firstReads isRead
  obtain ⟨last, firstLast, firstWrites⟩ := firstStep.transfer firstReads
  have same : last = final := by
    apply ext_slots
    intro slot
    by_cases isFirst : slot = first.writes
    · subst isFirst
      exact firstWrites.symm.trans (secondStep.content_eq apart.writes).symm
    · rw [firstLast.content_eq isFirst]
      by_cases isSecond : slot = second.writes
      · subst isSecond
        exact secondWrites.symm
      · rw [secondFirst.content_eq isSecond, secondStep.content_eq isSecond,
          firstStep.content_eq isFirst]
  exact ⟨other, secondFirst, same ▸ firstLast⟩

theorem foldlM_swap (apart : first.Apart second) {after : List Setting}
    (succeeds : (first :: second :: after).foldlM (apply schema) query = .ok final) :
    (second :: first :: after).foldlM (apply schema) query = .ok final := by
  simp only [List.foldlM_cons, Fallible.bind_eq_ok, apply_eq_ok] at succeeds ⊢
  rcases succeeds with ⟨middle, firstStep, later, secondStep, afterwards⟩
  rcases firstStep.swap apart secondStep with ⟨other, secondFirst, firstLast⟩
  exact ⟨other, secondFirst, later, firstLast, afterwards⟩

theorem create_of_swap (apart : first.Apart second) {before after : List Setting}
    (created : create (some schema) (before ++ first :: second :: after) = .ok query) :
    create (some schema) (before ++ second :: first :: after) = .ok query := by
  simp only [create, build, List.foldlM_append, Fallible.bind_eq_ok] at created ⊢
  rcases created with ⟨middle, beforehand, afterwards⟩
  exact ⟨middle, beforehand, foldlM_swap apart afterwards⟩

theorem apart_of_part (different : first.part ≠ second.part)
    (independent : first.part = .limit ∨
      (first.part = .groupBy ∨ first.part = .filter) ∧ second.part ≠ .version) :
    first.Apart second := by
  cases first <;> cases second <;> simp [Setting.part] at different independent <;>
    exact ⟨by simp [Setting.writes], by simp [Setting.writes, Setting.reads],
      by simp [Setting.writes, Setting.reads]⟩

/-- A limit may change places with a neighbour of any other kind, and groups and a filter with a
neighbour of any other kind but a version: the same query is made, with the same text, whatever was
set before and is set afterwards, or there is none in either order. -/
theorem create_swap (schema : Schema) (before after : List Setting)
    (different : first.part ≠ second.part)
    (independent : first.part = .limit ∨
      (first.part = .groupBy ∨ first.part = .filter) ∧ second.part ≠ .version) :
    (∀ query, create (some schema) (before ++ first :: second :: after) = .ok query ↔
      create (some schema) (before ++ second :: first :: after) = .ok query) ∧
    ∀ text, create (some schema) (before ++ first :: second :: after) >>= render schema = .ok text ↔
      create (some schema) (before ++ second :: first :: after) >>= render schema = .ok text := by
  have apart := apart_of_part different independent
  have same : ∀ query, create (some schema) (before ++ first :: second :: after) = .ok query ↔
      create (some schema) (before ++ second :: first :: after) = .ok query :=
    fun query => ⟨create_of_swap apart, create_of_swap apart.symm⟩
  refine ⟨same, ?_⟩
  intro text
  simp only [Fallible.bind_eq_ok, same]

/-- Fields wait for the verb `raw`, and a filter of version 3 stands on either side of it. -/
theorem create_swap_pending :
    let filter : Expr := .leaf (.inSubnet "pkt_srcaddr" "10.0.0.0/8")
    ∃ query, create (some .flowRecords) [.version 3, .fields ["bytes", "vpc_id"], .filter (some filter),
        .verb .raw, .version 2] = .ok query ∧
      query.fields = ["bytes", "vpc_id"] ∧ query.filters.length = 1 ∧
      create (some .flowRecords) [.version 3, .fields ["bytes", "vpc_id"], .verb .raw,
        .filter (some filter), .version 2] = .ok query := by
  intro filter
  obtain ⟨query, created, listed, filtered⟩ : ∃ query, create (some .flowRecords) [.version 3,
      .fields ["bytes", "vpc_id"], .filter (some filter), .verb .raw, .version 2] = .ok query ∧
      query.fields = ["bytes", "vpc_id"] ∧ query.filters.length = 1 := ⟨_, rfl, rfl, rfl⟩
  have different : (Setting.filter (some filter)).part ≠ (Setting.verb .raw).part := by
    simp [Setting.part]
  have swapped :=
    create_swap .flowRecords [.version 3, .fields ["bytes", "vpc_id"]] [.version 2] different
    (Or.inr ⟨Or.inr rfl, by simp [Setting.part]⟩)
  exact ⟨query, created, listed, filtered, (swapped.1 query).1 created⟩

end Query

end FlowLog
