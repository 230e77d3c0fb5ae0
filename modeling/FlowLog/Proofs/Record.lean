import Mathlib.Data.List.Basic
import Mathlib.Tactic.SplitIfs
import FlowLog.Record

/-!
# Setting and looking up

A record that was changed by `set` has the new value under the name that was set and the old values
under all others, wherever the name is placed. `update` and `ofList` set one name after another. So
a name that none of the changes mentions keeps its value, and one for which they agree on a value
gets this value.
-/

namespace FlowLog.Record

variable {α : Type} {record changes : Record α} {name other : String} {value : α}

theorem get?_cons (name other : String) (value : α) (rest : Record α) :
    get? ((other, value) :: rest) name = if name = other then some value else get? rest name := by
  rw [get?, List.lookup_cons]
  by_cases same : name = other
  · simp [same]
  · have differs : (name == other) = false := by simpa using same
    simp [same, differs, get?]

theorem mem_of_get? (found : record.get? name = some value) : (name, value) ∈ record := by
  induction record with
  | nil => cases found
  | cons member rest ih =>
      rw [get?_cons] at found
      split_ifs at found with same
      · rw [same, ← Option.some.inj found]
        exact List.mem_cons_self
      · exact List.mem_cons_of_mem member (ih found)

/-! ## Setting one name -/

theorem replace_cons (name first : String) (value held : α) (rest : Record α) :
    replace name value ((first, held) :: rest) =
      (first, if first = name then value else held) :: replace name value rest := by
  by_cases same : first = name <;> simp [replace, same]

theorem get?_replace_self (present : has name record = true) :
    get? (replace name value record) name = some value := by
  induction record with
  | nil => cases present
  | cons member rest ih =>
      rw [replace_cons, get?_cons]
      by_cases same : name = member.1
      · rw [if_pos same, if_pos same.symm]
      · have later : has name rest = true := by
          have differs : (member.1 == name) = false := beq_eq_false_iff_ne.2 (Ne.symm same)
          simpa [has, differs] using present
        rw [if_neg same, ih later]

theorem get?_replace_of_ne (differs : other ≠ name) :
    get? (replace name value record) other = get? record other := by
  induction record with
  | nil => rfl
  | cons member rest ih =>
      rw [replace_cons, get?_cons, get?_cons, ih]
      split_ifs with isFirst isName
      · exact absurd (isFirst.trans isName) differs
      · rfl
      · rfl

theorem get?_place_self (absent : has name record = false) :
    get? (place name value record) name = some value := by
  induction record with
  | nil => simp [place, get?]
  | cons member rest ih =>
      have absents : member.1 ≠ name ∧ has name rest = false := by
        simpa [has] using absent
      rw [place]
      split
      · rw [get?_cons, if_pos rfl]
      · rw [get?_cons, if_neg (Ne.symm absents.1), ih absents.2]

theorem get?_place_of_ne (differs : other ≠ name) :
    get? (place name value record) other = get? record other := by
  induction record with
  | nil => rw [place, get?_cons, if_neg differs]
  | cons member rest ih =>
      rw [place]
      split
      · rw [get?_cons, if_neg differs]
      · rw [get?_cons, get?_cons, ih]

theorem get?_set_self : get? (set record name value) name = some value := by
  cases present : has name record with
  | true => rw [set, if_pos present, get?_replace_self present]
  | false => rw [set, if_neg (by simp [present]), get?_place_self present]

theorem get?_set_of_ne (differs : other ≠ name) :
    get? (set record name value) other = get? record other := by
  rw [set]
  split
  · exact get?_replace_of_ne differs
  · exact get?_place_of_ne differs

theorem mem_place {member : String × α} (isMember : member ∈ place name value record) :
    member = (name, value) ∨ member ∈ record := by
  induction record with
  | nil => exact Or.inl (List.mem_singleton.1 isMember)
  | cons first rest ih =>
      rw [place] at isMember
      split at isMember
      · exact List.mem_cons.1 isMember
      · rcases List.mem_cons.1 isMember with isFirst | inRest
        · exact Or.inr (isFirst ▸ List.mem_cons_self)
        · exact (ih inRest).imp_right (List.mem_cons_of_mem first)

theorem mem_set {member : String × α} (isMember : member ∈ set record name value) :
    member = (name, value) ∨ member ∈ record := by
  rw [set] at isMember
  split at isMember
  · rcases List.mem_map.1 isMember with ⟨⟨first, held⟩, isHeld, replaced⟩
    dsimp only at replaced
    split_ifs at replaced with same
    · exact Or.inl (by rw [← replaced, same])
    · exact Or.inr (replaced ▸ isHeld)
  · exact mem_place isMember

/-! ## Setting several names -/

theorem update_cons (record : Record α) (change : String × α) (changes : Record α) :
    update record (change :: changes) = update (set record change.1 change.2) changes := rfl

theorem get?_update_of_notMem (absent : name ∉ changes.names) :
    get? (update record changes) name = get? record name := by
  induction changes generalizing record with
  | nil => rfl
  | cons change later ih =>
      rw [names, List.map_cons, List.mem_cons, not_or] at absent
      rw [update_cons, ih absent.2, get?_set_of_ne absent.1]

theorem mem_update {member : String × α} (isMember : member ∈ update record changes) :
    member ∈ changes ∨ member ∈ record := by
  induction changes generalizing record with
  | nil => exact Or.inr isMember
  | cons change later ih =>
      rw [update_cons] at isMember
      rcases ih isMember with inLater | inSet
      · exact Or.inl (List.mem_cons_of_mem change inLater)
      · rcases mem_set inSet with isChange | inRecord
        · exact Or.inl (List.mem_cons.2 (Or.inl isChange))
        · exact Or.inr inRecord

theorem get?_update_eq_some (agree : ∀ change ∈ changes, change.1 = name → change.2 = value)
    (given : (name, value) ∈ changes ∨ get? record name = some value) :
    get? (update record changes) name = some value := by
  induction changes generalizing record with
  | nil =>
      rcases given with inNil | held
      · cases inNil
      · exact held
  | cons change later ih =>
      rw [List.forall_mem_cons] at agree
      rw [update_cons]
      apply ih agree.2
      by_cases same : change.1 = name
      · right
        rw [same, agree.1 same, get?_set_self]
      · rw [get?_set_of_ne (Ne.symm same)]
        refine given.imp_left fun isMember => ?_
        rcases List.mem_cons.1 isMember with isChange | inLater
        · exact absurd (congrArg Prod.fst isChange).symm same
        · exact inLater

/-- A name for which all members of a list agree on a value has this value in the record that is
made of them. -/
theorem get?_ofList_eq_some {members : List (String × α)}
    (agree : ∀ member ∈ members, member.1 = name → member.2 = value) (given : (name, value) ∈ members) :
    get? (ofList members) name = some value :=
  get?_update_eq_some agree (Or.inl given)

end FlowLog.Record
