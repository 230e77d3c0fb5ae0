import FlowLog.Log.Entry
import FlowLog.Proofs.Fallible
import FlowLog.Proofs.JsonReading

/-!
# Written log entries

Every entry can be written, whatever its payload holds. On one line it has no control characters,
and reading the line gives back its level and its message (`Entry.create_written`).

Only big integers stand in the way of an entry, and then its heading is written in its place. Errors
are taken apart in two ways, and this decides which big integers count. An error that is the
payload, or a member of it, becomes an object that includes its cause. An error further inside is
written as its name, message and stack, and its cause is never looked at. `Payload.reported` is what
remains of a payload under the second rule.
-/

namespace FlowLog.Log

namespace Payload

@[induction_eliminator]
theorem induction {motive : Payload → Prop} (null : motive .null) (bool : ∀ value, motive (.bool value))
    (number : ∀ value, motive (.number value)) (text : ∀ value, motive (.text value))
    (array : ∀ items, (∀ item ∈ items, motive item) → motive (.array items))
    (object : ∀ members, (∀ name value, (name, value) ∈ members → motive value) →
      motive (.object members))
    (big : ∀ value, motive (.big value)) (missing : motive .missing)
    (error : ∀ name message stack cause, motive (.error name message stack cause))
    (payload : Payload) : motive payload :=
  match payload with
  | .null => null
  | .bool value => bool value
  | .number value => number value
  | .text value => text value
  | .array items => array items fun item _ =>
      induction null bool number text array object big missing error item
  | .object members => object members fun _ value _ =>
      induction null bool number text array object big missing error value
  | .big value => big value
  | .missing => missing
  | .error name message stack cause => error name message stack cause
termination_by sizeOf payload
decreasing_by
  · have smaller := List.sizeOf_lt_of_mem ‹_ ∈ items›
    simp only [Payload.array.sizeOf_spec]
    omega
  · have smaller := List.sizeOf_lt_of_mem ‹(_, value) ∈ members›
    simp only [Prod.mk.sizeOf_spec] at smaller
    simp only [Payload.object.sizeOf_spec]
    omega

/-! ## Big integers -/

/-- A payload holds itself and whatever its items, its members and its cause hold. -/
inductive Holds : Payload → Payload → Prop
  | here (payload : Payload) : Holds payload payload
  | item {items : List Payload} {item inner : Payload} (isItem : item ∈ items)
      (holds : Holds item inner) : Holds (.array items) inner
  | member {members : List (String × Payload)} {name : String} {value inner : Payload}
      (isMember : (name, value) ∈ members) (holds : Holds value inner) : Holds (.object members) inner
  | cause {name message stack : String} {cause inner : Payload} (holds : Holds cause inner) :
      Holds (.error name message stack (some cause)) inner

/-- There is a big integer in the payload. -/
def HoldsBig (payload : Payload) : Prop := ∃ value, payload.Holds (.big value)

mutual

/-- The payload with every error replaced by its name, message and stack. -/
def reported : Payload → Payload
  | .array items => .array (reportedItems items)
  | .object members => .object (reportedMembers members)
  | .error name message stack _ =>
      .object [("name", .text name), ("message", .text message), ("stack", .text stack)]
  | payload => payload

/-- The items with every error replaced. -/
def reportedItems : List Payload → List Payload
  | [] => []
  | item :: rest => reported item :: reportedItems rest

/-- The members with every error replaced. -/
def reportedMembers : List (String × Payload) → List (String × Payload)
  | [] => []
  | (name, value) :: rest => (name, reported value) :: reportedMembers rest

end

theorem reportedItems_eq_map (items : List Payload) : reportedItems items = items.map reported := by
  induction items with
  | nil => rfl
  | cons item rest ih => rw [reportedItems, ih, List.map_cons]

theorem reportedMembers_eq_map (members : List (String × Payload)) :
    reportedMembers members = members.map fun (name, value) => (name, value.reported) := by
  induction members with
  | nil => rfl
  | cons member rest ih => rw [reportedMembers, ih, List.map_cons]

theorem not_holdsBig_text (text : String) : ¬(Payload.text text).HoldsBig := by
  rintro ⟨value, ⟨⟩⟩

theorem holdsBig_array {items : List Payload} :
    (Payload.array items).HoldsBig ↔ ∃ item ∈ items, item.HoldsBig := by
  constructor
  · rintro ⟨value, holds⟩
    cases holds with
    | item isItem holds => exact ⟨_, isItem, value, holds⟩
  · rintro ⟨item, isItem, value, holds⟩
    exact ⟨value, .item isItem holds⟩

theorem holdsBig_object {members : List (String × Payload)} :
    (Payload.object members).HoldsBig ↔ ∃ member ∈ members, member.2.HoldsBig := by
  constructor
  · rintro ⟨value, holds⟩
    cases holds with
    | member isMember holds => exact ⟨_, isMember, value, holds⟩
  · rintro ⟨member, isMember, value, holds⟩
    exact ⟨value, .member isMember holds⟩

theorem holdsBig_reported_array {items : List Payload} :
    (Payload.array items).reported.HoldsBig ↔ ∃ item ∈ items, item.reported.HoldsBig := by
  rw [reported, reportedItems_eq_map, holdsBig_array]
  simp

theorem holdsBig_reported_object {members : List (String × Payload)} :
    (Payload.object members).reported.HoldsBig ↔ ∃ member ∈ members, member.2.reported.HoldsBig := by
  rw [reported, reportedMembers_eq_map, holdsBig_object]
  simp

/-! ## JSON forms -/

section Form

variable {form : ErrorForm}

theorem itemsToJson?_eq_error {items : List Payload} :
    itemsToJson? form items = .error .bigInteger ↔
      ∃ item ∈ items, toJson? form item = .error .bigInteger := by
  induction items with
  | nil => simp [itemsToJson?]
  | cons item rest ih =>
      rw [itemsToJson?, List.exists_mem_cons_iff, ← ih]
      cases toJson? form item with
      | error reason => simp [bind, Except.bind]
      | ok json => cases itemsToJson? form rest <;> simp [bind, Except.bind, pure, Except.pure]

theorem membersToJson?_cons (name : String) (value : Payload) (rest : List (String × Payload)) :
    membersToJson? form ((name, value) :: rest) = do
      let json ← toJson? form value
      let jsons ← membersToJson? form rest
      return json.toList.map (name, ·) ++ jsons := by
  rw [membersToJson?]
  cases toJson? form value with
  | error reason => rfl
  | ok json =>
      cases membersToJson? form rest with
      | error reason => rfl
      | ok jsons => cases json <;> rfl

theorem membersToJson?_eq_error {members : List (String × Payload)} :
    membersToJson? form members = .error .bigInteger ↔
      ∃ member ∈ members, toJson? form member.2 = .error .bigInteger := by
  induction members with
  | nil => simp [membersToJson?]
  | cons member rest ih =>
      rw [membersToJson?_cons, List.exists_mem_cons_iff, ← ih]
      cases toJson? form member.2 with
      | error reason => simp [bind, Except.bind]
      | ok json => cases membersToJson? form rest <;> simp [bind, Except.bind, pure, Except.pure]

/-- The written members are those whose value has a JSON form. -/
theorem mem_membersToJson? {members : List (String × Payload)} {jsons : List (String × Json)}
    (succeeds : membersToJson? form members = .ok jsons) {name : String} {json : Json} :
    (name, json) ∈ jsons ↔ ∃ value, (name, value) ∈ members ∧ toJson? form value = .ok (some json) := by
  induction members generalizing jsons with
  | nil =>
      cases succeeds
      simp
  | cons member rest ih =>
      rw [membersToJson?_cons] at succeeds
      rcases Fallible.bind_eq_ok.1 succeeds with ⟨first, ofFirst, succeeds⟩
      rcases Fallible.bind_eq_ok.1 succeeds with ⟨later, ofRest, ⟨⟩⟩
      have inFirst : (name, json) ∈ first.toList.map (member.1, ·) ↔
          name = member.1 ∧ first = some json := by
        cases first <;> simp [eq_comm, and_comm]
      rw [List.mem_append, inFirst, ih ofRest]
      constructor
      · rintro (⟨rfl, rfl⟩ | ⟨value, isMember, written⟩)
        · exact ⟨member.2, List.mem_cons_self, ofFirst⟩
        · exact ⟨value, List.mem_cons_of_mem _ isMember, written⟩
      · rintro ⟨value, isMember, written⟩
        rcases List.mem_cons.1 isMember with rfl | isLater
        · exact Or.inl ⟨rfl, Except.ok.inj (ofFirst.symm.trans written)⟩
        · exact Or.inr ⟨value, isLater, written⟩

theorem toJson?_array_eq_error {items : List Payload} :
    toJson? form (.array items) = .error .bigInteger ↔
      ∃ item ∈ items, toJson? form item = .error .bigInteger := by
  rw [toJson?, ← itemsToJson?_eq_error]
  cases itemsToJson? form items <;> simp [bind, Except.bind, pure, Except.pure]

theorem toJson?_object_eq_error {members : List (String × Payload)} :
    toJson? form (.object members) = .error .bigInteger ↔
      membersToJson? form members = .error .bigInteger := by
  rw [toJson?]
  cases membersToJson? form members <;> simp [bind, Except.bind, pure, Except.pure]

end Form

/-- A payload cannot be written as a report exactly if a big integer is left once its errors are
replaced. The cause of an error is out of sight, because a report is made of texts. -/
theorem toJson?_report_eq_error {payload : Payload} :
    toJson? .report payload = .error .bigInteger ↔ payload.reported.HoldsBig := by
  induction payload with
  | null | bool | number | text | missing =>
      refine iff_of_false (by simp [toJson?]) ?_
      rintro ⟨value, ⟨⟩⟩
  | big value => exact iff_of_true rfl ⟨value, .here _⟩
  | array items ih =>
      rw [toJson?_array_eq_error, holdsBig_reported_array]
      exact exists_congr fun item => and_congr_right (ih item)
  | object members ih =>
      rw [toJson?_object_eq_error, membersToJson?_eq_error, holdsBig_reported_object]
      exact exists_congr fun member => and_congr_right (ih member.1 member.2)
  | error name message stack cause =>
      refine iff_of_false (by simp [toJson?]) ?_
      rw [reported, holdsBig_object]
      simp [not_holdsBig_text]

/-! ## What a payload adds to an entry -/

/-- The names under which a payload adds its own members to an entry. -/
def ownNames : Payload → List String
  | .object members => Record.names members
  | _ => []

/-- The members that a payload adds to an entry. -/
def additions : Payload → Record Payload
  | .missing => []
  | .error name message stack cause => [("error", (Payload.error name message stack cause).describe)]
  | .object members => members.map fun (name, value) => (name, value.describe)
  | payload => [("data", payload)]

end Payload

namespace Entry

/-! ## Members that are texts -/

/-- A name under which the members have a text and nothing else. -/
def States (members : Record Payload) (name text : String) : Prop :=
  Record.get? members name = some (.text text) ∧
    ∀ value, (name, value) ∈ members → value = .text text

theorem attach_eq_update (entry : Entry) (payload : Payload) :
    attach entry payload = Record.update entry payload.additions := by
  cases payload <;> rfl

theorem notMem_names_additions {payload : Payload} {name : String}
    (free : ∀ own ∈ payload.ownNames, own ∉ headingNames) (isHeading : name ∈ headingNames) :
    name ∉ Record.names payload.additions := by
  have standard : "error" ∉ headingNames ∧ "data" ∉ headingNames := by decide
  cases payload with
  | missing => simp [Payload.additions, Record.names]
  | object members =>
      intro isOwn
      refine free name ?_ isHeading
      simpa [Payload.additions, Record.names, Payload.ownNames, Function.comp_def] using isOwn
  | error =>
      change name ∉ ["error"]
      exact List.mem_singleton.not.2 (ne_of_mem_of_not_mem isHeading standard.1)
  | _ =>
      change name ∉ ["data"]
      exact List.mem_singleton.not.2 (ne_of_mem_of_not_mem isHeading standard.2)

theorem States.create {timestamp level message name text : String} {category : Option String}
    {payload : Payload} (states : States (heading timestamp level message category) name text)
    (free : ∀ own ∈ payload.ownNames, own ∉ headingNames) (isHeading : name ∈ headingNames) :
    States (create timestamp level message category payload) name text := by
  have absent := notMem_names_additions free isHeading
  rw [Entry.create, attach_eq_update]
  refine ⟨(Record.get?_update_of_notMem absent).trans states.1, fun value isMember => ?_⟩
  rcases Record.mem_update isMember with added | held
  · exact absurd (List.mem_map.2 ⟨_, added, rfl⟩) absent
  · exact states.2 value held

theorem states_heading (timestamp level message : String) (category : Option String) :
    States (heading timestamp level message category) "timestamp" timestamp ∧
      States (heading timestamp level message category) "level" level ∧
      States (heading timestamp level message category) "message" message := by
  cases category with
  | none => simp [States, heading, Record.get?_cons]
  | some name => by_cases none : name = "" <;> simp [States, heading, none, Record.get?_cons]

theorem States.value_eq {entry : Entry} {name text : String} (states : States entry name text) :
    entry.value name = .text text := by
  rw [value, states.1]
  rfl

theorem States.fallback {entry : Entry} {level message : String} (reason : Payload.Unwritable)
    (statesLevel : States entry "level" level) (statesMessage : States entry "message" message) :
    States (entry.fallback reason) "level" level ∧ States (entry.fallback reason) "message" message := by
  rw [Entry.fallback, statesLevel.value_eq, statesMessage.value_eq]
  simp [States, Record.get?_cons]

/-! ## Lines -/

theorem lineText_eq_ok {form : Payload.ErrorForm} {members : Record Payload} {line : String} :
    lineText form members = .ok line ↔
      ∃ jsons, Payload.membersToJson? form members = .ok jsons ∧ (Json.object jsons).line = line :=
  Fallible.map_eq_ok

theorem lineText_report_eq_error {entry : Entry} :
    lineText .report entry = .error .bigInteger ↔ (Payload.object entry).reported.HoldsBig := by
  rw [← Payload.toJson?_report_eq_error, Payload.toJson?_object_eq_error, lineText]
  cases Payload.membersToJson? .report entry <;> simp [Except.map]

/-- A text that the members state is a member of their JSON form, and the only one of its name. -/
theorem States.json {form : Payload.ErrorForm} {members : Record Payload} {jsons : List (String × Json)}
    {name text : String} (states : States members name text)
    (written : Payload.membersToJson? form members = .ok jsons) :
    (name, .text text) ∈ jsons ∧ ∀ member ∈ jsons, member.1 = name → member.2 = .text text := by
  constructor
  · exact (Payload.mem_membersToJson? written).2 ⟨_, Record.mem_of_get? states.1, rfl⟩
  · rintro ⟨other, json⟩ isMember rfl
    rcases (Payload.mem_membersToJson? written).1 isMember with ⟨value, isValue, ofValue⟩
    rw [states.2 value isValue] at ofValue
    cases ofValue
    rfl

/-- What a line says once it is read: the level and the message. -/
def Carries (line level message : String) : Prop :=
  ∃ read, Json.ofString? (Text.ofUnits line) = some read ∧
    read.member? "level" = some (.text level) ∧ read.member? "message" = some (.text message)

theorem carries_of_lineText {form : Payload.ErrorForm} {members : Record Payload}
    {line level message : String} (written : lineText form members = .ok line)
    (statesLevel : States members "level" level) (statesMessage : States members "message" message)
    (levelUnits : Text.AreUnits level.toList) (messageUnits : Text.AreUnits message.toList) :
    Carries line level message := by
  rcases lineText_eq_ok.1 written with ⟨jsons, ofMembers, rfl⟩
  rcases statesLevel.json ofMembers with ⟨givenLevel, agreeLevel⟩
  rcases statesMessage.json ofMembers with ⟨givenMessage, agreeMessage⟩
  exact ⟨_, Json.ofString?_line _,
    Json.member?_reread (by decide) levelUnits agreeLevel givenLevel,
    Json.member?_reread (by decide) messageUnits agreeMessage givenMessage⟩

theorem visible_of_lineText {form : Payload.ErrorForm} {members : Record Payload} {line : String}
    (written : lineText form members = .ok line) : Json.Visible line.toList := by
  rcases lineText_eq_ok.1 written with ⟨jsons, -, rfl⟩
  rw [Json.line, String.toList_ofList]
  exact Json.visible_compact _

/-- The line is that of the fallback, since the entry itself cannot be written. -/
def FallsBack (entry : Entry) (line : String) : Prop :=
  ∃ reason, lineText .report entry = .error reason ∧ lineText .members (entry.fallback reason) = .ok line

theorem json_eq_ok {entry : Entry} {line : String} :
    entry.json = .ok line ↔ lineText .report entry = .ok line ∨ entry.FallsBack line := by
  rw [json, FallsBack]
  cases lineText .report entry with
  | ok other => simp
  | error reason =>
      constructor
      · intro written
        exact Or.inr ⟨reason, rfl, written⟩
      · rintro (written | ⟨other, same, written⟩)
        · cases written
        · cases same
          exact written

theorem fallsBack_iff {entry : Entry} {line : String} (written : entry.json = .ok line) :
    entry.FallsBack line ↔ (Payload.object entry).reported.HoldsBig := by
  rw [← lineText_report_eq_error]
  constructor
  · rintro ⟨⟨⟩, fails, -⟩
    exact fails
  · intro fails
    rcases json_eq_ok.1 written with succeeds | fallsBack
    · cases fails.symm.trans succeeds
    · exact fallsBack

/-- An entry with texts in its heading can be written: its fallback has nothing else in it. -/
theorem exists_json_eq_ok {entry : Entry} {timestamp level message : String}
    (statesTimestamp : States entry "timestamp" timestamp) (statesLevel : States entry "level" level)
    (statesMessage : States entry "message" message) : ∃ line, entry.json = .ok line := by
  rw [json]
  cases lineText .report entry with
  | ok line => exact ⟨line, rfl⟩
  | error reason =>
      change ∃ line, lineText .members (entry.fallback reason) = .ok line
      rw [fallback, statesTimestamp.value_eq, statesLevel.value_eq, statesMessage.value_eq]
      exact ⟨_, rfl⟩

/-- Whichever members are written, they state the level and the message of the entry. -/
theorem lineText_of_json {entry : Entry} {line level message : String} (written : entry.json = .ok line)
    (statesLevel : States entry "level" level) (statesMessage : States entry "message" message) :
    ∃ form members, lineText form members = .ok line ∧
      States members "level" level ∧ States members "message" message := by
  rcases json_eq_ok.1 written with ofEntry | ⟨reason, -, ofFallback⟩
  · exact ⟨.report, entry, ofEntry, statesLevel, statesMessage⟩
  · exact ⟨.members, entry.fallback reason, ofFallback, States.fallback reason statesLevel statesMessage⟩

theorem exists_pretty?_eq_some {entry : Entry} {level : String} (states : States entry "level" level) :
    ∃ page, entry.pretty? = some page := by
  rw [pretty?, states.value_eq]
  exact ⟨_, rfl⟩

/-- An entry whose payload leaves the heading alone is written over lines and on one line. The line
has no control characters and carries the level and the message. It is the fallback exactly if the
entry holds a big integer after its errors are replaced by their reports. -/
theorem create_written (timestamp level message : String) (category : Option String) (payload : Payload)
    (levelUnits : Text.AreUnits level.toList) (messageUnits : Text.AreUnits message.toList)
    (free : ∀ own ∈ payload.ownNames, own ∉ headingNames) :
    (∃ page, (create timestamp level message category payload).pretty? = some page) ∧
      ∃ line, (create timestamp level message category payload).json = .ok line ∧
        (∀ c ∈ line.toList, 0x20 ≤ c.toNat) ∧ Carries line level message ∧
        (FallsBack (create timestamp level message category payload) line ↔
          (Payload.object (create timestamp level message category payload)).reported.HoldsBig) := by
  rcases states_heading timestamp level message category with ⟨headTimestamp, headLevel, headMessage⟩
  have statesTimestamp := headTimestamp.create free (by decide)
  have statesLevel := headLevel.create free (by decide)
  have statesMessage := headMessage.create free (by decide)
  rcases exists_json_eq_ok statesTimestamp statesLevel statesMessage with ⟨line, written⟩
  rcases lineText_of_json written statesLevel statesMessage with
    ⟨form, members, ofMembers, lineLevel, lineMessage⟩
  exact ⟨exists_pretty?_eq_some statesLevel, line, written, visible_of_lineText ofMembers,
    carries_of_lineText ofMembers lineLevel lineMessage levelUnits messageUnits, fallsBack_iff written⟩

/-- A big integer that causes an error counts where the error is a member of the payload, and does
not count where the error is in a list. -/
theorem create_written_causes :
    let failure : Payload := .error "Error" "lost" "" (some (.array [.big 7]))
    let direct := create "noon" "warn" "one\ntwo" none (.object [("failure", failure)])
    let nested := create "noon" "warn" "one\ntwo" none (.object [("failures", .array [failure])])
    (∃ line, direct.json = .ok line ∧ Carries line "warn" "one\ntwo" ∧ FallsBack direct line) ∧
      ∃ line, nested.json = .ok line ∧ Carries line "warn" "one\ntwo" ∧ ¬FallsBack nested line := by
  intro failure direct nested
  constructor
  · have written := create_written "noon" "warn" "one\ntwo" none (.object [("failure", failure)])
      (by decide) (by decide) (by decide)
    rcases written.2 with ⟨line, isLine, -, carries, falls⟩
    exact ⟨line, isLine, carries, falls.2 (lineText_report_eq_error.1 rfl)⟩
  · have written := create_written "noon" "warn" "one\ntwo" none
      (.object [("failures", .array [failure])]) (by decide) (by decide) (by decide)
    rcases written.2 with ⟨line, isLine, -, carries, falls⟩
    refine ⟨line, isLine, carries, fun fallsBack => ?_⟩
    cases lineText_report_eq_error.2 (falls.1 fallsBack)

end Entry

end FlowLog.Log
