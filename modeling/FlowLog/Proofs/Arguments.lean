import FlowLog.Proofs.Fallible
import FlowLog.Service.Arguments

/-!
# The arguments of a query

Arguments have any shape, and a request is read from them one argument at a time.
`readRequest_object` says what each argument has to be for this to succeed. Together these
conditions are `Describes`, which speaks of the arguments alone. A request that was read can be
written as arguments again: it has the same members, with a list in place of a single text where
names are given, and reading them leads back to the request.
-/

namespace FlowLog

open Fallible

/-! ## Records -/

namespace Record

variable {α : Type}

theorem get?_eq_none {record : Record α} {name : String} :
    record.get? name = none ↔ name ∉ record.names := by
  simp only [get?, names, List.lookup_eq_none_iff, List.mem_map, bne_iff_ne, ne_eq, not_exists, not_and]
  exact forall₂_congr fun member _ => not_congr eq_comm

theorem get?_middle (before after : Record α) (key : String) (value : α) (name : String) :
    get? (before ++ (key, value) :: after) name =
      (before.get? name).or (if name = key then some value else after.get? name) := by
  rw [get?, List.lookup_append, List.lookup_cons]
  by_cases same : name = key
  · simp [same, get?]
  · have differs : (name == key) = false := by simpa using same
    simp [same, differs, get?]

/-- The members of a record that have a value. -/
def present (record : Record (Option α)) : Record α :=
  record.filterMap fun (name, value) => value.map (name, ·)

theorem mem_names_of_present {record : Record (Option α)} {name : String}
    (isPresent : name ∈ record.present.names) : name ∈ record.names := by
  simp only [names, present, List.mem_map, List.mem_filterMap, Option.map_eq_some_iff] at isPresent ⊢
  rcases isPresent with ⟨_, ⟨member, isMember, value, -, rfl⟩, rfl⟩
  exact ⟨member, isMember, rfl⟩

theorem get?_present {record : Record (Option α)} (distinct : record.names.Nodup) (name : String) :
    record.present.get? name = (record.get? name).join := by
  induction record with
  | nil => rfl
  | cons member rest ih =>
      rcases member with ⟨other, value⟩
      rcases List.nodup_cons.1 distinct with ⟨fresh, restDistinct⟩
      have ofRest := ih restDistinct
      by_cases same : name = other
      · subst same
        have absent : (present rest).get? name = none :=
          get?_eq_none.2 fun isPresent => fresh (mem_names_of_present isPresent)
        cases value with
        | none => simpa [get?, present] using absent
        | some value => simp [get?, present]
      · have differs : (name == other) = false := by simpa using same
        cases value with
        | none => simpa [get?, present, List.lookup_cons, differs] using ofRest
        | some value => simpa [get?, present, List.lookup_cons, differs] using ofRest

end Record

/-! ## Requests as arguments -/

namespace Request

/-- What a request says for each argument. -/
def arguments (request : Request) : Record (Option Json) :=
  [("verb", some (.text request.verb)), ("fields", request.fields.map .texts),
    ("groupBy", request.groupBy.map .texts), ("filter", request.filter.map .text),
    ("limit", request.limit.map .number), ("version", request.version.map .number)]

/-- A request as an object: what it leaves open is no member. -/
def members (request : Request) : Record Json := request.arguments.present

theorem names_arguments (request : Request) : request.arguments.names = Service.requestNames := rfl

theorem mem_requestNames {request : Request} {name : String} (isMember : name ∈ request.members.names) :
    name ∈ Service.requestNames := Record.mem_names_of_present isMember

theorem get?_members (request : Request) (name : String) :
    request.members.get? name = (request.arguments.get? name).join := by
  apply Record.get?_present
  rw [names_arguments]
  decide

end Request

namespace Service

/-! ## Single arguments -/

/-- The values that stand for names: one text, or a list of texts. -/
inductive IsNames : Json → Prop
  | text (value : String) : IsNames (.text value)
  | texts (values : List String) : IsNames (.texts values)

/-- A single text as a list of one text. -/
def listed : Json → Json
  | .text value => .texts [value]
  | value => value

section Readers

variable {name : String} {given : Option Json}

theorem texts_injective {values values' : List String} (same : Json.texts values = .texts values') :
    values = values' :=
  (List.map_inj_right fun _ _ => Json.text.inj).1 (Json.array.inj same)

theorem textsOf?_eq_some {items : List Json} {values : List String} :
    textsOf? items = some values ↔ items = values.map .text := by
  fun_induction textsOf? items generalizing values with
  | case1 => cases values <;> simp
  | case2 value rest ih =>
      rw [Option.map_eq_some_iff]
      constructor
      · rintro ⟨others, read, rfl⟩
        rw [List.map_cons, ih.1 read]
      · intro isTexts
        rcases List.map_eq_cons_iff.1 isTexts.symm with ⟨first, others, rfl, isText, areTexts⟩
        cases isText
        exact ⟨others, ih.2 areTexts.symm, rfl⟩
  | case3 item rest notText =>
      simp only [reduceCtorEq, false_iff]
      intro isTexts
      rcases List.map_eq_cons_iff.1 isTexts.symm with ⟨first, others, -, isText, -⟩
      exact notText first isText.symm

theorem readVerb_eq_ok {verb : String} :
    readVerb given = .ok verb ↔ given = some (.text verb) ∧ Text.blank verb.toList = false := by
  rw [readVerb.eq_def]
  split
  · next value =>
      cases isBlank : Text.blank value.toList with
      | true =>
          simp only [if_true, reduceCtorEq, false_iff]
          rintro ⟨⟨⟩, visible⟩
          simp [isBlank] at visible
      | false =>
          simp only [Bool.false_eq_true, if_false, Except.ok.injEq, Option.some.injEq, Json.text.injEq]
          constructor
          · rintro rfl
            exact ⟨rfl, isBlank⟩
          · rintro ⟨rfl, -⟩
            rfl
  · next notText =>
      simp only [reduceCtorEq, false_iff]
      rintro ⟨rfl, -⟩
      exact notText verb rfl

theorem readNames_eq_ok {names : Option (List String)} :
    readNames name given = .ok names ↔
      (∀ value ∈ given, IsNames value) ∧ given.map listed = names.map .texts := by
  constructor
  · intro read
    rw [readNames.eq_def] at read
    split at read
    · cases read
      exact ⟨nofun, rfl⟩
    · next value =>
        cases read
        refine ⟨?_, rfl⟩
        rintro _ ⟨⟩
        exact .text value
    · next items =>
        split at read
        · next values areTexts =>
            cases read
            rw [textsOf?_eq_some.1 areTexts]
            refine ⟨?_, rfl⟩
            rintro _ ⟨⟩
            exact .texts values
        · cases read
    · cases read
  · rintro ⟨areNames, same⟩
    cases given with
    | none =>
        cases names with
        | none => rfl
        | some values => cases same
    | some value =>
        cases names with
        | none => cases same
        | some values =>
            cases areNames value rfl with
            | text value =>
                rw [← texts_injective (Option.some.inj same)]
                rfl
            | texts values' =>
                rw [← texts_injective (Option.some.inj same)]
                rw [Json.texts, readNames, textsOf?_eq_some.2 rfl]

theorem readFilter_eq_ok {filter : Option String} :
    readFilter given = .ok filter ↔ given = filter.map .text := by
  constructor
  · intro read
    rw [readFilter.eq_def] at read
    split at read
    · cases read
      rfl
    · cases read
      rfl
    · cases read
  · rintro rfl
    cases filter <;> rfl

theorem readLimit_eq_ok {limit : Option Number} :
    readLimit given = .ok limit ↔
      given = limit.map .number ∧ ∀ value ∈ limit, ∃ n, 0 ≤ n ∧ value = .integer n := by
  constructor
  · intro read
    rw [readLimit.eq_def] at read
    split at read
    · cases read
      exact ⟨rfl, nofun⟩
    · next value =>
        split at read
        · next isLimit =>
            cases read
            refine ⟨rfl, ?_⟩
            rintro _ ⟨⟩
            rw [Bool.and_eq_true, Bool.not_eq_true'] at isLimit
            cases value with
            | integer n => exact ⟨n, Int.not_lt.1 (of_decide_eq_false isLimit.2), rfl⟩
            | fraction n k => cases isLimit.1
            | infinite negative => cases isLimit.1
        · cases read
    · cases read
  · rintro ⟨rfl, isLimit⟩
    cases limit with
    | none => rfl
    | some value =>
        rcases isLimit value rfl with ⟨n, notNegative, rfl⟩
        have isNatural : (!(Number.integer n).isNegative) = true := by
          simpa [Number.isNegative] using notNegative
        exact if_pos isNatural

theorem readVersion_eq_ok_iff {version : Option Number} :
    readVersion given = .ok version ↔
      given = version.map .number ∧ ∀ value ∈ version, ∃ n, value = .integer n := by
  constructor
  · intro read
    rw [readVersion.eq_def] at read
    split at read
    · cases read
      exact ⟨rfl, nofun⟩
    · next value =>
        split at read
        · next isInteger =>
            cases read
            refine ⟨rfl, ?_⟩
            rintro _ ⟨⟩
            cases value with
            | integer n => exact ⟨n, rfl⟩
            | fraction n k => cases isInteger
            | infinite negative => cases isInteger
        · cases read
    · cases read
  · rintro ⟨rfl, isInteger⟩
    cases version with
    | none => rfl
    | some value =>
        rcases isInteger value rfl with ⟨n, rfl⟩
        rfl

end Readers

/-! ## Whole requests -/

/-- Reads a request from an object, where `names` says how an argument for names is read. -/
def readWith (names : String → Option Json → Except ArgumentError (Option (List String)))
    (members : Record Json) : Except ArgumentError Request :=
  match members.names.find? fun name => !requestNames.contains name with
  | some name => .error (.unknown name)
  | none => do
      let verb ← readVerb (members.get? "verb")
      let fields ← names "fields" (members.get? "fields")
      let groupBy ← names "groupBy" (members.get? "groupBy")
      let filter ← readFilter (members.get? "filter")
      let limit ← readLimit (members.get? "limit")
      let version ← readVersion (members.get? "version")
      return { verb, fields, groupBy, filter, limit, version }

theorem readRequest_eq_readWith (members : Record Json) :
    readRequest (some (.object members)) = readWith readNames members := rfl

/-- The request that is read from an object, argument by argument. -/
structure Reads (members : Record Json) (request : Request) : Prop where
  known : ∀ name ∈ members.names, name ∈ requestNames
  verb : readVerb (members.get? "verb") = .ok request.verb
  fields : readNames "fields" (members.get? "fields") = .ok request.fields
  groupBy : readNames "groupBy" (members.get? "groupBy") = .ok request.groupBy
  filter : readFilter (members.get? "filter") = .ok request.filter
  limit : readLimit (members.get? "limit") = .ok request.limit
  version : readVersion (members.get? "version") = .ok request.version

theorem readRequest_object {members : Record Json} {request : Request} :
    readRequest (some (.object members)) = .ok request ↔ Reads members request := by
  rw [readRequest_eq_readWith, readWith]
  split
  · next name found =>
      simp only [reduceCtorEq, false_iff]
      intro reads
      have unknown := List.find?_some found
      simp [reads.known name (List.mem_of_find?_eq_some found)] at unknown
  · next allKnown =>
      have known : ∀ name ∈ members.names, name ∈ requestNames := by simpa using allKnown
      constructor
      · intro read
        rcases bind_eq_ok.1 read with ⟨verb, hasVerb, read⟩
        rcases bind_eq_ok.1 read with ⟨fields, hasFields, read⟩
        rcases bind_eq_ok.1 read with ⟨groupBy, hasGroupBy, read⟩
        rcases bind_eq_ok.1 read with ⟨filter, hasFilter, read⟩
        rcases bind_eq_ok.1 read with ⟨limit, hasLimit, read⟩
        rcases bind_eq_ok.1 read with ⟨version, hasVersion, made⟩
        cases made
        exact ⟨known, hasVerb, hasFields, hasGroupBy, hasFilter, hasLimit, hasVersion⟩
      · intro reads
        rw [reads.verb, reads.fields, reads.groupBy, reads.filter, reads.limit, reads.version]
        rfl

/-- The objects that describe a query. The verb has to be there, and every other argument may be
left out. -/
structure Describes (members : Record Json) : Prop where
  known : ∀ name ∈ members.names, name ∈ requestNames
  verb : ∃ verb, members.get? "verb" = some (.text verb) ∧ Text.blank verb.toList = false
  fields : ∀ value ∈ members.get? "fields", IsNames value
  groupBy : ∀ value ∈ members.get? "groupBy", IsNames value
  filter : ∀ value ∈ members.get? "filter", ∃ text, value = .text text
  limit : ∀ value ∈ members.get? "limit", ∃ n, 0 ≤ n ∧ value = .int n
  version : ∀ value ∈ members.get? "version", ∃ n, value = .int n

/-- What an argument is in the request that is read: a single text for names becomes a list. -/
def narrowed (name : String) (value : Json) : Json :=
  if name = "fields" ∨ name = "groupBy" then listed value else value

section Requests

variable {members : Record Json} {request : Request}

theorem readNames_texts (name : String) (names : Option (List String)) :
    readNames name (names.map .texts) = .ok names := by
  apply readNames_eq_ok.2
  constructor
  · intro value isValue
    rcases Option.map_eq_some_iff.1 isValue with ⟨values, -, rfl⟩
    exact .texts values
  · rw [Option.map_map]
    rfl

theorem exists_readNames {name : String} {given : Option Json}
    (areNames : ∀ value ∈ given, IsNames value) :
    ∃ names, readNames name given = .ok names := by
  cases given with
  | none => exact ⟨none, rfl⟩
  | some value =>
      cases areNames value rfl with
      | text value => exact ⟨some [value], rfl⟩
      | texts values => exact ⟨some values, readNames_texts name (some values)⟩

theorem Reads.describes (reads : Reads members request) : Describes members where
  known := reads.known
  verb := ⟨request.verb, readVerb_eq_ok.1 reads.verb⟩
  fields := (readNames_eq_ok.1 reads.fields).1
  groupBy := (readNames_eq_ok.1 reads.groupBy).1
  filter := by
    rw [readFilter_eq_ok.1 reads.filter]
    simp
  limit := by
    rcases readLimit_eq_ok.1 reads.limit with ⟨given, isLimit⟩
    rw [given]
    intro value isGiven
    rcases Option.map_eq_some_iff.1 isGiven with ⟨number, isNumber, rfl⟩
    rcases isLimit number isNumber with ⟨n, notNegative, rfl⟩
    exact ⟨n, notNegative, rfl⟩
  version := by
    rcases readVersion_eq_ok_iff.1 reads.version with ⟨given, isInteger⟩
    rw [given]
    intro value isGiven
    rcases Option.map_eq_some_iff.1 isGiven with ⟨number, isNumber, rfl⟩
    rcases isInteger number isNumber with ⟨n, rfl⟩
    exact ⟨n, rfl⟩

theorem Describes.exists_reads (describes : Describes members) : ∃ request, Reads members request := by
  rcases describes.verb with ⟨verb, hasVerb⟩
  rcases exists_readNames describes.fields with ⟨fields, hasFields⟩
  rcases exists_readNames describes.groupBy with ⟨groupBy, hasGroupBy⟩
  have ⟨filter, hasFilter⟩ : ∃ filter, readFilter (members.get? "filter") = .ok filter := by
    cases given : members.get? "filter" with
    | none => exact ⟨none, rfl⟩
    | some value =>
        rcases describes.filter value given with ⟨text, rfl⟩
        exact ⟨some text, rfl⟩
  have ⟨limit, hasLimit⟩ : ∃ limit, readLimit (members.get? "limit") = .ok limit := by
    cases given : members.get? "limit" with
    | none => exact ⟨none, rfl⟩
    | some value =>
        rcases describes.limit value given with ⟨n, notNegative, rfl⟩
        refine ⟨some (.integer n), readLimit_eq_ok.2 ⟨rfl, ?_⟩⟩
        rintro _ ⟨⟩
        exact ⟨n, notNegative, rfl⟩
  have ⟨version, hasVersion⟩ : ∃ version, readVersion (members.get? "version") = .ok version := by
    cases given : members.get? "version" with
    | none => exact ⟨none, rfl⟩
    | some value =>
        rcases describes.version value given with ⟨n, rfl⟩
        exact ⟨some (.integer n), rfl⟩
  exact ⟨{ verb, fields, groupBy, filter, limit, version }, describes.known, readVerb_eq_ok.2 hasVerb,
    hasFields, hasGroupBy, hasFilter, hasLimit, hasVersion⟩

/-- The members of a request are those it was read from, narrowed. -/
theorem Reads.get?_members (reads : Reads members request) (name : String) :
    request.members.get? name = (members.get? name).map (narrowed name) := by
  rw [request.get?_members]
  by_cases isKnown : name ∈ requestNames
  · simp only [requestNames, List.mem_cons, List.not_mem_nil, or_false] at isKnown
    rcases isKnown with rfl | rfl | rfl | rfl | rfl | rfl
    · rw [(readVerb_eq_ok.1 reads.verb).1]
      rfl
    · exact (readNames_eq_ok.1 reads.fields).2.symm
    · exact (readNames_eq_ok.1 reads.groupBy).2.symm
    · rw [readFilter_eq_ok.1 reads.filter]
      exact Option.map_id'.symm
    · rw [(readLimit_eq_ok.1 reads.limit).1]
      exact Option.map_id'.symm
    · rw [(readVersion_eq_ok_iff.1 reads.version).1]
      exact Option.map_id'.symm
  · have notGiven : members.get? name = none :=
      Record.get?_eq_none.2 fun isMember => isKnown (reads.known name isMember)
    have notArgument : request.arguments.get? name = none := Record.get?_eq_none.2 isKnown
    rw [notGiven, notArgument]
    rfl

/-- A request that was read is read again from its own members. -/
theorem Reads.again (reads : Reads members request) : Reads request.members request where
  known := fun _ => Request.mem_requestNames
  verb := by
    rw [request.get?_members]
    exact readVerb_eq_ok.2 ⟨rfl, (readVerb_eq_ok.1 reads.verb).2⟩
  fields := by
    rw [request.get?_members]
    exact readNames_texts "fields" request.fields
  groupBy := by
    rw [request.get?_members]
    exact readNames_texts "groupBy" request.groupBy
  filter := by
    rw [request.get?_members]
    exact readFilter_eq_ok.2 rfl
  limit := by
    rw [request.get?_members]
    exact readLimit_eq_ok.2 ⟨rfl, (readLimit_eq_ok.1 reads.limit).2⟩
  version := by
    rw [request.get?_members]
    exact readVersion_eq_ok_iff.2 ⟨rfl, (readVersion_eq_ok_iff.1 reads.version).2⟩

end Requests

theorem exists_object_of_readRequest {arguments : Option Json} {request : Request}
    (read : readRequest arguments = .ok request) : ∃ members, arguments = some (.object members) := by
  match arguments with
  | some (.object members) => exact ⟨members, rfl⟩
  | none => cases read
  | some .null | some (.bool _) | some (.number _) | some (.text _) | some (.array _) => cases read

/-- A request can be read from arguments exactly if they are an object that describes a query. It
then has the members of the object, with a list of one text in place of a single text for names, and
reading these members gives the same request. -/
theorem readRequest_narrows (arguments : Option Json) :
    ((∃ request, readRequest arguments = .ok request) ↔
      ∃ members, arguments = some (.object members) ∧ Describes members) ∧
    ∀ (members : Record Json) (request : Request), arguments = some (.object members) →
      readRequest arguments = .ok request →
      (∀ name, request.members.get? name = (members.get? name).map (narrowed name)) ∧
      readRequest (some (.object request.members)) = .ok request := by
  refine ⟨⟨?_, ?_⟩, ?_⟩
  · rintro ⟨request, read⟩
    rcases exists_object_of_readRequest read with ⟨members, rfl⟩
    exact ⟨members, rfl, (readRequest_object.1 read).describes⟩
  · rintro ⟨members, rfl, describes⟩
    rcases describes.exists_reads with ⟨request, reads⟩
    exact ⟨request, readRequest_object.2 reads⟩
  · rintro members request rfl read
    have reads := readRequest_object.1 read
    exact ⟨reads.get?_members, readRequest_object.2 reads.again⟩

/-- A single text with two names in it, which stays one text in the list. -/
theorem readRequest_narrows_single_text :
    let members : Record Json := [("groupBy", .text "az_id, dstport"), ("verb", .text "sum"),
      ("fields", .texts ["bytes"]), ("limit", .int 0), ("version", .int 5)]
    let request : Request :=
      { verb := "sum", fields := some ["bytes"], groupBy := some ["az_id, dstport"], limit := some 0,
        version := some 5 }
    readRequest (some (.object members)) = .ok request ∧ Describes members ∧
      request.members.get? "groupBy" = some (.texts ["az_id, dstport"]) ∧
      request.members.get? "filter" = none ∧
      readRequest (some (.object request.members)) = .ok request := by
  intro members request
  have read : readRequest (some (.object members)) = .ok request := rfl
  rcases readRequest_narrows (some (.object members)) with ⟨accepts, narrows⟩
  rcases accepts.1 ⟨request, read⟩ with ⟨_, ⟨⟩, describes⟩
  rcases narrows members request rfl read with ⟨get?_members, again⟩
  exact ⟨read, describes, get?_members "groupBy", get?_members "filter", again⟩

end Service

end FlowLog
