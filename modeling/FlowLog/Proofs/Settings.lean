import FlowLog.Proofs.Decision

/-!
# What settings leave behind

A query keeps what its settings gave it, and later settings change parts of it without a look at the
rest. Two things can be said of every query that is made.

It can be written: `Query.Sound` survives each step, whatever the order of settings. The numeric
check is left out for the star, so the first aggregation may apply any function to it, and only the
first one may.

Its fields were checked when they were set, for the version in force then. A later version has all
fields of version 2, but version 2 may be set again after a field that it does not have. This is the
only way in which a query comes to refer to a field that its records do not have.
-/

namespace FlowLog

open Fallible Schema.FlowRecords

namespace Query

variable {schema : Schema} {query next : Query} {setting : Setting}

/-! ## Queries that can be written -/

/-- What holds of a query after every setting. -/
structure Sound (schema : Schema) (query : Query) : Prop where
  version : schema.checkVersion query.version = .ok ()
  limit : ∃ n ∈ query.limit.toInt?, 0 ≤ n
  filters : ∀ filter ∈ query.filters, filter.Populated
  first : ∀ first ∈ query.aggregations.head?,
    first.field = "*" ∨ Applies schema first.function first.field
  others : ∀ aggregation ∈ query.aggregations.tail,
    Applies schema aggregation.function aggregation.field

theorem Sound.rest {first : Aggregation} {rest : List Aggregation} (sound : query.Sound schema)
    (aggregates : query.aggregations = first :: rest) :
    ∀ aggregation ∈ rest, Applies schema aggregation.function aggregation.field := by
  have others := sound.others
  rwa [aggregates] at others

theorem Step.sound (step : Step schema query setting next) (sound : query.Sound schema) :
    next.Sound schema := by
  cases step with
  | list => exact { sound with first := nofun, others := nofun }
  | aggregate _ => exact { sound with first := by simp, others := nofun }
  | function aggregates applies =>
      refine { sound with first := ?_, others := sound.rest aggregates }
      rintro _ ⟨⟩
      exact Decidable.or_iff_not_imp_left.2 applies
  | fields _ _ => exact { sound with }
  | noField _ => exact { sound with }
  | field aggregates _ applies =>
      refine { sound with first := ?_, others := sound.rest aggregates }
      rintro _ ⟨⟩
      exact Or.inr applies
  | aggregations _ checked =>
      refine { sound with first := ?_, others := ?_ }
      · intro first isFirst
        exact Or.inr (checked first (List.mem_of_mem_head? isFirst)).2
      · intro aggregation isOther
        exact (checked aggregation (List.mem_of_mem_tail isOther)).2
  | groupBy _ => exact { sound with }
  | limit natural => exact { sound with limit := natural }
  | noFilter => exact sound
  | filter checked =>
      refine { sound with filters := ?_ }
      intro filter isFilter
      rcases List.mem_append.1 isFilter with isEarlier | isLast
      · exact sound.filters filter isEarlier
      · rw [List.mem_singleton.1 isLast]
        exact Filter.populated_of_check checked
  | version checked => exact { sound with version := checked }

theorem sound_start (defaultOk : schema.checkVersion schema.defaultVersion = .ok ()) :
    (start schema).Sound schema where
  version := defaultOk
  limit := ⟨100, rfl, by decide⟩
  filters := nofun
  first := by
    rintro _ ⟨⟩
    exact Or.inl rfl
  others := nofun

theorem sound_of_build (defaultOk : schema.checkVersion schema.defaultVersion = .ok ())
    {settings : List Setting} (built : build schema settings = .ok query) : query.Sound schema :=
  build_induction (motive := fun _ query => query.Sound schema) (sound_start defaultOk)
    (fun sound accepted => (step_of_apply accepted).sound sound) built

theorem known_of_create {settings : List Setting}
    (created : create (some .flowRecords) settings = .ok query) : Known query.version := by
  have sound : query.Sound .flowRecords := sound_of_build rfl created
  exact checkVersion_eq_ok.1 sound.version

/-- Every query that is made can be written. Its text begins with the statement that parses records
of its version. -/
theorem create_sound {settings : List Setting}
    (created : create (some .flowRecords) settings = .ok query) :
    query.Sound .flowRecords ∧ query.version ∈ versions ∧
      ∃ pattern, Schema.flowRecords.parsePattern query.version = .ok pattern ∧
        query.render .flowRecords = .ok (pattern ++ query.tail) ∧
        query.renderOrEmpty .flowRecords = pattern ++ query.tail := by
  have known := known_of_create created
  have rendered := render_flowRecords known
  rw [text_eq] at rendered
  refine ⟨sound_of_build rfl created, known_iff_mem_versions.1 known, _, parsePattern_eq known,
    rendered, ?_⟩
  rw [renderOrEmpty, rendered]

/-- Fields are set while the query aggregates, listed, and left for an average over all records. -/
theorem create_sound_average :
    let filter : Expr := .not (.node .or [.leaf (.compare .eq "vpc_id" (.text "v") none)])
    ∃ query, create (some .flowRecords) [.fields ["action", "*"], .verb .raw, .version 5, .limit 0,
        .filter (some filter), .verb (.aggregate .avg)] = .ok query ∧
      query.aggregations = [⟨"*", .avg⟩] ∧ query.Sound .flowRecords ∧
      ∃ pattern, Schema.flowRecords.parsePattern query.version = .ok pattern ∧
        query.render .flowRecords = .ok (pattern ++ query.tail) := by
  intro filter
  obtain ⟨query, created, average⟩ : ∃ query, create (some .flowRecords) [.fields ["action", "*"],
      .verb .raw, .version 5, .limit 0, .filter (some filter), .verb (.aggregate .avg)] = .ok query ∧
      query.aggregations = [⟨"*", .avg⟩] := ⟨_, rfl, rfl⟩
  rcases create_sound created with ⟨sound, -, pattern, patterned, rendered, -⟩
  exact ⟨query, created, average, sound, pattern, patterned, rendered⟩

end Query

/-! ## Fields and versions -/

/-- The names of fields that a setting gives. -/
def Setting.names : Setting → List String
  | .fields names => names
  | .aggregations given => given.map (·.field)
  | .groupBy names => names
  | .filter (some expr) => expr.fields
  | _ => []

namespace Query

variable {schema : Schema} {query next : Query} {setting : Setting}

/-- The fields that a query lists. -/
def displayed (query : Query) : List String :=
  if query.fields.isEmpty || query.fields.head? == some "*" then [] else query.fields

/-- The fields that the text of a query refers to. -/
def references (query : Query) : List String :=
  (match query.aggregations with
    | [] => query.displayed
    | aggregations => aggregations.map (·.field) ++ query.groupBy) ++
  query.filters.flatMap Expr.fields

/-- Every field that a query holds, now used or not, has a property. -/
structure Names (property : String → Prop) (query : Query) : Prop where
  aggregations : ∀ aggregation ∈ query.aggregations, property aggregation.field
  fields : ∀ field ∈ query.fields, property field
  pending : ∀ field ∈ query.pending, property field
  groupBy : ∀ field ∈ query.groupBy, property field
  filters : ∀ filter ∈ query.filters, ∀ field ∈ filter.fields, property field

section Names

variable {property : String → Prop}

theorem Names.mono {other : String → Prop} (names : query.Names property)
    (wider : ∀ field, property field → other field) : query.Names other where
  aggregations aggregation isHeld := wider _ (names.aggregations aggregation isHeld)
  fields field isHeld := wider _ (names.fields field isHeld)
  pending field isHeld := wider _ (names.pending field isHeld)
  groupBy field isHeld := wider _ (names.groupBy field isHeld)
  filters filter isHeld field isName := wider _ (names.filters filter isHeld field isName)

theorem Names.references (names : query.Names property) :
    ∀ field ∈ query.references, property field := by
  intro field refers
  rw [Query.references] at refers
  rcases List.mem_append.1 refers with isColumn | isFiltered
  · split at isColumn
    · rw [displayed] at isColumn
      split at isColumn
      · cases isColumn
      · exact names.fields field isColumn
    · rcases List.mem_append.1 isColumn with isAggregated | isGroup
      · rcases List.mem_map.1 isAggregated with ⟨aggregation, isHeld, rfl⟩
        exact names.aggregations aggregation isHeld
      · exact names.groupBy field isGroup
  · rcases List.mem_flatMap.1 isFiltered with ⟨filter, isHeld, isName⟩
    exact names.filters filter isHeld field isName

theorem Names.listing (names : query.Names property) (star : property "*") :
    ∀ field ∈ query.listing, property field := by
  rw [Query.listing]
  split
  · exact names.pending
  · split
    · simpa using star
    · exact names.fields

/-- A setting adds nothing but the star and the names that it was checked for. -/
theorem Step.names (step : Step schema query setting next) (names : query.Names property)
    (star : property "*")
    (named : ∀ field ∈ setting.names, schema.checkField field query.version = .ok () → property field) :
    next.Names property := by
  cases step with
  | list => exact { names with aggregations := nofun, fields := names.listing star, pending := nofun }
  | aggregate _ => exact { names with aggregations := by simpa using star }
  | function aggregates _ =>
      have held := names.aggregations
      rw [aggregates, List.forall_mem_cons] at held
      exact { names with aggregations := List.forall_mem_cons.2 held }
  | fields _ checked =>
      exact { names with fields := fun field isGiven => named field isGiven (checked field isGiven) }
  | noField _ => exact { names with pending := nofun }
  | field aggregates checked _ =>
      have given : ∀ name ∈ _ :: _, property name :=
        fun name isGiven => named name isGiven (checked name isGiven)
      have held := names.aggregations
      rw [aggregates, List.forall_mem_cons] at held
      exact { names with
        pending := given
        aggregations := List.forall_mem_cons.2 ⟨(List.forall_mem_cons.1 given).1, held.2⟩ }
  | aggregations _ checked =>
      refine { names with aggregations := ?_ }
      intro aggregation isGiven
      exact named _ (List.mem_map_of_mem isGiven) (checked aggregation isGiven).1
  | groupBy checked =>
      exact { names with groupBy := fun field isGiven => named field isGiven (checked field isGiven) }
  | limit _ => exact { names with }
  | noFilter => exact names
  | filter checked =>
      refine { names with filters := ?_ }
      intro filter isFilter field isName
      rcases List.mem_append.1 isFilter with isEarlier | isLast
      · exact names.filters filter isEarlier field isName
      · rw [List.mem_singleton.1 isLast] at isName
        have allChecked := (Filter.check_eq_ok (Filter.populated_of_check checked)).1 checked
        exact named field isName (allChecked field isName)
  | version _ => exact { names with }

end Names

/-- A setting names the field, `version` is in force when the setting is applied, and `later`
follows. -/
def NamedUnder (schema : Schema) (settings : List Setting) (field : String) (version : Number)
    (later : List Setting) : Prop :=
  ∃ before setting earlier, settings = before ++ setting :: later ∧ field ∈ setting.names ∧
    create (some schema) before = .ok earlier ∧ earlier.version = version

/-- A field is the star, or the version in force when it was named had it. -/
def Checked (schema : Schema) (settings : List Setting) (field : String) : Prop :=
  field = "*" ∨ ∃ version later, NamedUnder schema settings field version later ∧
    schema.checkField field version = .ok ()

theorem Checked.append {settings : List Setting} {field : String}
    (checked : Checked schema settings field) (setting : Setting) :
    Checked schema (settings ++ [setting]) field := by
  rcases checked with isStar | ⟨version, later, ⟨before, naming, earlier, rfl, named⟩, checked⟩
  · exact Or.inl isStar
  · refine Or.inr ⟨version, later ++ [setting], ⟨before, naming, earlier, ?_, named⟩, checked⟩
    rw [List.append_assoc, List.cons_append]

theorem names_of_build {settings : List Setting} (built : build schema settings = .ok query) :
    query.Names (Checked schema settings) := by
  have reached : build schema settings = .ok query ∧ query.Names (Checked schema settings) := by
    refine build_induction (motive := fun done query =>
      build schema done = .ok query ∧ query.Names (Checked schema done)) ?_ ?_ built
    · refine ⟨rfl, ?_, nofun, nofun, nofun, nofun⟩
      intro aggregation isHeld
      exact Or.inl (congrArg Aggregation.field (List.mem_singleton.1 isHeld))
    · rintro done query setting next ⟨doneBuilt, names⟩ accepted
      constructor
      · rw [build, List.foldlM_append, bind_eq_ok]
        exact ⟨query, doneBuilt, (foldlM_apply_singleton schema setting).trans accepted⟩
      · apply (step_of_apply accepted).names (names.mono fun field checked => checked.append setting)
        · exact Or.inl rfl
        · intro field isNamed checked
          exact Or.inr ⟨query.version, [], ⟨done, setting, query, rfl, isNamed, doneBuilt, rfl⟩, checked⟩
  exact reached.2

theorem Step.version_eq (step : Step schema query setting next) :
    next.version = query.version ∨ setting = .version next.version := by
  cases step with
  | version _ => exact Or.inr rfl
  | _ => exact Or.inl rfl

theorem version_of_foldlM {settings : List Setting} {final : Query}
    (succeeds : settings.foldlM (apply schema) query = .ok final) :
    final.version = query.version ∨ .version final.version ∈ settings := by
  refine foldlM_induction (motive := fun done state =>
    state.version = query.version ∨ .version state.version ∈ done) (Or.inl rfl) ?_ succeeds
  intro done state setting next reached accepted
  rcases (step_of_apply accepted).version_eq with kept | isVersion
  · rw [kept]
    exact reached.imp_right (List.mem_append_left _)
  · rw [isVersion]
    exact Or.inr (List.mem_append_right _ List.mem_cons_self)

theorem NamedUnder.version_eq {settings later : List Setting} {field : String} {version : Number}
    (named : NamedUnder schema settings field version later)
    (built : build schema settings = .ok query) :
    query.version = version ∨ .version query.version ∈ later := by
  rcases named with ⟨before, setting, earlier, rfl, isNamed, beforeBuilt, rfl⟩
  rw [build, List.foldlM_append, bind_eq_ok] at built
  rcases built with ⟨middle, middleBuilt, succeeds⟩
  cases middleBuilt.symm.trans beforeBuilt
  rcases version_of_foldlM succeeds with kept | isSet
  · exact Or.inl kept
  · rcases List.mem_cons.1 isSet with rfl | isLater
    · cases isNamed
    · exact Or.inr isLater

/-- A field of the later versions alone was named under one of them, and version 2 was set
afterwards. -/
def Outlived (settings : List Setting) (field : String) : Prop :=
  field ∈ extraFields ∧ ∃ version later, NamedUnder .flowRecords settings field version later ∧
    (version = 3 ∨ version = 5) ∧ .version 2 ∈ later

theorem NamedUnder.has_or_outlived {settings later : List Setting} {field : String} {version : Number}
    (named : NamedUnder .flowRecords settings field version later)
    (checked : Schema.flowRecords.checkField field version = .ok ())
    (created : create (some .flowRecords) settings = .ok query) :
    Has query.version field ∨ query.version = 2 ∧ Outlived settings field := by
  have namedKnown : Known version := by
    rcases named with ⟨before, _, earlier, -, -, beforeCreated, rfl⟩
    exact known_of_create beforeCreated
  have has : Has version field := (checkField_eq_ok namedKnown field).1 checked
  rcases has.or_lost namedKnown (known_of_create created) with stillHas | ⟨isExtra, wasLater, isTwo⟩
  · exact Or.inl stillHas
  · refine Or.inr ⟨isTwo, isExtra, version, later, named, wasLater, ?_⟩
    rcases named.version_eq created with unchanged | isSet
    · rw [isTwo] at unchanged
      subst unchanged
      exact absurd wasLater (by decide)
    · rwa [isTwo] at isSet

/-- A query refers to the star and to fields that were checked for the version in force when they
were named. Its records have all of them, except for fields that outlived their version. -/
theorem references_of_create {settings : List Setting} {field : String}
    (created : create (some .flowRecords) settings = .ok query) (refers : field ∈ query.references) :
    Checked .flowRecords settings field ∧
      (Schema.flowRecords.checkField field query.version = .ok () ∨
        query.version = 2 ∧ Outlived settings field) := by
  have checked := (names_of_build created).references field refers
  refine ⟨checked, ?_⟩
  rw [checkField_eq_ok (known_of_create created)]
  rcases checked with isStar | ⟨version, later, named, namedChecked⟩
  · exact Or.inl (Or.inl isStar)
  · exact named.has_or_outlived namedChecked created

/-- Version 2 is set behind a group of version 5 and in front of a filter. -/
theorem references_of_create_mixed :
    let settings : List Setting := [.version 5, .groupBy ["srcaddr", "region"], .version 2,
      .filter (some (.leaf (.compare .gt "end - start" (.number 60) (some "duration"))))]
    ∃ query, create (some .flowRecords) settings = .ok query ∧
      query.references = ["*", "srcaddr", "region", "duration"] ∧
      ∀ field ∈ query.references, Checked .flowRecords settings field ∧
        (Schema.flowRecords.checkField field query.version = .ok () ∨
          query.version = 2 ∧ Outlived settings field) := by
  intro settings
  obtain ⟨query, created, refers⟩ : ∃ query, create (some .flowRecords) settings = .ok query ∧
      query.references = ["*", "srcaddr", "region", "duration"] := ⟨_, rfl, rfl⟩
  exact ⟨query, created, refers, fun field isReference => references_of_create created isReference⟩

/-- A query about version 2 may be grouped by a field of version 3. -/
theorem groupBy_outlives_version :
    ∃ query, create (some .flowRecords) [.version 3, .groupBy ["vpc_id"], .version 2] = .ok query ∧
      query.columnStages .flowRecords = ["stats count(*) as flows by vpc_id", "sort flows desc"] ∧
      "vpc_id" ∈ query.references ∧
      Schema.flowRecords.checkField "vpc_id" query.version = .error (.unknownField "vpc_id" 2) :=
  ⟨_, rfl, by decide, by decide, rfl⟩

end Query

end FlowLog
