import FlowLog.Proofs.Arguments
import FlowLog.Proofs.Text
import FlowLog.Service.Tool

/-!
# Lists of names

Names are given as values that may hold several of them with commas between. A comma in a value and
the end of a value mean the same (`fieldList_comma`), so the names do not depend on how they are
spread over values. They are a normal form: no name is empty, has blanks around it or holds a comma,
and such names are left as they are.

A request with its names in normal form is compiled like the request itself. Arguments from which
the same normal form is read therefore have the same query, or the same failure.
-/

namespace FlowLog

/-! ## Names in values -/

theorem Text.notMem_of_mem_splitOn {separator : Char} {text piece : List Char}
    (isPiece : piece ∈ text.splitOn separator) : separator ∉ piece := by
  induction text generalizing piece with
  | nil =>
      have isNil : piece = [] := by simpa using isPiece
      simp [isNil]
  | cons c rest ih =>
      rw [List.splitOn_cons_eq_if_modifyHead] at isPiece
      split at isPiece
      · rcases List.mem_cons.1 isPiece with rfl | inRest
        · simp
        · exact ih inRest
      · next differs =>
          rcases List.exists_cons_of_ne_nil (List.splitOn_ne_nil separator rest) with
            ⟨first, others, shape⟩
          rw [shape] at isPiece ih
          rcases List.mem_cons.1 isPiece with rfl | isOther
          · have notHere : separator ≠ c := fun same => differs (beq_iff_eq.2 same.symm)
            simpa [notHere] using ih List.mem_cons_self
          · exact ih (List.mem_cons_of_mem first isOther)

namespace Request

/-- Texts that stand for exactly one name. -/
structure IsName (name : String) : Prop where
  nonempty : name ≠ ""
  trimmed : Text.trimmed name = name
  commaless : ',' ∉ name.toList

theorem fieldList_append (values others : List String) :
    fieldList (values ++ others) = fieldList values ++ fieldList others := List.flatMap_append

theorem fieldList_singleton {name : String} (nonempty : name ≠ "")
    (trimmed : Text.trim name.toList = name.toList) (commaless : ',' ∉ name.toList) :
    fieldList [name] = [name] := by
  simp [fieldList, List.splitOn_eq_singleton commaless, trimmed, nonempty]

theorem isName_of_mem_fieldList {values : List String} {name : String}
    (isMember : name ∈ fieldList values) :
    IsName name := by
  rcases List.mem_flatMap.1 isMember with ⟨value, -, inValue⟩
  rcases List.mem_filterMap.1 inValue with ⟨_, isTrimmed, isKept⟩
  rcases List.mem_map.1 isTrimmed with ⟨piece, isPiece, rfl⟩
  split at isKept
  · cases isKept
  · next nonempty =>
      cases isKept
      refine ⟨?_, ?_, ?_⟩
      · simpa using nonempty
      · simp [Text.trimmed]
      · rw [String.toList_ofList]
        exact fun isMember => Text.notMem_of_mem_splitOn isPiece
          ((Text.trim_isInfix piece).subset isMember)

theorem fieldList_of_isName {names : List String} (each : ∀ name ∈ names, IsName name) :
    fieldList names = names := by
  induction names with
  | nil => rfl
  | cons name rest ih =>
      rw [List.forall_mem_cons] at each
      have trimmed : Text.trim name.toList = name.toList := by
        simpa [Text.trimmed] using congrArg String.toList each.1.trimmed
      rw [← List.singleton_append, fieldList_append, ih each.2,
        fieldList_singleton each.1.nonempty trimmed each.1.commaless]

theorem fieldList_fieldList (values : List String) : fieldList (fieldList values) = fieldList values :=
  fieldList_of_isName fun _ => isName_of_mem_fieldList

/-- A comma inside a value separates names like the end of a value. -/
theorem fieldList_comma (value other : String) :
    fieldList [value ++ "," ++ other] = fieldList [value, other] := by
  have whole : (value ++ "," ++ other).toList = value.toList ++ ',' :: other.toList := by simp
  simp [fieldList, whole, List.splitOn_append_cons_self]

/-- Names may as well be given in a single value. -/
theorem fieldList_intercalate (values : List String) :
    fieldList [",".intercalate values] = fieldList values := by
  induction values with
  | nil => rfl
  | cons value rest ih =>
      cases rest with
      | nil => rw [String.intercalate_singleton]
      | cons other rest =>
          rw [String.intercalate_cons_cons, fieldList_comma, ← List.singleton_append,
            fieldList_append, ih, ← fieldList_append, List.singleton_append]

/-- The pieces of a value between its commas. -/
def pieces (value : String) : List String := (value.toList.splitOn ',').map String.ofList

theorem fieldList_pieces (value : String) : fieldList (pieces value) = fieldList [value] := by
  have joined : ",".intercalate (pieces value) = value := by
    apply String.toList_inj.1
    have back : (pieces value).map String.toList = value.toList.splitOn ',' := by
      simp [pieces, Function.comp_def]
    rw [String.toList_intercalate, back]
    exact List.intercalate_splitOn ','
  rw [← fieldList_intercalate, joined]

/-! ## Names in normal form -/

/-- The request with its names in normal form. -/
def normalized (request : Request) : Request :=
  { request with fields := request.fields.map fieldList, groupBy := request.groupBy.map fieldList }

theorem fieldList_getD_map (values : Option (List String)) :
    fieldList ((values.map fieldList).getD []) = fieldList (values.getD []) := by
  cases values with
  | none => rfl
  | some values => exact fieldList_fieldList values

theorem compile_normalized (schema : Schema) (config : Config) (request : Request) :
    request.normalized.compile schema config = request.compile schema config := by
  have sameSettings : ∀ vocabulary, request.normalized.settings vocabulary config =
      request.settings vocabulary config := by
    intro vocabulary
    simp only [settings, normalized, fieldList_getD_map, readVerb]
  simp only [compile, query, sameSettings]

end Request

namespace Service

/-- The names in an argument in normal form. -/
def readNormalized (name : String) (given : Option Json) : Except ArgumentError (Option (List String)) :=
  Option.map Request.fieldList <$> readNames name given

theorem map_normalized_readRequest (members : Record Json) :
    Request.normalized <$> readRequest (some (.object members)) = readWith readNormalized members := by
  rw [readRequest_eq_readWith, readWith, readWith]
  cases members.names.find? fun name => !requestNames.contains name with
  | some name => rfl
  | none =>
      rw [map_bind]
      refine bind_congr fun verb => ?_
      rw [map_bind, readNormalized, bind_map_left]
      refine bind_congr fun fields => ?_
      rw [map_bind, readNormalized, bind_map_left]
      refine bind_congr fun groupBy => ?_
      rw [map_bind]
      refine bind_congr fun filter => ?_
      rw [map_bind]
      refine bind_congr fun limit => ?_
      rw [map_bind]
      rfl

theorem call_compileQuery_object (service : Service) (members : Record Json) :
    service.call "compile_query" (some (.object members)) =
      (readWith readNormalized members).mapError .arguments >>= service.compileQuery := by
  have calls : service.call "compile_query" (some (.object members)) =
      (readRequest (some (.object members))).mapError .arguments >>= service.compileQuery := rfl
  rw [calls, ← map_normalized_readRequest]
  refine (Fallible.mapError_map_bind _ _ ?_).symm
  intro request
  rw [compileQuery, compileQuery, request.compile_normalized]

theorem readWith_congr {names : String → Option Json → Except ArgumentError (Option (List String))}
    {first second : Record Json} (sameMembers : first.names = second.names)
    (sameNames : ∀ name, names name (first.get? name) = names name (second.get? name))
    (sameOthers : ∀ name, name ≠ "fields" → name ≠ "groupBy" → first.get? name = second.get? name) :
    readWith names first = readWith names second := by
  rw [readWith, readWith, sameMembers, sameNames "fields", sameNames "groupBy",
    sameOthers "verb" (by decide) (by decide), sameOthers "filter" (by decide) (by decide),
    sameOthers "limit" (by decide) (by decide), sameOthers "version" (by decide) (by decide)]

section Spread

variable {before after : Record Json} {key : String}

/-- Of an argument for names only the normal form has an influence on what is compiled. -/
theorem call_compileQuery_congr (service : Service) (isNames : key = "fields" ∨ key = "groupBy")
    {value other : Json}
    (same : ∀ name, readNormalized name (some value) = readNormalized name (some other)) :
    service.call "compile_query" (some (.object (before ++ (key, value) :: after))) =
      service.call "compile_query" (some (.object (before ++ (key, other) :: after))) := by
  rw [call_compileQuery_object, call_compileQuery_object]
  congr 2
  apply readWith_congr
  · simp [Record.names]
  · intro name
    rw [Record.get?_middle, Record.get?_middle]
    cases before.get? name with
    | some given => rfl
    | none =>
        by_cases isKey : name = key
        · simpa [isKey] using same key
        · simp [isKey]
  · intro name notFields notGroupBy
    have notKey : name ≠ key := by
      rcases isNames with rfl | rfl
      · exact notFields
      · exact notGroupBy
    rw [Record.get?_middle, Record.get?_middle, if_neg notKey, if_neg notKey]

theorem readNormalized_texts (name : String) (values : List String) :
    readNormalized name (some (.texts values)) = .ok (some (Request.fieldList values)) := by
  have read : readNames name (some (.texts values)) = .ok (some values) :=
    readNames_texts name (some values)
  rw [readNormalized, read]
  rfl

end Spread

open Request

/-- The names in some values are the names in one part of the values and in the other, and those in
all values joined by commas. They are a normal form. Whether an argument for names is one text, the
list of that text or the list of its pieces, a query is compiled from it to the same text or with
the same failure. -/
theorem names_of_spread_values (values others : List String) :
    fieldList (values ++ others) = fieldList values ++ fieldList others ∧
    fieldList [",".intercalate values] = fieldList values ∧
    fieldList (fieldList values) = fieldList values ∧
    (∀ name ∈ fieldList values, name ≠ "" ∧ Text.trimmed name = name ∧ ',' ∉ name.toList) ∧
    ∀ (service : Service) (before after : Record Json) (text : String), ∀ key ∈ ["fields", "groupBy"],
      let compiled := fun given : Json =>
        service.call "compile_query" (some (.object (before ++ (key, given) :: after)))
      compiled (.text text) = compiled (.texts [text]) ∧
        compiled (.text text) = compiled (.texts (pieces text)) := by
  refine ⟨fieldList_append values others, fieldList_intercalate values, fieldList_fieldList values,
    ?_, ?_⟩
  · intro name isMember
    have isName := isName_of_mem_fieldList isMember
    exact ⟨isName.nonempty, isName.trimmed, isName.commaless⟩
  · intro service before after text key isKey
    have isNames : key = "fields" ∨ key = "groupBy" := by simpa using isKey
    have single : ∀ name, readNormalized name (some (.text text)) = .ok (some (fieldList [text])) :=
      fun name => rfl
    constructor
    · apply call_compileQuery_congr service isNames
      intro name
      rw [single, readNormalized_texts]
    · apply call_compileQuery_congr service isNames
      intro name
      rw [single, readNormalized_texts, fieldList_pieces]

/-- Blanks and empty pieces in the values, and a grouping in front of a limit. -/
theorem names_of_spread_values_blank_pieces :
    let service : Service := ⟨.flowRecords, ⟨20, 2⟩⟩
    let compiled := fun given : Json => service.call "compile_query"
      (some (.object [("verb", .text "count"), ("groupBy", given), ("limit", .int 5)]))
    "dstaddr" ∈ fieldList [" srcaddr, ,dstaddr", "bytes,"] ∧ Text.trimmed "dstaddr" = "dstaddr" ∧
      compiled (.text "az_id, dstport") = compiled (.texts ["az_id", " dstport"]) := by
  intro service compiled
  have laws := names_of_spread_values [" srcaddr, ,dstaddr", "bytes,"] []
  have isMember : "dstaddr" ∈ fieldList [" srcaddr, ,dstaddr", "bytes,"] := by decide
  refine ⟨isMember, (laws.2.2.2.1 _ isMember).2.1, ?_⟩
  exact (laws.2.2.2.2 service [("verb", .text "count")] [("limit", .int 5)] "az_id, dstport" "groupBy"
    (by simp)).2

end Service

end FlowLog
