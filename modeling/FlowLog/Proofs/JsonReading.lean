import FlowLog.Proofs.Json
import FlowLog.Proofs.NumberText
import FlowLog.Proofs.Record
import FlowLog.Proofs.Units

/-!
# Reading written JSON

Whatever is written on one line can be read again, and has no control characters in it.

The reader works on characters, so what it is given is the line after its units were joined. Joining
does not mix up the parts of the line: brackets, commas and colons are neither halves nor next to
one (`written_array`, `written_object`). Each part is then read as if it stood alone, and the number
of its characters bounds the steps that this takes (`ReadsBack`).

`Json.reread` is the value that is read. It differs from the written one where the text of a value
says less than the value: an infinity is written as `null`, and an object may repeat a name.
-/

namespace FlowLog.Json

/-! ## Units inside quotes -/

theorem readUnits?_letter {c letter : Char} (named : escape? letter = some c) (rest : List Char) :
    readUnits? ('\\' :: letter :: rest) =
      (readUnits? rest).map fun (units, after) => (c :: units, after) := by
  have notU : letter ≠ 'u' := by
    rintro rfl
    cases named
  rw [readUnits?]
  · rw [named]
    cases readUnits? rest <;> rfl
  · intro a b c d rest isU
    exact absurd isU notU

theorem readUnits?_code {c : Char} (isUnit : unitChar (Text.unitValue c) = c)
    (small : Text.unitValue c < 0x10000) (rest : List Char) :
    readUnits? (unicodeEscape (Text.unitValue c) ++ rest) =
      (readUnits? rest).map fun (units, after) => (c :: units, after) := by
  rw [unicodeEscape]
  simp only [List.cons_append, List.nil_append]
  rw [readUnits?, unit?_hexDigits small, isUnit]
  cases readUnits? rest <;> rfl

theorem readUnits?_plain {c : Char} (notQuote : c ≠ '"') (notBackslash : c ≠ '\\')
    (visible : 0x20 ≤ c.toNat) (rest : List Char) :
    readUnits? (c :: rest) =
      (readUnits? rest).map fun (units, after) => (Text.unitsOf c ++ units, after) := by
  rw [readUnits?]
  · have notControl : ¬(c.toNat < 0x20 ∨ c = '\\') := by
      simp only [notBackslash, or_false]
      omega
    rw [if_neg notControl]
    cases readUnits? rest <;> rfl
  · exact notQuote
  · intro a b c d rest isU
    exact absurd isU notBackslash
  · intro letter rest isBackslash
    exact absurd isBackslash notBackslash

/-- The three ways in which a unit is written, with the units that are written so. -/
theorem escapeUnit_cases (c : Char) :
    (∃ letter, escape? letter = some c ∧ escapeUnit c = ['\\', letter]) ∨
    ((c.toNat < 0x20 ∨ Text.isHighHalf c = true ∨ Text.isLowHalf c = true) ∧
      escapeUnit c = unicodeEscape (Text.unitValue c)) ∨
    (c ≠ '"' ∧ c ≠ '\\' ∧ 0x20 ≤ c.toNat ∧ Text.isHighHalf c = false ∧ Text.isLowHalf c = false ∧
      escapeUnit c = [c]) := by
  unfold escapeUnit
  split_ifs with isQuote isBackslash isBackspace isFeed isLine isReturn isTab special
  · exact Or.inl ⟨_, by rw [isQuote]; rfl, rfl⟩
  · exact Or.inl ⟨_, by rw [isBackslash]; rfl, rfl⟩
  · exact Or.inl ⟨'b', by rw [isBackspace]; rfl, rfl⟩
  · exact Or.inl ⟨'f', by rw [isFeed]; rfl, rfl⟩
  · exact Or.inl ⟨'n', by rw [isLine]; rfl, rfl⟩
  · exact Or.inl ⟨'r', by rw [isReturn]; rfl, rfl⟩
  · exact Or.inl ⟨'t', by rw [isTab]; rfl, rfl⟩
  · simp only [Bool.or_eq_true, decide_eq_true_eq, or_assoc] at special
    exact Or.inr (Or.inl ⟨special, rfl⟩)
  · simp only [Bool.or_eq_true, decide_eq_true_eq, not_or, Bool.not_eq_true, Nat.not_lt] at special
    exact Or.inr (Or.inr ⟨isQuote, isBackslash, special.1.1, special.1.2, special.2, rfl⟩)

theorem of_escape? {letter c : Char} (named : escape? letter = some c) :
    Text.isHighHalf letter = false ∧ 0x20 ≤ letter.toNat ∧ Text.isUnit c = true := by
  unfold escape? at named
  split at named <;> cases named <;> decide

theorem plain_hexDigit : ∀ n < 16, Text.isHighHalf (hexDigit n) = false ∧ 0x20 ≤ (hexDigit n).toNat := by
  decide

/-- What is written for one unit has no control characters, and no first half of a pair. -/
theorem plain_of_mem_escapeUnit {c d : Char} (isMember : d ∈ escapeUnit c) :
    Text.isHighHalf d = false ∧ 0x20 ≤ d.toNat := by
  rcases escapeUnit_cases c with
    ⟨letter, named, written⟩ | ⟨-, written⟩ | ⟨-, -, visible, notHigh, -, written⟩
  · rw [written] at isMember
    rcases List.mem_pair.1 isMember with rfl | rfl
    · decide
    · exact ⟨(of_escape? named).1, (of_escape? named).2.1⟩
  · have digit (n : Nat) : n % 16 < 16 := Nat.mod_lt n (by decide)
    rw [written, unicodeEscape] at isMember
    simp only [List.mem_cons, List.not_mem_nil, or_false] at isMember
    rcases isMember with rfl | rfl | rfl | rfl | rfl | rfl
    · decide
    · decide
    · exact plain_hexDigit _ (digit _)
    · exact plain_hexDigit _ (digit _)
    · exact plain_hexDigit _ (digit _)
    · exact plain_hexDigit _ (digit _)
  · rw [written] at isMember
    rw [List.mem_singleton.1 isMember]
    exact ⟨notHigh, visible⟩

theorem readUnits?_escapeUnit (c : Char) (rest : List Char) :
    readUnits? (escapeUnit c ++ rest) =
      (readUnits? rest).map fun (units, after) => (Text.renewUnit c ++ units, after) := by
  rcases escapeUnit_cases c with ⟨letter, named, written⟩ | ⟨special, written⟩ |
    ⟨notQuote, notBackslash, visible, notHigh, notLow, written⟩
  · rw [written, Text.renewUnit_of_isUnit (of_escape? named).2.2]
    exact readUnits?_letter named rest
  · rcases unitChar_unitValue special with ⟨sameUnit, small⟩
    have isUnit : Text.isUnit c = true := by
      simp only [Text.isUnit, Bool.or_eq_true, decide_eq_true_eq, or_assoc]
      rcases special with control | isHalf
      · exact Or.inl (by omega)
      · exact Or.inr isHalf
    rw [written, Text.renewUnit_of_isUnit isUnit]
    exact readUnits?_code sameUnit small rest
  · rw [written, Text.renewUnit_of_not_half notHigh notLow]
    exact readUnits?_plain notQuote notBackslash visible rest

theorem join_escapeUnit_append (c : Char) (rest : List Char) :
    Text.join (escapeUnit c ++ rest) = escapeUnit c ++ Text.join rest :=
  Text.join_append_of_plain (fun _ isMember => (plain_of_mem_escapeUnit isMember).1) rest

theorem readUnits?_escapeUnits (units rest : List Char) :
    readUnits? (Text.join (escapeUnits units) ++ '"' :: rest) = some (Text.renew units, rest) := by
  induction units using escapeUnits.induct with
  | case1 first second later isPair ih =>
      rcases Bool.and_eq_true_iff.1 isPair with ⟨isHigh, isLow⟩
      rcases Text.unitsOf_pair isHigh isLow with ⟨large, units_eq⟩
      have notLow {c : Char} (low : c.toNat < 0x10000) : Text.pair first second ≠ c := by
        rintro rfl
        omega
      have firstUnit := Text.renewUnit_of_isUnit (c := first) (by simp [Text.isUnit, isHigh])
      have secondUnit := Text.renewUnit_of_isUnit (c := second) (by simp [Text.isUnit, isLow])
      rw [escapeUnits, if_pos isPair, Text.join, if_pos isPair, List.cons_append,
        readUnits?_plain (notLow (by decide)) (notLow (by decide)) (by omega), ih, units_eq]
      simp [Text.renew, firstUnit, secondUnit]
  | case2 first second later notPair ih =>
      rw [escapeUnits, if_neg notPair, join_escapeUnit_append, List.append_assoc,
        readUnits?_escapeUnit, ih]
      rfl
  | case3 unit =>
      have joined : Text.join (escapeUnit unit) = escapeUnit unit :=
        Text.join_of_plain fun _ isMember => (plain_of_mem_escapeUnit isMember).1
      rw [escapeUnits, joined, readUnits?_escapeUnit, readUnits?]
      simp [Text.renew]
  | case4 => rfl

theorem visible_of_mem_escapeUnits {units : List Char} {c : Char} (isMember : c ∈ escapeUnits units) :
    0x20 ≤ c.toNat := by
  induction units using escapeUnits.induct with
  | case1 first second later isPair ih =>
      rw [escapeUnits, if_pos isPair, List.mem_cons, List.mem_cons] at isMember
      simp only [Text.isHighHalf, Text.isLowHalf, Bool.and_eq_true, decide_eq_true_eq] at isPair
      rcases isMember with rfl | rfl | inLater
      · omega
      · omega
      · exact ih inLater
  | case2 first second later notPair ih =>
      rw [escapeUnits, if_neg notPair, List.mem_append] at isMember
      rcases isMember with inFirst | inLater
      · exact (plain_of_mem_escapeUnit inFirst).2
      · exact ih inLater
  | case3 unit => exact (plain_of_mem_escapeUnit isMember).2
  | case4 => cases isMember

/-! ## Values as characters -/

@[induction_eliminator]
theorem induction {motive : Json → Prop} (null : motive .null) (bool : ∀ value, motive (.bool value))
    (number : ∀ value, motive (.number value)) (text : ∀ value, motive (.text value))
    (array : ∀ items, (∀ item ∈ items, motive item) → motive (.array items))
    (object : ∀ members, (∀ name value, (name, value) ∈ members → motive value) →
      motive (.object members)) (json : Json) : motive json :=
  match json with
  | .null => null
  | .bool value => bool value
  | .number value => number value
  | .text value => text value
  | .array items => array items fun item _ => induction null bool number text array object item
  | .object members =>
      object members fun _ value _ => induction null bool number text array object value
termination_by sizeOf json
decreasing_by
  · have smaller := List.sizeOf_lt_of_mem ‹_ ∈ items›
    simp only [Json.array.sizeOf_spec]
    omega
  · have smaller := List.sizeOf_lt_of_mem ‹(_, value) ∈ members›
    simp only [Prod.mk.sizeOf_spec] at smaller
    simp only [Json.object.sizeOf_spec]
    omega

mutual

/-- A value as it is read again after it was written. A number becomes the one nearest to its text,
and of members with the same name only the last one is left. -/
def reread : Json → Json
  | .null => .null
  | .bool value => .bool value
  | .number value =>
      ((Numeral.decimal? (numeral value)).map fun decimal => number (.ofDecimal decimal)).getD .null
  | .text value => .text (String.ofList (Text.renew value.toList))
  | .array items => .array (rereadItems items)
  | .object members => .object (Record.ofList (rereadMembers members))

/-- Items as they are read again. -/
def rereadItems : List Json → List Json
  | [] => []
  | item :: rest => reread item :: rereadItems rest

/-- Members as they are read again. -/
def rereadMembers : List (String × Json) → List (String × Json)
  | [] => []
  | (name, value) :: rest => (String.ofList (Text.renew name.toList), reread value) :: rereadMembers rest

end

/-- The characters that are written for a value. -/
def written (value : Json) : List Char := Text.join value.compact

/-- The characters that are written for a name. -/
def writtenName (name : String) : List Char := '"' :: Text.join (escapeUnits name.toList) ++ ['"']

/-- The characters that are written for a member. -/
def writtenMember (member : String × Json) : List Char :=
  writtenName member.1 ++ ':' :: written member.2

theorem join_quoted (value : String) : Text.join (quoted value) = writtenName value := by
  rw [quoted, List.cons_append, Text.join_cons_of_not_high (by decide),
    Text.join_append (by simp; decide)]
  rfl

theorem join_commaSeparated (parts : List (List Char)) :
    Text.join (commaSeparated parts) = commaSeparated (parts.map Text.join) := by
  fun_induction commaSeparated parts with
  | case1 => rfl
  | case2 last => rfl
  | case3 first rest nonempty ih =>
      rcases List.exists_cons_of_ne_nil nonempty with ⟨second, later, rfl⟩
      rw [Text.join_append (by simp; decide), Text.join_cons_of_not_high (by decide), ih]
      rfl

theorem join_between (left right : Char) (parts : List (List Char))
    (notHigh : Text.isHighHalf left = false)
    (notHalf : Text.isHighHalf right = false ∧ Text.isLowHalf right = false) :
    Text.join (left :: commaSeparated parts ++ [right]) =
      left :: commaSeparated (parts.map Text.join) ++ [right] := by
  rw [List.cons_append, Text.join_cons_of_not_high notHigh, Text.join_append (by simpa using notHalf.2),
    join_commaSeparated]
  rfl

theorem compactItems_eq_map (items : List Json) : compactItems items = items.map compact := by
  induction items with
  | nil => rfl
  | cons item rest ih => rw [compactItems, ih, List.map_cons]

theorem compactMembers_eq_map (members : List (String × Json)) :
    compactMembers members = members.map fun (name, value) => quoted name ++ ':' :: compact value := by
  induction members with
  | nil => rfl
  | cons member rest ih => rw [compactMembers, ih, List.map_cons]

theorem written_array (items : List Json) :
    written (.array items) = '[' :: commaSeparated (items.map written) ++ [']'] := by
  rw [written, compact, join_between _ _ _ (by decide) (by decide), compactItems_eq_map, List.map_map]
  rfl

theorem join_member (name : String) (value : Json) :
    Text.join (quoted name ++ ':' :: compact value) = writtenMember (name, value) := by
  rw [Text.join_append (by simp; decide), join_quoted, Text.join_cons_of_not_high (by decide)]
  rfl

theorem written_object (members : List (String × Json)) :
    written (.object members) = '\x7b' :: commaSeparated (members.map writtenMember) ++ ['\x7d'] := by
  rw [written, compact, join_between _ _ _ (by decide) (by decide), compactMembers_eq_map, List.map_map]
  have same : members.map (Text.join ∘ fun (name, value) => quoted name ++ ':' :: compact value) =
      members.map writtenMember :=
    List.map_congr_left fun member _ => join_member member.1 member.2
  rw [same]

/-! ## Numbers -/

/-- What may follow a value: nothing, or a character that cannot belong to a numeral. -/
def Ends (rest : List Char) : Prop := ∀ c ∈ rest.head?, isNumeralChar c = false

theorem ends_cons {c : Char} (notNumeral : isNumeralChar c = false) (rest : List Char) :
    Ends (c :: rest) := by
  intro d isHead
  rw [← Option.some.inj isHead]
  exact notNumeral

theorem skipGaps_cons {c : Char} (notGap : isGap c = false) (rest : List Char) :
    skipGaps (c :: rest) = c :: rest := by
  simp [skipGaps, notGap]

theorem isMark_facts {c : Char} (isMark : Numeral.IsMark c) :
    isNumeralChar c = true ∧ Text.isHighHalf c = false ∧ 0x20 ≤ c.toNat := by
  rcases isMark with isDigit | rfl | rfl | rfl | rfl
  · have bounds : 48 ≤ c.toNat ∧ c.toNat ≤ 57 := Char.isDigit_iff_toNat.1 isDigit
    exact ⟨by simp [isNumeralChar, isDigit], Text.isHighHalf_eq_false (by omega), by omega⟩
  · decide
  · decide
  · decide
  · decide

theorem written_number {value : Number} (finite : value.isFinite = true) :
    written (.number value) = value.text := by
  rw [written, compact, numeral, if_pos finite]
  apply Text.join_of_plain
  intro c isMember
  exact (isMark_facts ((Number.isDecimal_text finite).isMark c isMember)).2.1

theorem readNumber?_text {value : Number} (finite : value.isFinite = true) {rest : List Char}
    (ends : Ends rest) :
    readNumber? (value.text ++ rest) = some (reread (.number value), rest) := by
  have isDecimal := Number.isDecimal_text finite
  rcases isDecimal.exists_decimal? with ⟨decimal, read⟩
  have cut : (value.text ++ rest).span isNumeralChar = (value.text, rest) :=
    Numeral.span_append (fun c isMember => (isMark_facts (isDecimal.isMark c isMember)).1) ends
  simp only [readNumber?, cut, read, reread, numeral, if_pos finite, Option.map_some, Option.getD_some]

section Number

variable {first : Char} (isFirst : first.isDigit = true ∨ first = '-')

include isFirst

theorem ne_of_number {c : Char} (notDigit : c.isDigit = false) (notMinus : c ≠ '-') : first ≠ c := by
  rintro rfl
  rcases isFirst with isDigit | isMinus
  · rw [notDigit] at isDigit
    cases isDigit
  · exact notMinus isMinus

theorem isGap_of_number : isGap first = false := by
  simp only [isGap, Bool.or_eq_false_iff, beq_eq_false_iff_ne]
  exact ⟨⟨⟨ne_of_number isFirst (by decide) (by decide), ne_of_number isFirst (by decide) (by decide)⟩,
    ne_of_number isFirst (by decide) (by decide)⟩, ne_of_number isFirst (by decide) (by decide)⟩

theorem readValue?_number (fuel : Nat) (rest : List Char) :
    readValue? (fuel + 1) (first :: rest) = readNumber? (first :: rest) := by
  have differs {c : Char} := ne_of_number isFirst (c := c)
  rw [readValue?, skipGaps_cons (isGap_of_number isFirst)]
  split
  · next isNil => cases isNil
  · next isQuote => exact absurd (List.cons.inj isQuote).1 (differs (by decide) (by decide))
  · next isBracket => exact absurd (List.cons.inj isBracket).1 (differs (by decide) (by decide))
  · next isBrace => exact absurd (List.cons.inj isBrace).1 (differs (by decide) (by decide))
  · next c later _ _ _ same =>
      rcases List.cons.inj same with ⟨rfl, rfl⟩
      rw [if_neg (differs (by decide) (by decide)), if_neg (differs (by decide) (by decide)),
        if_neg (differs (by decide) (by decide))]

end Number

theorem exists_written_cons (value : Json) :
    ∃ c rest, written value = c :: rest ∧ isGap c = false ∧ c ≠ ']' := by
  cases value with
  | null => exact ⟨'n', _, rfl, by decide, by decide⟩
  | bool value =>
      cases value
      · exact ⟨'f', _, rfl, by decide, by decide⟩
      · exact ⟨'t', _, rfl, by decide, by decide⟩
  | number value =>
      by_cases finite : value.isFinite = true
      · rcases (Number.isDecimal_text finite).exists_cons with ⟨first, rest, shape, isFirst⟩
        exact ⟨first, rest, (written_number finite).trans shape, isGap_of_number isFirst,
          ne_of_number isFirst (by decide) (by decide)⟩
      · refine ⟨'n', ['u', 'l', 'l'], ?_, by decide, by decide⟩
        rw [written, compact, numeral, if_neg finite]
        rfl
  | text value => exact ⟨'"', _, join_quoted value, by decide, by decide⟩
  | array items => exact ⟨'[', _, written_array items, by decide, by decide⟩
  | object members => exact ⟨'\x7b', _, written_object members, by decide, by decide⟩

/-! ## Values -/

theorem rereadItems_eq_map (items : List Json) : rereadItems items = items.map reread := by
  induction items with
  | nil => rfl
  | cons item rest ih => rw [rereadItems, ih, List.map_cons]

/-- A member as it is read again. -/
def rereadMember (member : String × Json) : String × Json :=
  (String.ofList (Text.renew member.1.toList), reread member.2)

theorem rereadMembers_eq_map (members : List (String × Json)) :
    rereadMembers members = members.map rereadMember := by
  induction members with
  | nil => rfl
  | cons member rest ih =>
      rw [rereadMembers, ih]
      rfl

section Lists

variable {α β : Type} {write : α → List Char} {again : α → β} {close : Char}
  {read : Nat → List Char → Option (List β × List Char)}

/-- Items are read one by one if a reader reads the last one up to the closing bracket, and any
other one together with what it makes of the input behind the comma. -/
theorem read_commaSeparated {items : List α} (nonempty : items ≠ [])
    (readLast : ∀ item ∈ items, ∀ fuel rest, (write item).length ≤ fuel →
      read (fuel + 1) (write item ++ close :: rest) = some ([again item], rest))
    (readNext : ∀ item ∈ items, ∀ fuel more others rest, (write item).length ≤ fuel →
      read fuel more = some (others, rest) →
      read (fuel + 1) (write item ++ ',' :: more) = some (again item :: others, rest))
    {fuel : Nat} (enough : (commaSeparated (items.map write)).length < fuel) (rest : List Char) :
    read fuel (commaSeparated (items.map write) ++ close :: rest) = some (items.map again, rest) := by
  induction items generalizing fuel with
  | nil => exact absurd rfl nonempty
  | cons item later ih =>
      obtain ⟨fuel, rfl⟩ : ∃ bound, fuel = bound + 1 := Nat.exists_eq_add_one.2 (by omega)
      rw [List.forall_mem_cons] at readLast readNext
      cases later with
      | nil => exact readLast.1 fuel rest (Nat.le_of_lt_succ enough)
      | cons next later =>
          simp only [List.map_cons, commaSeparated, List.length_append, List.length_cons] at enough
          have others : read fuel (commaSeparated ((next :: later).map write) ++ close :: rest) =
              some ((next :: later).map again, rest) := by
            apply ih (List.cons_ne_nil next later) readLast.2 readNext.2
            rw [List.map_cons]
            omega
          have input : commaSeparated ((item :: next :: later).map write) ++ close :: rest =
              write item ++ ',' :: (commaSeparated ((next :: later).map write) ++ close :: rest) := by
            simp [commaSeparated]
          rw [input]
          exact readNext.1 fuel _ _ rest (by omega) others

end Lists

/-- Whether a value is read again, whatever comes behind it, by a reader that may take as many steps
as the value has characters. -/
def ReadsBack (value : Json) : Prop :=
  ∀ fuel rest, (written value).length ≤ fuel → Ends rest →
    readValue? fuel (written value ++ rest) = some (reread value, rest)

/-- No value is written without characters, so there is always a first step to take. -/
theorem readsBack_of_step {value : Json}
    (step : ∀ fuel rest, (written value).length ≤ fuel + 1 → Ends rest →
      readValue? (fuel + 1) (written value ++ rest) = some (reread value, rest)) : ReadsBack value := by
  intro fuel rest enough ends
  rcases exists_written_cons value with ⟨c, inside, shape, -, -⟩
  cases fuel with
  | zero =>
      rw [shape, List.length_cons] at enough
      omega
  | succ fuel => exact step fuel rest enough ends

theorem readItems?_written {items : List Json} (nonempty : items ≠ [])
    (readBack : ∀ item ∈ items, ReadsBack item) {fuel : Nat}
    (enough : (commaSeparated (items.map written)).length < fuel) (rest : List Char) :
    readItems? fuel (commaSeparated (items.map written) ++ ']' :: rest) =
      some (items.map reread, rest) := by
  apply read_commaSeparated nonempty _ _ enough
  · intro item isItem fuel rest room
    rw [readItems?, readBack item isItem fuel _ room (ends_cons (by decide) rest)]
    rfl
  · intro item isItem fuel more others rest room read
    rw [readItems?, readBack item isItem fuel _ room (ends_cons (by decide) more)]
    change (readItems? fuel more).bind _ = _
    rw [read]
    rfl

/-- The reader of members comes to the value behind the name and the colon. -/
theorem readMembers?_value {fuel : Nat} {name : String} {value : Json} {input behind : List Char}
    (read : readValue? fuel input = some (value, behind)) :
    readMembers? (fuel + 1) (writtenName name ++ ':' :: input) =
      let member := (String.ofList (Text.renew name.toList), value)
      match skipGaps behind with
      | '\x7d' :: after => some ([member], after)
      | ',' :: rest => do
          let (members, after) ← readMembers? fuel rest
          return (member :: members, after)
      | _ => none := by
  have shape : writtenName name ++ ':' :: input =
      '"' :: (Text.join (escapeUnits name.toList) ++ '"' :: ':' :: input) := by
    simp [writtenName]
  rw [shape, readMembers?, skipGaps_cons (by decide)]
  change (readUnits? (Text.join (escapeUnits name.toList) ++ '"' :: ':' :: input)).bind _ = _
  rw [readUnits?_escapeUnits]
  change (readValue? fuel input).bind _ = _
  rw [read]
  rfl

theorem length_written_lt (member : String × Json) :
    (written member.2).length < (writtenMember member).length := by
  simp only [writtenMember, List.length_append, List.length_cons]
  omega

theorem readMembers?_written {members : List (String × Json)} (nonempty : members ≠ [])
    (readBack : ∀ name value, (name, value) ∈ members → ReadsBack value) {fuel : Nat}
    (enough : (commaSeparated (members.map writtenMember)).length < fuel) (rest : List Char) :
    readMembers? fuel (commaSeparated (members.map writtenMember) ++ '\x7d' :: rest) =
      some (members.map rereadMember, rest) := by
  have value : ∀ member ∈ members, ∀ fuel rest, (writtenMember member).length ≤ fuel → Ends rest →
      readValue? fuel (written member.2 ++ rest) = some (reread member.2, rest) := by
    intro member isMember fuel rest room ends
    exact readBack member.1 member.2 isMember fuel rest
      (Nat.le_trans (length_written_lt member).le room) ends
  apply read_commaSeparated nonempty _ _ enough
  · intro member isMember fuel rest room
    rw [writtenMember, List.append_assoc, List.cons_append,
      readMembers?_value (value member isMember fuel _ room (ends_cons (by decide) rest))]
    rfl
  · intro member isMember fuel more others rest room read
    rw [writtenMember, List.append_assoc, List.cons_append,
      readMembers?_value (value member isMember fuel _ room (ends_cons (by decide) more))]
    change (readMembers? fuel more).bind _ = _
    rw [read]
    rfl

theorem exists_commaSeparated_cons (c : Char) (inside : List Char) (parts : List (List Char)) :
    ∃ after, commaSeparated ((c :: inside) :: parts) = c :: after := by
  cases parts with
  | nil => exact ⟨inside, rfl⟩
  | cons part later => exact ⟨_, rfl⟩

theorem readValue?_array (fuel : Nat) (input : List Char) :
    readValue? (fuel + 1) ('[' :: input) =
      match skipGaps input with
      | ']' :: after => some (.array [], after)
      | _ => do
          let (items, after) ← readItems? fuel input
          return (.array items, after) := by
  rw [readValue?, skipGaps_cons (by decide)]
  rfl

theorem readValue?_object (fuel : Nat) (input : List Char) :
    readValue? (fuel + 1) ('\x7b' :: input) =
      match skipGaps input with
      | '\x7d' :: after => some (.object [], after)
      | _ => do
          let (members, after) ← readMembers? fuel input
          return (.object (Record.ofList members), after) := by
  rw [readValue?, skipGaps_cons (by decide)]
  rfl

theorem readsBack_array {items : List Json} (readBack : ∀ item ∈ items, ReadsBack item) :
    ReadsBack (.array items) := by
  apply readsBack_of_step
  intro fuel rest enough ends
  rw [written_array, List.length_append, List.length_cons, List.length_singleton] at enough
  rw [written_array, List.cons_append, List.cons_append, List.append_assoc, List.singleton_append,
    readValue?_array, reread, rereadItems_eq_map]
  cases items with
  | nil => rfl
  | cons first later =>
      have read := readItems?_written (List.cons_ne_nil first later) readBack
        (Nat.lt_of_succ_lt_succ enough) rest
      rcases exists_written_cons first with ⟨c, inside, shape, notGap, notClosing⟩
      rcases exists_commaSeparated_cons c inside (later.map written) with ⟨after, input⟩
      rw [List.map_cons, shape, input, List.cons_append] at read ⊢
      rw [skipGaps_cons notGap]
      split
      · next isClosing => exact absurd (List.cons.inj isClosing).1 notClosing
      · rw [read]
        rfl

theorem readsBack_object {members : List (String × Json)}
    (readBack : ∀ name value, (name, value) ∈ members → ReadsBack value) :
    ReadsBack (.object members) := by
  apply readsBack_of_step
  intro fuel rest enough ends
  rw [written_object, List.length_append, List.length_cons, List.length_singleton] at enough
  rw [written_object, List.cons_append, List.cons_append, List.append_assoc, List.singleton_append,
    readValue?_object, reread, rereadMembers_eq_map]
  cases members with
  | nil => rfl
  | cons first later =>
      have read := readMembers?_written (List.cons_ne_nil first later) readBack
        (Nat.lt_of_succ_lt_succ enough) rest
      obtain ⟨inside, shape⟩ : ∃ inside, writtenMember first = '"' :: inside := ⟨_, rfl⟩
      rcases exists_commaSeparated_cons '"' inside (later.map writtenMember) with ⟨after, input⟩
      rw [List.map_cons, shape, input, List.cons_append] at read ⊢
      rw [skipGaps_cons (by decide)]
      change (readMembers? fuel ('"' :: (after ++ '\x7d' :: rest))).bind _ = _
      rw [read]
      rfl

theorem readsBack_null : ReadsBack .null := readsBack_of_step fun _ _ _ _ => rfl

theorem readsBack_bool (value : Bool) : ReadsBack (.bool value) := by
  cases value with
  | false => exact readsBack_of_step fun _ _ _ _ => rfl
  | true => exact readsBack_of_step fun _ _ _ _ => rfl

theorem readsBack_text (value : String) : ReadsBack (.text value) := by
  apply readsBack_of_step
  intro fuel rest _ _
  have shape : written (.text value) = writtenName value := join_quoted value
  rw [shape, writtenName, List.cons_append, List.cons_append, List.append_assoc, List.singleton_append,
    readValue?, skipGaps_cons (by decide)]
  change (readUnits? (Text.join (escapeUnits value.toList) ++ '"' :: rest)).bind _ = _
  rw [readUnits?_escapeUnits]
  rfl

theorem readsBack_number (value : Number) : ReadsBack (.number value) := by
  by_cases finite : value.isFinite = true
  · apply readsBack_of_step
    intro fuel rest _ ends
    rcases (Number.isDecimal_text finite).exists_cons with ⟨first, inside, shape, isFirst⟩
    have read := readNumber?_text finite ends
    rw [written_number finite]
    rw [shape, List.cons_append] at read ⊢
    rw [readValue?_number isFirst, read]
  · have asNull : written (.number value) = written .null := by
      rw [written, compact, numeral, if_neg finite]
      rfl
    have again : reread (.number value) = .null := by
      rw [reread, numeral, if_neg finite]
      rfl
    rw [ReadsBack, asNull, again]
    exact readsBack_null

/-- Every value is read again after it was written. -/
theorem readsBack (value : Json) : ReadsBack value := by
  induction value with
  | null => exact readsBack_null
  | bool value => exact readsBack_bool value
  | number value => exact readsBack_number value
  | text value => exact readsBack_text value
  | array items ih => exact readsBack_array ih
  | object members ih => exact readsBack_object ih

theorem ofString?_line (value : Json) : ofString? (Text.ofUnits value.line) = some value.reread := by
  have read := readsBack value (value.written.length + 1) [] (Nat.le_succ _) (by simp [Ends])
  rw [List.append_nil] at read
  have characters : (Text.ofUnits value.line).toList = value.written := by
    simp [Text.ofUnits, line, written]
  rw [ofString?, characters, read]
  rfl

/-! ## Control characters -/

theorem mem_commaSeparated {c : Char} {parts : List (List Char)} (isMember : c ∈ commaSeparated parts) :
    c = ',' ∨ ∃ part ∈ parts, c ∈ part := by
  fun_induction commaSeparated parts with
  | case1 => cases isMember
  | case2 last => exact Or.inr ⟨last, List.mem_cons_self, isMember⟩
  | case3 first rest _ ih =>
      rw [List.mem_append, List.mem_cons] at isMember
      rcases isMember with inFirst | isComma | inRest
      · exact Or.inr ⟨first, List.mem_cons_self, inFirst⟩
      · exact Or.inl isComma
      · rcases ih inRest with isComma | ⟨part, isPart, inPart⟩
        · exact Or.inl isComma
        · exact Or.inr ⟨part, List.mem_cons_of_mem first isPart, inPart⟩

/-- Whether a text has no control characters. -/
def Visible (text : List Char) : Prop := ∀ c ∈ text, 0x20 ≤ c.toNat

theorem visible_of_all {text : List Char} (all : text.all (0x20 ≤ ·.toNat) = true) : Visible text := by
  intro c isMember
  simpa using List.all_eq_true.1 all c isMember

theorem visible_quoted (value : String) : Visible (quoted value) := by
  intro c isMember
  rw [quoted, List.mem_append, List.mem_cons, List.mem_singleton] at isMember
  rcases isMember with (rfl | isUnit) | rfl
  · decide
  · exact visible_of_mem_escapeUnits isUnit
  · decide

theorem visible_between {left right : Char} {parts : List (List Char)}
    (brackets : 0x20 ≤ left.toNat ∧ 0x20 ≤ right.toNat) (visible : ∀ part ∈ parts, Visible part) :
    Visible (left :: commaSeparated parts ++ [right]) := by
  intro c isMember
  rw [List.mem_append, List.mem_cons, List.mem_singleton] at isMember
  rcases isMember with (rfl | inside) | rfl
  · exact brackets.1
  · rcases mem_commaSeparated inside with rfl | ⟨part, isPart, inPart⟩
    · decide
    · exact visible part isPart c inPart
  · exact brackets.2

/-- A value that is written on one line has no control characters in its text. -/
theorem visible_compact (value : Json) : Visible value.compact := by
  induction value with
  | null => exact visible_of_all (by decide)
  | bool value => cases value <;> exact visible_of_all (by decide)
  | number value =>
      rw [compact, numeral]
      split
      · next finite =>
          exact fun c isMember => (isMark_facts ((Number.isDecimal_text finite).isMark c isMember)).2.2
      · exact visible_of_all (by decide)
  | text value => exact visible_quoted value
  | array items ih =>
      rw [compact, compactItems_eq_map]
      refine visible_between (by decide) fun part isPart => ?_
      rcases List.mem_map.1 isPart with ⟨item, isItem, rfl⟩
      exact ih item isItem
  | object members ih =>
      rw [compact, compactMembers_eq_map]
      refine visible_between (by decide) fun part isPart => ?_
      rcases List.mem_map.1 isPart with ⟨⟨name, value⟩, isMember, rfl⟩
      intro c inPart
      rw [List.mem_append, List.mem_cons] at inPart
      rcases inPart with inName | rfl | inValue
      · exact visible_quoted name c inName
      · decide
      · exact ih name value isMember c inValue

/-! ## Members that are read again -/

/-- A name for which the members of an object agree on a text is read again with this text. -/
theorem member?_reread {members : List (String × Json)} {name text : String}
    (isBasic : name.toList.all (·.toNat < 0x10000) = true) (areUnits : Text.AreUnits text.toList)
    (agree : ∀ member ∈ members, member.1 = name → member.2 = .text text)
    (given : (name, .text text) ∈ members) :
    (Json.object members).reread.member? name = some (.text text) := by
  have basic : ∀ c ∈ name.toList, c.toNat < 0x10000 := by simpa using isBasic
  have sameText : reread (.text text) = .text text := by
    rw [reread, Text.renew_of_areUnits areUnits, String.ofList_toList]
  have sameName : Text.renew name.toList = name.toList := by
    apply Text.renew_of_areUnits
    refine List.all_eq_true.2 fun c isMember => ?_
    simp [Text.isUnit, basic c isMember]
  rw [reread, member?, rereadMembers_eq_map]
  apply Record.get?_ofList_eq_some
  · intro member isMember isName
    rcases List.mem_map.1 isMember with ⟨original, isOriginal, rfl⟩
    have renewed : Text.renew original.1.toList = name.toList := by
      rw [← isName, rereadMember, String.toList_ofList]
    have originalName : original.1 = name := String.toList_inj.1 (Text.eq_of_renew basic renewed)
    rw [rereadMember, agree original isOriginal originalName, sameText]
  · refine List.mem_map.2 ⟨_, given, ?_⟩
    rw [rereadMember, sameText, sameName, String.ofList_toList]

end FlowLog.Json
