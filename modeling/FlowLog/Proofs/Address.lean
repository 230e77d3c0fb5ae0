import Mathlib.Computability.Language
import FlowLog.Address
import FlowLog.Proofs.Numeral
import FlowLog.Proofs.Text

/-!
# The grammar of addresses

The full addresses form a language: an address of family 4 is a dotted quad, and an address of
family 6 follows one of eight rules, which differ in the number of groups in front of the two colons
that stand for groups left out. `Address.family?` recognizes the language by cutting a text at these
two colons and counting groups on both sides, which is `Address.family?_eq_some`.
-/

namespace FlowLog.Address

/-! ## The rules -/

/-- A dot. -/
def dot : Language Char := {['.']}

/-- A colon. -/
def colon : Language Char := {[':']}

/-- A percent sign. -/
def percent : Language Char := {['%']}

/-- Words of a language one after another, at least `low` and at most `high` of them. -/
def repeated (language : Language Char) (low high : Nat) : Language Char :=
  {text | ∃ n, low ≤ n ∧ n ≤ high ∧ text ∈ language ^ n}

/-- A number up to 255 without leading zeros. -/
def octet : Language Char := {text | ∃ n ≤ 255, text = Numeral.digits n}

/-- Four octets with dots between them. -/
def quad : Language Char := octet * dot * octet * dot * octet * dot * octet

/-- One to four hexadecimal digits. -/
def group : Language Char :=
  {text | 1 ≤ text.length ∧ text.length ≤ 4 ∧ ∀ c ∈ text, isHexDigit c = true}

/-- What follows a colon in front of which groups were left out: up to `few` groups and a quad, or
up to `many` groups. -/
def afterGap (few many : Nat) : Language Char :=
  repeated (colon * group) 0 few * (colon * quad) + repeated (colon * group) 1 many + colon

/-- The addresses of family 6 without a zone. -/
def colonAddress : Language Char :=
  (group * colon) ^ 7 * (group + colon) +
  (group * colon) ^ 6 * (quad + colon * group + colon) +
  (group * colon) ^ 5 * afterGap 0 2 +
  (group * colon) ^ 4 * afterGap 1 3 +
  (group * colon) ^ 3 * afterGap 2 4 +
  (group * colon) ^ 2 * afterGap 3 5 +
  (group * colon) ^ 1 * afterGap 4 6 +
  colon * afterGap 5 7

/-- The name of a zone, which is not empty. -/
def zoneName : Language Char := {text | text ≠ [] ∧ ∀ c ∈ text, isZoneChar c = true}

/-- The full addresses of a family. -/
def Family.language : Family → Language Char
  | .four => quad
  | .six => colonAddress * (1 + percent * zoneName)

@[simp]
theorem mem_dot {text : List Char} : text ∈ dot ↔ text = ['.'] := Iff.rfl

@[simp]
theorem mem_colon {text : List Char} : text ∈ colon ↔ text = [':'] := Iff.rfl

@[simp]
theorem mem_percent {text : List Char} : text ∈ percent ↔ text = ['%'] := Iff.rfl

theorem mem_repeated {language : Language Char} {low high : Nat} {text : List Char} :
    text ∈ repeated language low high ↔ ∃ n, low ≤ n ∧ n ≤ high ∧ text ∈ language ^ n := Iff.rfl

/-! ## Quads and groups -/

theorem isGroup_iff {text : List Char} : isGroup text = true ↔ text ∈ group := by
  simp only [isGroup, Bool.and_eq_true, Bool.not_eq_true', List.isEmpty_eq_false_iff, decide_eq_true_eq,
    List.all_eq_true, ← List.length_pos_iff, and_assoc]
  rfl

theorem isPlainNumber_iff {text : List Char} :
    isPlainNumber text = true ↔ text = Numeral.digits (Numeral.value text) := by
  simp only [isPlainNumber, Bool.and_eq_true, Bool.or_eq_true, bne_iff_ne, beq_iff_eq]
  constructor
  · rintro ⟨isDigits, plain⟩
    refine (Numeral.digits_value (Numeral.isDigits_iff.1 isDigits) ?_).symm
    rintro rest rfl
    simpa using plain
  · intro canonical
    generalize Numeral.value text = n at canonical
    subst canonical
    refine ⟨Numeral.isDigits_digits n, ?_⟩
    by_contra! zeroFirst
    rcases List.head?_eq_some_iff.1 zeroFirst.1 with ⟨rest, shape⟩
    rw [Numeral.eq_zero_of_digits shape] at zeroFirst
    exact zeroFirst.2 rfl

theorem isOctet_iff {text : List Char} : isOctet text = true ↔ text ∈ octet := by
  simp only [isOctet, Bool.and_eq_true, decide_eq_true_eq, isPlainNumber_iff]
  constructor
  · rintro ⟨⟨canonical, -⟩, bounded⟩
    exact ⟨_, bounded, canonical⟩
  · rintro ⟨n, bounded, rfl⟩
    rw [Numeral.value_digits]
    exact ⟨⟨rfl, Numeral.length_digits_le (by decide) (by omega)⟩, bounded⟩

theorem mem_quad {text : List Char} : text ∈ quad ↔
    ∃ a ∈ octet, ∃ b ∈ octet, ∃ c ∈ octet, ∃ d ∈ octet, text = ['.'].intercalate [a, b, c, d] := by
  simp only [quad, Language.mem_mul, mem_dot]
  constructor
  · rintro ⟨_, ⟨_, ⟨_, ⟨_, ⟨_, ⟨a, isA, _, rfl, rfl⟩, b, isB, rfl⟩, _, rfl, rfl⟩, c, isC, rfl⟩,
      _, rfl, rfl⟩, d, isD, rfl⟩
    exact ⟨a, isA, b, isB, c, isC, d, isD, by simp⟩
  · rintro ⟨a, isA, b, isB, c, isC, d, isD, rfl⟩
    exact ⟨_, ⟨_, ⟨_, ⟨_, ⟨_, ⟨a, isA, _, rfl, rfl⟩, b, isB, rfl⟩, _, rfl, rfl⟩, c, isC, rfl⟩,
      _, rfl, rfl⟩, d, isD, by simp⟩

theorem isDigit_of_mem_octet {text : List Char} (isOctet : text ∈ octet) :
    ∀ c ∈ text, c.isDigit = true := by
  rcases isOctet with ⟨n, -, rfl⟩
  intro c isMember
  exact Numeral.isDigit_of_mem_digits isMember

theorem isQuad_iff {text : List Char} : isQuad text = true ↔ text ∈ quad := by
  simp only [isQuad, Bool.and_eq_true, beq_iff_eq, List.all_eq_true, mem_quad, isOctet_iff]
  constructor
  · rintro ⟨four, octets⟩
    have whole : ['.'].intercalate (text.splitOn '.') = text := List.intercalate_splitOn '.'
    match text.splitOn '.', four, octets, whole with
    | [a, b, c, d], _, octets, whole =>
        simp only [List.forall_mem_cons] at octets
        rcases octets with ⟨isA, isB, isC, isD, -⟩
        exact ⟨a, isA, b, isB, c, isC, d, isD, whole.symm⟩
  · rintro ⟨a, isA, b, isB, c, isC, d, isD, rfl⟩
    have octets : ∀ part ∈ [a, b, c, d], part ∈ octet := by simp [isA, isB, isC, isD]
    have dotless : ∀ part ∈ [a, b, c, d], '.' ∉ part := by
      intro part isPart isDot
      exact absurd (isDigit_of_mem_octet (octets part isPart) '.' isDot) (by decide)
    rw [List.splitOn_intercalate '.' dotless (by simp)]
    exact ⟨rfl, octets⟩

theorem units_of_mem_quad {text : List Char} (inQuad : text ∈ quad) :
    '.' ∈ text ∧ ∀ c ∈ text, c.isDigit = true ∨ c = '.' := by
  rcases mem_quad.1 inQuad with ⟨a, isA, b, isB, c, isC, d, isD, rfl⟩
  have octets : ∀ part ∈ [a, b, c, d], part ∈ octet := by simp [isA, isB, isC, isD]
  refine ⟨by simp, fun unit isMember => ?_⟩
  rcases Text.mem_intercalate isMember with isDot | ⟨part, isPart, inPart⟩
  · exact Or.inr isDot
  · exact Or.inl (isDigit_of_mem_octet (octets part isPart) unit inPart)

theorem notMem_quad_of_mem_group {text : List Char} (inGroup : text ∈ group) : text ∉ quad := by
  intro inQuad
  exact absurd (inGroup.2.2 '.' (units_of_mem_quad inQuad).1) (by decide)

/-! ## Counting groups -/

/-- Groups, the last of which may be replaced by a quad, and the number of groups that they stand
for. -/
inductive Parts (quadAllowed : Bool) : List (List Char) → Nat → Prop
  | none : Parts quadAllowed [] 0
  | quad {last : List Char} (inQuad : last ∈ quad) (allowed : quadAllowed = true) :
      Parts quadAllowed [last] 2
  | group {part : List Char} {rest : List (List Char)} {width : Nat} (inGroup : part ∈ group)
      (more : Parts quadAllowed rest width) : Parts quadAllowed (part :: rest) (width + 1)

theorem lastWidth?_eq_some {quadAllowed : Bool} {last : List Char} {width : Nat} :
    lastWidth? quadAllowed last = some width ↔ Parts quadAllowed [last] width := by
  unfold lastWidth?
  constructor
  · intro counted
    split at counted
    · next inGroup =>
        cases counted
        exact .group (isGroup_iff.1 inGroup) .none
    · split at counted
      · next inQuad =>
          cases counted
          rw [Bool.and_eq_true] at inQuad
          exact .quad (isQuad_iff.1 inQuad.2) inQuad.1
      · cases counted
  · intro parts
    cases parts with
    | quad inQuad allowed =>
        have notGroup : ¬isGroup last = true := by
          intro inGroup
          exact notMem_quad_of_mem_group (isGroup_iff.1 inGroup) inQuad
        simp [notGroup, allowed, isQuad_iff.2 inQuad]
    | group inGroup more =>
        cases more
        simp [isGroup_iff.2 inGroup]

theorem partsWidth?_eq_some {quadAllowed : Bool} {parts : List (List Char)} {width : Nat} :
    partsWidth? quadAllowed parts = some width ↔ Parts quadAllowed parts width := by
  fun_induction partsWidth? quadAllowed parts generalizing width with
  | case1 =>
      constructor
      · rintro ⟨⟩
        exact .none
      · rintro ⟨⟩
        rfl
  | case2 last => exact lastWidth?_eq_some
  | case3 part rest several inGroup ih =>
      rw [Option.map_eq_some_iff]
      constructor
      · rintro ⟨width, counted, rfl⟩
        exact .group (isGroup_iff.1 inGroup) (ih.1 counted)
      · intro parts
        cases parts with
        | quad => exact absurd rfl several
        | group _ more => exact ⟨_, ih.2 more, rfl⟩
  | case4 part rest several notGroup =>
      constructor
      · rintro ⟨⟩
      · intro parts
        cases parts with
        | quad => exact absurd rfl several
        | group inGroup more => exact absurd (isGroup_iff.2 inGroup) notGroup

theorem Parts.units {quadAllowed : Bool} {parts : List (List Char)} {width : Nat}
    (counted : Parts quadAllowed parts width) :
    ∀ part ∈ parts, part ≠ [] ∧ ∀ c ∈ part, isHexDigit c = true ∨ c = '.' := by
  induction counted with
  | none => simp
  | quad inQuad _ =>
      rcases units_of_mem_quad inQuad with ⟨hasDot, units⟩
      rw [List.forall_mem_singleton]
      refine ⟨List.ne_nil_of_mem hasDot, fun c isMember => (units c isMember).imp_left ?_⟩
      intro isDigit
      simp [isHexDigit, isDigit]
  | group inGroup _ ih =>
      rw [List.forall_mem_cons]
      refine ⟨⟨List.ne_nil_of_length_pos inGroup.1, ?_⟩, ih⟩
      exact fun c isMember => Or.inl (inGroup.2.2 c isMember)

/-- Parts are neither empty nor cut by a colon. -/
theorem Parts.solid {quadAllowed : Bool} {parts : List (List Char)} {width : Nat}
    (counted : Parts quadAllowed parts width) : ∀ part ∈ parts, part ≠ [] ∧ ':' ∉ part := by
  intro part isPart
  rcases counted.units part isPart with ⟨nonempty, units⟩
  exact ⟨nonempty, fun hasColon => absurd (units ':' hasColon) (by decide)⟩

/-- Parts with colons between them. -/
def join (parts : List (List Char)) : List Char := [':'].intercalate parts

@[simp]
theorem join_nil : join [] = [] := rfl

@[simp]
theorem join_singleton (part : List Char) : join [part] = part := List.intercalate_singleton

theorem join_cons {rest : List (List Char)} (nonempty : rest ≠ []) (part : List Char) :
    join (part :: rest) = part ++ ':' :: join rest := by
  simp [join, List.intercalate_cons_of_ne_nil nonempty]

theorem exists_head_join {parts : List (List Char)} (nonempty : parts ≠ [])
    (solid : ∀ part ∈ parts, part ≠ [] ∧ ':' ∉ part) :
    ∃ first rest, join parts = first :: rest ∧ first ≠ ':' := by
  cases parts with
  | nil => exact absurd rfl nonempty
  | cons part others =>
      rcases solid part List.mem_cons_self with ⟨partNonempty, colonless⟩
      rcases List.exists_cons_of_ne_nil partNonempty with ⟨first, rest, rfl⟩
      have notColon : first ≠ ':' := by
        rintro rfl
        exact colonless List.mem_cons_self
      by_cases single : others = []
      · exact ⟨first, rest, by simp [single], notColon⟩
      · exact ⟨first, rest ++ ':' :: join others, join_cons single _, notColon⟩

theorem groupsWidth?_eq_some {quadAllowed : Bool} {text : List Char} {width : Nat} :
    groupsWidth? quadAllowed text = some width ↔
      ∃ parts, Parts quadAllowed parts width ∧ text = join parts := by
  unfold groupsWidth?
  constructor
  · intro counted
    split at counted
    · next isEmpty =>
        cases counted
        exact ⟨[], .none, List.isEmpty_iff.1 isEmpty⟩
    · exact ⟨text.splitOn ':', partsWidth?_eq_some.1 counted, (List.intercalate_splitOn ':').symm⟩
  · rintro ⟨parts, counted, rfl⟩
    by_cases nonempty : parts = []
    · subst nonempty
      cases counted
      rfl
    · have colonless : ∀ part ∈ parts, ':' ∉ part := fun part isPart => (counted.solid part isPart).2
      rcases exists_head_join nonempty counted.solid with ⟨first, rest, shape, -⟩
      rw [if_neg (by simp [shape]), join, List.splitOn_intercalate ':' colonless nonempty]
      exact partsWidth?_eq_some.2 counted

/-! ## The two colons -/

theorem find?_colons_append {before : List Char} (colonless : ':' ∉ before) (text : List Char) :
    Text.find? [':', ':'] (before ++ text) =
      (Text.find? [':', ':'] text).map (· + before.length) := by
  apply Text.find?_append
  intro suffix isSuffix nonempty starts
  rcases List.exists_cons_of_ne_nil nonempty with ⟨first, rest, rfl⟩
  have isColon : ':' = first := by
    rcases starts with ⟨after, whole⟩
    simpa using List.head_eq_of_cons_eq whole
  subst isColon
  exact colonless (((List.mem_tails _ _).1 isSuffix).subset List.mem_cons_self)

/-- Two colons side by side do not start inside joined parts: the colon behind a part is followed by
the next part, which does not start with one. -/
theorem find?_colons_join {parts : List (List Char)} (solid : ∀ part ∈ parts, part ≠ [] ∧ ':' ∉ part)
    (text : List Char) :
    Text.find? [':', ':'] (join parts ++ text) =
      (Text.find? [':', ':'] text).map (· + (join parts).length) := by
  induction parts with
  | nil => simp
  | cons part rest ih =>
      rw [List.forall_mem_cons] at solid
      rcases solid with ⟨⟨-, colonless⟩, restSolid⟩
      by_cases single : rest = []
      · subst single
        simp [find?_colons_append colonless]
      · have notHere : ¬[':', ':'] <+: ':' :: (join rest ++ text) := by
          rcases exists_head_join single restSolid with ⟨first, others, shape, notColon⟩
          simp [shape, notColon.symm]
        rw [join_cons single, List.append_assoc, find?_colons_append colonless, List.cons_append,
          Text.find?, if_neg (mt List.isPrefixOf_iff_prefix.1 notHere), ih restSolid]
        simp only [Option.map_map, List.length_append, List.length_cons]
        congr 1
        funext position
        simp only [Function.comp_apply]
        omega

/-- The addresses of family 6 in the form in which they are recognized. -/
theorem isColonAddress_iff_parts {text : List Char} : isColonAddress text = true ↔
    (∃ parts, Parts true parts 8 ∧ text = join parts) ∨
      ∃ before after leading trailing, Parts false before leading ∧ Parts true after trailing ∧
        leading + trailing ≤ 7 ∧ text = join before ++ ':' :: ':' :: join after := by
  unfold isColonAddress
  constructor
  · intro accepted
    split at accepted
    · left
      exact groupsWidth?_eq_some.1 (beq_iff_eq.1 accepted)
    · next gap found =>
        right
        split at accepted
        · next leading trailing countedBefore countedAfter =>
            rcases groupsWidth?_eq_some.1 countedBefore with ⟨before, beforeParts, beforeText⟩
            rcases groupsWidth?_eq_some.1 countedAfter with ⟨after, afterParts, afterText⟩
            refine ⟨before, after, leading, trailing, beforeParts, afterParts,
              by simpa using accepted, ?_⟩
            rcases Text.isPrefix_drop_of_find? found with ⟨rest, cut⟩
            have restText : rest = join after := by
              rw [← afterText, ← List.drop_drop, ← cut]
              rfl
            rw [← beforeText, ← restText]
            exact (List.take_append_drop gap text).symm.trans (by rw [← cut]; rfl)
        · cases accepted
  · rintro (⟨parts, counted, rfl⟩ |
      ⟨before, after, leading, trailing, beforeParts, afterParts, few, rfl⟩)
    · have noGap : Text.find? [':', ':'] (join parts) = none := by
        simpa [Text.find?] using find?_colons_join counted.solid []
      simp only [noGap, groupsWidth?_eq_some.2 ⟨parts, counted, rfl⟩]
      rfl
    · have gap : Text.find? [':', ':'] (join before ++ ':' :: ':' :: join after) =
          some (join before).length := by
        have here : [':', ':'] <+: ':' :: ':' :: join after := ⟨join after, rfl⟩
        rw [find?_colons_join beforeParts.solid, Text.find?_of_isPrefix here, Option.map_some,
          Nat.zero_add]
      have afterText : (join before ++ ':' :: ':' :: join after).drop ((join before).length + 2) =
          join after := by
        simp [← List.drop_drop]
      simp only [gap, List.take_left, afterText, groupsWidth?_eq_some.2 ⟨before, beforeParts, rfl⟩,
        groupsWidth?_eq_some.2 ⟨after, afterParts, rfl⟩]
      simpa using few

/-! ## The eight rules as one -/

/-- Parts are groups alone, or groups and a quad behind them. -/
theorem parts_iff {quadAllowed : Bool} {parts : List (List Char)} {width : Nat} :
    Parts quadAllowed parts width ↔ ((∀ part ∈ parts, part ∈ group) ∧ parts.length = width) ∨
      quadAllowed = true ∧ ∃ groups last, parts = groups ++ [last] ∧ (∀ part ∈ groups, part ∈ group) ∧
        last ∈ quad ∧ groups.length + 2 = width := by
  constructor
  · intro counted
    induction counted with
    | none => exact Or.inl ⟨by simp, rfl⟩
    | @quad last inQuad allowed => exact Or.inr ⟨allowed, [], last, rfl, by simp, inQuad, rfl⟩
    | @group part rest width inGroup _ ih =>
        rcases ih with ⟨groups, rfl⟩ | ⟨allowed, groups, last, rfl, inGroups, inQuad, rfl⟩
        · exact Or.inl ⟨List.forall_mem_cons.2 ⟨inGroup, groups⟩, rfl⟩
        · exact Or.inr ⟨allowed, part :: groups, last, rfl, List.forall_mem_cons.2 ⟨inGroup, inGroups⟩,
            inQuad, Nat.add_right_comm _ 1 2⟩
  · rintro (⟨inGroups, rfl⟩ | ⟨allowed, groups, last, rfl, inGroups, inQuad, rfl⟩)
    · induction parts with
      | nil => exact .none
      | cons part rest ih =>
          rw [List.forall_mem_cons] at inGroups
          exact .group inGroups.1 (ih inGroups.2)
    · induction groups with
      | nil => exact .quad inQuad allowed
      | cons part rest ih =>
          rw [List.forall_mem_cons] at inGroups
          have counted := Parts.group inGroups.1 (ih inGroups.2)
          rwa [Nat.add_right_comm] at counted

theorem join_append_singleton {before : List (List Char)} (nonempty : before ≠ []) (last : List Char) :
    join (before ++ [last]) = join before ++ ':' :: last := by
  induction before with
  | nil => exact absurd rfl nonempty
  | cons part rest ih =>
      by_cases single : rest = []
      · simp [single, join_cons]
      · rw [List.cons_append, join_cons (by simp), ih single, join_cons single]
        simp

/-- Words of a language one after another, each of them in the same frame. -/
theorem mem_pow_iff_flatMap {inner framed : Language Char} {frame : List Char → List Char}
    (shape : ∀ text, text ∈ framed ↔ ∃ word ∈ inner, text = frame word) {n : Nat} {text : List Char} :
    text ∈ framed ^ n ↔
      ∃ words : List (List Char), (∀ word ∈ words, word ∈ inner) ∧ words.length = n ∧
        text = words.flatMap frame := by
  induction n generalizing text with
  | zero => simp +contextual [Language.mem_one]
  | succ n ih =>
      rw [pow_succ', Language.mem_mul]
      constructor
      · rintro ⟨first, isFirst, rest, isRest, rfl⟩
        rcases (shape first).1 isFirst with ⟨word, inInner, rfl⟩
        rcases ih.1 isRest with ⟨words, inWords, rfl, rfl⟩
        exact ⟨word :: words, List.forall_mem_cons.2 ⟨inInner, inWords⟩, rfl, rfl⟩
      · rintro ⟨words, inWords, length, rfl⟩
        rcases List.exists_cons_of_length_eq_add_one length with ⟨word, rest, rfl⟩
        rw [List.forall_mem_cons] at inWords
        exact ⟨frame word, (shape _).2 ⟨word, inWords.1, rfl⟩, rest.flatMap frame,
          ih.2 ⟨rest, inWords.2, by simpa using length, rfl⟩, rfl⟩

theorem flatMap_colon_behind {parts : List (List Char)} (nonempty : parts ≠ []) :
    parts.flatMap (· ++ [':']) = join parts ++ [':'] := by
  induction parts with
  | nil => exact absurd rfl nonempty
  | cons part rest ih =>
      by_cases single : rest = []
      · simp [single]
      · simp [join_cons single, ih single]

theorem flatMap_colon_front {parts : List (List Char)} (nonempty : parts ≠ []) :
    parts.flatMap (':' :: ·) = ':' :: join parts := by
  induction parts with
  | nil => exact absurd rfl nonempty
  | cons part rest ih =>
      by_cases single : rest = []
      · simp [single]
      · simp [join_cons single, ih single]

/-- Groups with a colon behind each, or one colon where there is no group. -/
def opening : Nat → Language Char
  | 0 => colon
  | n + 1 => (group * colon) ^ (n + 1)

theorem mem_opening {n : Nat} {text : List Char} :
    text ∈ opening n ↔
      ∃ groups, (∀ part ∈ groups, part ∈ group) ∧ groups.length = n ∧ text = join groups ++ [':'] := by
  cases n with
  | zero => simp +contextual [opening]
  | succ n =>
      have shape : ∀ text, text ∈ group * colon ↔ ∃ word ∈ group, text = word ++ [':'] := by
        simp [Language.mem_mul, eq_comm]
      rw [opening, mem_pow_iff_flatMap shape]
      refine exists_congr fun groups => and_congr_right fun _ => and_congr_right fun length => ?_
      rw [flatMap_colon_behind (List.ne_nil_of_length_eq_add_one length)]

/-- A colon and parts that stand for at most `n` groups. -/
def remainder (n : Nat) : Language Char :=
  {text | ∃ parts width, Parts true parts width ∧ width ≤ n ∧ text = ':' :: join parts}

theorem mem_trailing {n : Nat} {text : List Char} :
    text ∈ (colon * group) ^ n ↔
      ∃ groups : List (List Char), (∀ part ∈ groups, part ∈ group) ∧ groups.length = n ∧
        text = groups.flatMap (':' :: ·) := by
  apply mem_pow_iff_flatMap
  simp [Language.mem_mul, eq_comm]

theorem mem_remainder {n : Nat} {text : List Char} :
    text ∈ remainder n ↔ ((∃ few, few + 2 ≤ n ∧ text ∈ (colon * group) ^ few * (colon * quad)) ∨
      text ∈ repeated (colon * group) 1 n) ∨ text ∈ colon := by
  constructor
  · rintro ⟨parts, width, counted, narrow, rfl⟩
    rcases parts_iff.1 counted with ⟨inGroups, rfl⟩ | ⟨-, groups, last, rfl, inGroups, inQuad, rfl⟩
    · by_cases nonempty : parts = []
      · right
        rw [nonempty]
        rfl
      · left; right
        exact ⟨parts.length, List.length_pos_of_ne_nil nonempty, narrow,
          mem_trailing.2 ⟨parts, inGroups, rfl, (flatMap_colon_front nonempty).symm⟩⟩
    · left; left
      refine ⟨groups.length, narrow,
        Language.mem_mul.2 ⟨groups.flatMap (':' :: ·), ?_, ':' :: last, ?_, ?_⟩⟩
      · exact mem_trailing.2 ⟨groups, inGroups, rfl, rfl⟩
      · exact Language.mem_mul.2 ⟨[':'], rfl, last, inQuad, rfl⟩
      · rw [← flatMap_colon_front (by simp), List.flatMap_append, List.flatMap_singleton]
  · rintro ((⟨few, narrow, inBoth⟩ | ⟨n, positive, narrow, inTrailing⟩) | isColon)
    · rcases Language.mem_mul.1 inBoth with ⟨_, inTrailing, _, inColonQuad, rfl⟩
      rcases mem_trailing.1 inTrailing with ⟨groups, inGroups, rfl, rfl⟩
      rcases Language.mem_mul.1 inColonQuad with ⟨_, rfl, last, inQuad, rfl⟩
      refine ⟨groups ++ [last], groups.length + 2, ?_, narrow, ?_⟩
      · exact parts_iff.2 (Or.inr ⟨rfl, groups, last, rfl, inGroups, inQuad, rfl⟩)
      · rw [← flatMap_colon_front (by simp), List.flatMap_append, List.flatMap_singleton]
        rfl
    · rcases mem_trailing.1 inTrailing with ⟨groups, inGroups, rfl, rfl⟩
      exact ⟨groups, groups.length, parts_iff.2 (Or.inl ⟨inGroups, rfl⟩), narrow,
        flatMap_colon_front (List.ne_nil_of_length_pos positive)⟩
    · exact ⟨[], 0, .none, Nat.zero_le n, isColon⟩

theorem remainder_zero : remainder 0 = colon := by
  ext text
  simp [mem_remainder, mem_repeated]

theorem remainder_one : remainder 1 = colon * group + colon := by
  ext text
  have single : text ∈ repeated (colon * group) 1 1 ↔ text ∈ colon * group := by
    constructor
    · rintro ⟨n, positive, atMostOne, inPower⟩
      rwa [Nat.le_antisymm atMostOne positive, pow_one] at inPower
    · intro inProduct
      exact ⟨1, le_rfl, le_rfl, by rwa [pow_one]⟩
  simp [mem_remainder, Language.mem_add, single]

theorem remainder_add_two (n : Nat) : remainder (n + 2) = afterGap n (n + 2) := by
  ext text
  have quads : text ∈ repeated (colon * group) 0 n * (colon * quad) ↔
      ∃ few, few + 2 ≤ n + 2 ∧ text ∈ (colon * group) ^ few * (colon * quad) := by
    simp only [Language.mem_mul, mem_repeated]
    constructor
    · rintro ⟨left, ⟨few, -, atMost, inPower⟩, right, inRight, rfl⟩
      exact ⟨few, by omega, left, inPower, right, inRight, rfl⟩
    · rintro ⟨few, atMost, left, inPower, right, inRight, rfl⟩
      exact ⟨left, ⟨few, Nat.zero_le few, by omega, inPower⟩, right, inRight, rfl⟩
  rw [mem_remainder, afterGap, Language.mem_add, Language.mem_add, quads]

theorem mem_opening_mul {n : Nat} {language : Language Char} {text : List Char} :
    text ∈ opening (n + 1) * language ↔
      ∃ groups last, (∀ part ∈ groups, part ∈ group) ∧ groups.length = n + 1 ∧ last ∈ language ∧
        text = join (groups ++ [last]) := by
  rw [Language.mem_mul]
  constructor
  · rintro ⟨_, inOpening, last, inLanguage, rfl⟩
    rcases mem_opening.1 inOpening with ⟨groups, inGroups, length, rfl⟩
    refine ⟨groups, last, inGroups, length, inLanguage, ?_⟩
    rw [join_append_singleton (List.ne_nil_of_length_eq_add_one length), List.append_assoc]
    rfl
  · rintro ⟨groups, last, inGroups, length, inLanguage, rfl⟩
    refine ⟨join groups ++ [':'], mem_opening.2 ⟨groups, inGroups, length, rfl⟩, last, inLanguage, ?_⟩
    rw [join_append_singleton (List.ne_nil_of_length_eq_add_one length), List.append_assoc]
    rfl

/-- Eight groups, the last two of which may be a quad. -/
theorem mem_ungapped {text : List Char} : text ∈ opening 7 * group + opening 6 * quad ↔
    ∃ parts, Parts true parts 8 ∧ text = join parts := by
  rw [Language.mem_add, mem_opening_mul, mem_opening_mul]
  constructor
  · rintro (⟨groups, last, inGroups, length, inGroup, rfl⟩ |
      ⟨groups, last, inGroups, length, inQuad, rfl⟩)
    · refine ⟨groups ++ [last], parts_iff.2 (Or.inl ⟨?_, by simp [length]⟩), rfl⟩
      exact List.forall_mem_append.2 ⟨inGroups, by simpa using inGroup⟩
    · refine ⟨groups ++ [last], parts_iff.2 (Or.inr ⟨rfl, groups, last, rfl, inGroups, inQuad, ?_⟩), rfl⟩
      rw [length]
  · rintro ⟨parts, counted, rfl⟩
    rcases parts_iff.1 counted with ⟨inGroups, length⟩ | ⟨-, groups, last, rfl, inGroups, inQuad, length⟩
    · left
      rcases List.eq_nil_or_concat parts with rfl | ⟨groups, last, rfl⟩
      · cases length
      · rw [List.concat_eq_append] at inGroups length ⊢
        rw [List.forall_mem_append] at inGroups
        exact ⟨groups, last, inGroups.1, by simpa using length, by simpa using inGroups.2, rfl⟩
    · right
      exact ⟨groups, last, inGroups, by omega, inQuad, rfl⟩

/-- Each rule is its groups followed by what may be left of the eight, and the first two rules have
a word more that leaves out nothing. -/
theorem mem_colonAddress {text : List Char} :
    text ∈ colonAddress ↔ text ∈ opening 7 * group + opening 6 * quad ∨
      ∃ n ≤ 7, text ∈ opening n * remainder (7 - n) := by
  have rules : colonAddress = opening 7 * group + opening 6 * quad + (opening 7 * remainder 0 +
      opening 6 * remainder 1 + opening 5 * remainder 2 + opening 4 * remainder 3 +
      opening 3 * remainder 4 + opening 2 * remainder 5 + opening 1 * remainder 6 +
      opening 0 * remainder 7) := by
    simp only [remainder_zero, remainder_one, remainder_add_two, opening, colonAddress, mul_add]
    ac_rfl
  rw [rules, Language.mem_add]
  apply or_congr_right
  simp only [Language.mem_add]
  constructor
  · rintro (((((((row | row) | row) | row) | row) | row) | row) | row)
    exacts [⟨7, by omega, row⟩, ⟨6, by omega, row⟩, ⟨5, by omega, row⟩, ⟨4, by omega, row⟩,
      ⟨3, by omega, row⟩, ⟨2, by omega, row⟩, ⟨1, by omega, row⟩, ⟨0, by omega, row⟩]
  · rintro ⟨n, atMost, row⟩
    interval_cases n <;> simp only [row, true_or, or_true]

/-- Up to seven groups, around two colons that stand for the others. -/
theorem mem_gapped {text : List Char} : (∃ n ≤ 7, text ∈ opening n * remainder (7 - n)) ↔
    ∃ before after leading trailing, Parts false before leading ∧ Parts true after trailing ∧
      leading + trailing ≤ 7 ∧ text = join before ++ ':' :: ':' :: join after := by
  constructor
  · rintro ⟨n, atMost, inBoth⟩
    rcases Language.mem_mul.1 inBoth with
      ⟨_, inOpening, _, ⟨after, trailing, afterParts, narrow, rfl⟩, rfl⟩
    rcases mem_opening.1 inOpening with ⟨before, inGroups, length, rfl⟩
    exact ⟨before, after, n, trailing, parts_iff.2 (Or.inl ⟨inGroups, length⟩), afterParts,
      by omega, by simp⟩
  · rintro ⟨before, after, leading, trailing, beforeParts, afterParts, narrow, rfl⟩
    rcases parts_iff.1 beforeParts with ⟨inGroups, length⟩ | ⟨allowed, -⟩
    · refine ⟨leading, by omega,
        Language.mem_mul.2 ⟨join before ++ [':'], ?_, ':' :: join after, ?_, by simp⟩⟩
      · exact mem_opening.2 ⟨before, inGroups, length, rfl⟩
      · exact ⟨after, trailing, afterParts, by omega, rfl⟩
    · exact absurd allowed Bool.false_ne_true

theorem isColonAddress_iff {text : List Char} : isColonAddress text = true ↔ text ∈ colonAddress := by
  rw [isColonAddress_iff_parts, mem_colonAddress, mem_ungapped, mem_gapped]

/-! ## Full addresses -/

theorem Parts.join_units {quadAllowed : Bool} {parts : List (List Char)} {width : Nat}
    (counted : Parts quadAllowed parts width) :
    ∀ c ∈ join parts, isHexDigit c = true ∨ c = '.' ∨ c = ':' := by
  intro c isMember
  rcases Text.mem_intercalate isMember with isColon | ⟨part, isPart, inPart⟩
  · exact Or.inr (Or.inr isColon)
  · exact ((counted.units part isPart).2 c inPart).imp_right Or.inl

theorem units_of_mem_colonAddress {text : List Char} (inLanguage : text ∈ colonAddress) :
    ∀ c ∈ text, isHexDigit c = true ∨ c = '.' ∨ c = ':' := by
  intro c isMember
  rcases mem_colonAddress.1 inLanguage with ungapped | gapped
  · rcases mem_ungapped.1 ungapped with ⟨parts, counted, rfl⟩
    exact counted.join_units c isMember
  · rcases mem_gapped.1 gapped with ⟨before, after, leading, trailing, beforeParts, afterParts, -, rfl⟩
    simp only [List.mem_append, List.mem_cons] at isMember
    rcases isMember with inBefore | isColon | isColon | inAfter
    · exact beforeParts.join_units c inBefore
    · exact Or.inr (Or.inr isColon)
    · exact Or.inr (Or.inr isColon)
    · exact afterParts.join_units c inAfter

theorem colon_mem_opening_mul {n : Nat} {language : Language Char} {text : List Char}
    (inBoth : text ∈ opening n * language) : ':' ∈ text := by
  rcases Language.mem_mul.1 inBoth with ⟨_, inOpening, _, -, rfl⟩
  rcases mem_opening.1 inOpening with ⟨groups, -, -, rfl⟩
  simp

theorem colon_mem_of_mem_colonAddress {text : List Char} (inLanguage : text ∈ colonAddress) :
    ':' ∈ text := by
  rcases mem_colonAddress.1 inLanguage with (inBoth | inBoth) | ⟨n, -, inBoth⟩
  all_goals exact colon_mem_opening_mul inBoth

theorem mem_zoneName {text : List Char} :
    text ∈ zoneName ↔ text ≠ [] ∧ ∀ c ∈ text, isZoneChar c = true := Iff.rfl

theorem mem_zone {text : List Char} :
    text ∈ 1 + percent * zoneName ↔ text = [] ∨ ∃ zone ∈ zoneName, text = '%' :: zone := by
  rw [Language.mem_add, Language.mem_one, Language.mem_mul]
  simp [eq_comm]

theorem isZone_iff {text : List Char} : isZone text = true ↔ text ∈ 1 + percent * zoneName := by
  rw [mem_zone]
  constructor
  · intro accepted
    unfold isZone at accepted
    split at accepted
    · exact Or.inl rfl
    · next zone =>
        refine Or.inr ⟨zone, mem_zoneName.2 ?_, rfl⟩
        simpa using accepted
    · cases accepted
  · rintro (rfl | ⟨zone, inZone, rfl⟩)
    · rfl
    · simpa [isZone] using mem_zoneName.1 inZone

theorem isSix_iff {text : List Char} : isSix text = true ↔ text ∈ Family.six.language := by
  rw [isSix, Bool.and_eq_true, isColonAddress_iff, isZone_iff, Family.language, Language.mem_mul]
  constructor
  · rintro ⟨inBody, inZone⟩
    exact ⟨_, inBody, _, inZone, List.takeWhile_append_dropWhile⟩
  · rintro ⟨body, inBody, zone, inZone, rfl⟩
    have differs : ∀ c ∈ body, (c != '%') = true := by
      intro c isMember
      rw [bne_iff_ne]
      rintro rfl
      exact absurd (units_of_mem_colonAddress inBody '%' isMember) (by decide)
    have stops : zone.takeWhile (· != '%') = [] ∧ zone.dropWhile (· != '%') = zone := by
      rcases mem_zone.1 inZone with rfl | ⟨name, -, rfl⟩ <;> simp
    rw [List.takeWhile_append_of_pos differs, List.dropWhile_append_of_pos differs, stops.1, stops.2,
      List.append_nil]
    exact ⟨inBody, inZone⟩

theorem notMem_quad_of_mem_six {text : List Char} (inSix : text ∈ Family.six.language) :
    text ∉ quad := by
  intro inQuad
  rcases Language.mem_mul.1 inSix with ⟨body, inBody, zone, -, rfl⟩
  have hasColon := List.mem_append_left zone (colon_mem_of_mem_colonAddress inBody)
  exact absurd ((units_of_mem_quad inQuad).2 ':' hasColon) (by decide)

/-- A text has a family exactly if it is a full address of it. -/
theorem family?_eq_some {text : List Char} {family : Family} :
    family? text = some family ↔ text ∈ family.language := by
  unfold family?
  constructor
  · intro known
    split at known
    · next inQuad =>
        cases known
        exact isQuad_iff.1 inQuad
    · split at known
      · next inSix =>
          cases known
          exact isSix_iff.1 inSix
      · cases known
  · intro inLanguage
    cases family with
    | four => rw [if_pos (isQuad_iff.2 inLanguage)]
    | six =>
        rw [if_neg (mt isQuad_iff.1 (notMem_quad_of_mem_six inLanguage)),
          if_pos (isSix_iff.2 inLanguage)]

theorem isZoneChar_of_isHexDigit {c : Char} (isHex : isHexDigit c = true) : isZoneChar c = true := by
  simp only [isHexDigit, Bool.or_eq_true, Bool.and_eq_true, decide_eq_true_eq] at isHex
  rcases isHex with (isDigit | ⟨low, high⟩) | ⟨low, high⟩
  · simp [isZoneChar, isDigit]
  · simp [isZoneChar, low, Char.le_trans high (by decide : 'f' ≤ 'z')]
  · simp [isZoneChar, low, Char.le_trans high (by decide : 'F' ≤ 'Z')]

/-- A full address is written with what may stand in a zone and with the percent sign in front of
one. -/
theorem units_of_mem_language {text : List Char} {family : Family}
    (inLanguage : text ∈ family.language) :
    ∀ c ∈ text, isZoneChar c = true ∨ c = '%' := by
  intro c isMember
  cases family with
  | four =>
      left
      rcases (units_of_mem_quad inLanguage).2 c isMember with isDigit | rfl
      · simp [isZoneChar, isDigit]
      · rfl
  | six =>
      rcases Language.mem_mul.1 inLanguage with ⟨body, inBody, zone, inZone, rfl⟩
      rcases List.mem_append.1 isMember with inside | behind
      · left
        rcases units_of_mem_colonAddress inBody c inside with isHex | rfl | rfl
        · exact isZoneChar_of_isHexDigit isHex
        · rfl
        · rfl
      · rcases mem_zone.1 inZone with rfl | ⟨name, inName, rfl⟩
        · cases behind
        · rcases List.mem_cons.1 behind with isPercent | isInName
          · exact Or.inr isPercent
          · exact Or.inl ((mem_zoneName.1 inName).2 c isInName)

theorem slash_notMem {text : List Char} {family : Family} (inLanguage : text ∈ family.language) :
    '/' ∉ text := by
  intro hasSlash
  exact absurd (units_of_mem_language inLanguage '/' hasSlash) (by decide)

end FlowLog.Address
