import FlowLog.Json.Reader
import FlowLog.Json.Writer
import Mathlib.Data.List.Forall2
import Mathlib.Tactic.SplitIfs

/-!
# Telling written JSON from what follows it

Inside quotes every unit is written either as it is or as an escape, and no piece that is written
begins like the closing quote. `Json.firstUnit?` reads one piece back, so a quoted text can be told
from all that follows it: two texts that are quoted the same way are the same. Whatever is written
in such a way may be put into a list: behind an item there is a comma or the line of the closing
bracket, never both.
-/

namespace FlowLog.Json

/-- The unit that the first piece inside a quoted text stands for, and what follows the piece. -/
def firstUnit? : List Char → Option (Char × List Char)
  | '\\' :: 'u' :: a :: b :: c :: d :: rest => (unit? a b c d).map (·, rest)
  | '\\' :: letter :: rest => (escape? letter).map (·, rest)
  | c :: rest => if c = '"' then none else some (c, rest)
  | [] => none

/-- The ways in which a unit is written inside a quoted text. -/
inductive Piece : Char → List Char → Prop
  | plain {c : Char} (notQuote : c ≠ '"') (notBackslash : c ≠ '\\') : Piece c [c]
  | letter {c letter : Char} (named : escape? letter = some c) : Piece c ['\\', letter]
  | code {c : Char} (isUnit : unitChar (Text.unitValue c) = c) (small : Text.unitValue c < 0x10000) :
      Piece c (unicodeEscape (Text.unitValue c))

theorem hexValue?_hexDigit : ∀ n < 16, hexValue? (hexDigit n) = some n := by
  decide

theorem unit?_hexDigits {unit : Nat} (small : unit < 0x10000) :
    unit? (hexDigit (unit / 0x1000 % 16)) (hexDigit (unit / 0x100 % 16)) (hexDigit (unit / 0x10 % 16))
      (hexDigit (unit % 16)) = some (unitChar unit) := by
  have value : 0x100 * (0x10 * (unit / 0x1000 % 16) + unit / 0x100 % 16) +
      (0x10 * (unit / 0x10 % 16) + unit % 16) = unit := by
    omega
  have below (n : Nat) : n % 16 < 16 := Nat.mod_lt n (by decide)
  rw [unit?, hexValue?_hexDigit _ (below _), hexValue?_hexDigit _ (below _),
    hexValue?_hexDigit _ (below _), hexValue?_hexDigit _ (below _)]
  exact congrArg (fun n => some (unitChar n)) value

theorem Piece.firstUnit?_append {c : Char} {piece : List Char} (isPiece : Piece c piece)
    (rest : List Char) : firstUnit? (piece ++ rest) = some (c, rest) := by
  cases isPiece with
  | plain notQuote notBackslash =>
      simp [firstUnit?, notQuote, notBackslash]
  | @letter letter named =>
      have notU : letter ≠ 'u' := by
        rintro rfl
        cases named
      simp [firstUnit?, notU, named]
  | code isUnit small =>
      change (unit? _ _ _ _).map (·, rest) = _
      rw [unit?_hexDigits small, isUnit]
      rfl

theorem Piece.cancel {c d : Char} {piece piece' behind behind' : List Char} (first : Piece c piece)
    (second : Piece d piece') (same : piece ++ behind = piece' ++ behind') :
    c = d ∧ behind = behind' := by
  have read := first.firstUnit?_append behind
  rw [same, second.firstUnit?_append behind'] at read
  cases read
  exact ⟨rfl, rfl⟩

theorem Piece.ne_quote {c : Char} {piece behind behind' : List Char} (isPiece : Piece c piece) :
    piece ++ behind ≠ '"' :: behind' := by
  intro same
  have read := isPiece.firstUnit?_append behind
  rw [same] at read
  cases read

theorem unitChar_unitValue {c : Char} (special : c.toNat < 0x20 ∨ Text.isHighHalf c = true ∨
    Text.isLowHalf c = true) : unitChar (Text.unitValue c) = c ∧ Text.unitValue c < 0x10000 := by
  simp only [Text.isHighHalf, Text.isLowHalf, Bool.and_eq_true, decide_eq_true_eq] at special
  by_cases control : c.toNat < 0x20
  · have value : Text.unitValue c = c.toNat := if_neg (by simp only [Text.halfOffset]; omega)
    rw [value, unitChar, if_neg (by omega), Char.ofNat_toNat]
    exact ⟨rfl, by omega⟩
  · have value : Text.unitValue c = c.toNat - Text.halfOffset :=
      if_pos (by simp only [Text.halfOffset]; omega)
    have restored : Text.halfOffset + (c.toNat - Text.halfOffset) = c.toNat := by
      simp only [Text.halfOffset]
      omega
    have isHalf : 0xD800 ≤ c.toNat - Text.halfOffset ∧ c.toNat - Text.halfOffset < 0xE000 := by
      simp only [Text.halfOffset]
      omega
    rw [value, unitChar, if_pos isHalf, Text.half, restored, Char.ofNat_toNat]
    exact ⟨rfl, by omega⟩

theorem piece_escapeUnit (c : Char) : Piece c (escapeUnit c) := by
  rw [escapeUnit]
  split_ifs with isQuote isBackslash isBackspace isFeed isLine isReturn isTab special
  · rw [isQuote]
    exact .letter rfl
  · rw [isBackslash]
    exact .letter rfl
  · rw [isBackspace]
    exact .letter rfl
  · rw [isFeed]
    exact .letter rfl
  · rw [isLine]
    exact .letter rfl
  · rw [isReturn]
    exact .letter rfl
  · rw [isTab]
    exact .letter rfl
  · simp only [Bool.or_eq_true, decide_eq_true_eq, or_assoc] at special
    exact .code (unitChar_unitValue special).1 (unitChar_unitValue special).2
  · exact .plain isQuote isBackslash

theorem piece_of_half {c : Char} (isHalf : Text.isHighHalf c = true ∨ Text.isLowHalf c = true) :
    Piece c [c] := by
  apply Piece.plain
  · rintro rfl
    revert isHalf
    decide
  · rintro rfl
    revert isHalf
    decide

/-- Units are written piece by piece. A half is written as it is only beside its partner, so the
pieces are not the images of the units under one function. -/
theorem exists_pieces (units : List Char) :
    ∃ pieces, List.Forall₂ Piece units pieces ∧ escapeUnits units = pieces.flatten := by
  induction units using escapeUnits.induct with
  | case1 first second rest isPair ih =>
      rcases ih with ⟨pieces, written, rest_eq⟩
      rw [Bool.and_eq_true] at isPair
      refine ⟨[first] :: [second] :: pieces, ?_, ?_⟩
      · exact .cons (piece_of_half (Or.inl isPair.1)) (.cons (piece_of_half (Or.inr isPair.2)) written)
      · simp [escapeUnits, isPair, rest_eq]
  | case2 first second rest notPair ih =>
      rcases ih with ⟨pieces, written, rest_eq⟩
      refine ⟨escapeUnit first :: pieces, .cons (piece_escapeUnit first) written, ?_⟩
      rw [escapeUnits, if_neg notPair, rest_eq, List.flatten_cons]
  | case3 unit => exact ⟨[escapeUnit unit], .cons (piece_escapeUnit unit) .nil, by simp [escapeUnits]⟩
  | case4 => exact ⟨[], .nil, rfl⟩

theorem pieces_cancel {units units' behind behind' : List Char} {pieces pieces' : List (List Char)}
    (first : List.Forall₂ Piece units pieces) (second : List.Forall₂ Piece units' pieces')
    (same : pieces.flatten ++ '"' :: behind = pieces'.flatten ++ '"' :: behind') :
    units = units' ∧ behind = behind' := by
  induction first generalizing units' pieces' with
  | nil =>
      cases second with
      | nil => exact ⟨rfl, (List.cons.inj same).2⟩
      | cons isPiece _ =>
          rw [List.flatten_cons, List.append_assoc] at same
          exact absurd same.symm isPiece.ne_quote
  | cons isPiece _ ih =>
      rw [List.flatten_cons, List.append_assoc] at same
      cases second with
      | nil => exact absurd same isPiece.ne_quote
      | cons isPiece' later =>
          rw [List.flatten_cons, List.append_assoc] at same
          rcases isPiece.cancel isPiece' same with ⟨rfl, sameRest⟩
          rcases ih later sameRest with ⟨rfl, sameBehind⟩
          exact ⟨rfl, sameBehind⟩

theorem quoted_cancel {first second : String} {behind behind' : List Char}
    (same : quoted first ++ behind = quoted second ++ behind') : first = second ∧ behind = behind' := by
  rcases exists_pieces first.toList with ⟨pieces, written, pieces_eq⟩
  rcases exists_pieces second.toList with ⟨pieces', written', pieces'_eq⟩
  have inside : pieces.flatten ++ '"' :: behind = pieces'.flatten ++ '"' :: behind' := by
    rw [quoted, quoted, pieces_eq, pieces'_eq] at same
    simpa using same
  rcases pieces_cancel written written' inside with ⟨sameUnits, sameBehind⟩
  exact ⟨String.toList_inj.1 sameUnits, sameBehind⟩

/-! ## Lists and blocks -/

variable {α : Type} {write : α → List Char}

/-- Whether a way of writing shows what was written, and where it ends. -/
def Separates (write : α → List Char) : Prop :=
  ∀ x y behind behind', write x ++ behind = write y ++ behind' → x = y ∧ behind = behind'

theorem Separates.commaSeparated (separates : Separates write) {stop : Char} (notComma : stop ≠ ',')
    {first first' : α} {rest rest' : List α} {behind behind' : List Char}
    (same : Json.commaSeparated ((first :: rest).map write) ++ stop :: behind =
      Json.commaSeparated ((first' :: rest').map write) ++ stop :: behind') :
    first :: rest = first' :: rest' ∧ behind = behind' := by
  induction rest generalizing first first' rest' with
  | nil =>
      cases rest' with
      | nil =>
          rcases separates _ _ _ _ same with ⟨rfl, sameBehind⟩
          exact ⟨rfl, (List.cons.inj sameBehind).2⟩
      | cons next' rest' =>
          simp only [List.map_cons, List.map_nil, Json.commaSeparated, List.append_assoc,
            List.cons_append] at same
          exact absurd (List.cons.inj (separates _ _ _ _ same).2).1 notComma
  | cons next rest ih =>
      cases rest' with
      | nil =>
          simp only [List.map_cons, List.map_nil, Json.commaSeparated, List.append_assoc,
            List.cons_append] at same
          exact absurd (List.cons.inj (separates _ _ _ _ same).2).1.symm notComma
      | cons next' rest' =>
          simp only [List.map_cons, Json.commaSeparated, List.append_assoc, List.cons_append] at same
          rcases separates _ _ _ _ same with ⟨rfl, sameRest⟩
          rcases ih (List.cons.inj sameRest).2 with ⟨sameItems, sameBehind⟩
          exact ⟨congrArg (first :: ·) sameItems, sameBehind⟩

theorem separates_bool : Separates fun value : Bool => compact (.bool value) := by
  intro value value' behind behind' same
  cases value with
  | false =>
      cases value' with
      | false => exact ⟨rfl, List.append_cancel_left same⟩
      | true => cases (List.cons.inj same).1
  | true =>
      cases value' with
      | false => cases (List.cons.inj same).1
      | true => exact ⟨rfl, List.append_cancel_left same⟩

theorem Separates.newLine (separates : Separates write) (depth : Nat) :
    Separates fun x => Json.newLine depth ++ write x := by
  intro x y behind behind' same
  simp only [List.append_assoc] at same
  exact separates x y behind behind' (List.append_cancel_left same)

theorem indentedItems_eq_map (depth : Nat) (items : List Json) :
    indentedItems depth items = items.map (indented depth) := by
  induction items with
  | nil => rfl
  | cons item rest ih => rw [indentedItems, ih, List.map_cons]

theorem exists_block_cons (depth : Nat) (left right : Char) (first : List Char)
    (rest : List (List Char)) :
    ∃ inside, block depth left right (first :: rest) = left :: '\n' :: inside := by
  cases rest with
  | nil => exact ⟨_, rfl⟩
  | cons next rest => exact ⟨_, rfl⟩

theorem block_map_append (depth : Nat) (left right : Char) (first : α) (rest : List α)
    (behind : List Char) :
    block depth left right ((first :: rest).map write) ++ behind =
      left :: (commaSeparated ((first :: rest).map (newLine (depth + 1) ++ write ·)) ++
        '\n' :: (List.replicate (2 * depth) ' ' ++ right :: behind)) := by
  simp [block, newLine, Function.comp_def]

theorem Separates.block (separates : Separates write) (depth : Nat) (left : Char) {right : Char}
    (visible : right ≠ '\n') :
    Separates fun items : List α => Json.block depth left right (items.map write) := by
  intro items items' behind behind' same
  dsimp only at same
  cases items with
  | nil =>
      cases items' with
      | nil => exact ⟨rfl, List.append_cancel_left same⟩
      | cons first' rest' =>
          rcases exists_block_cons depth left right (write first') (rest'.map write) with
            ⟨inside, block_eq⟩
          rw [List.map_cons, block_eq] at same
          exact absurd (List.cons.inj (List.cons.inj same).2).1 visible
  | cons first rest =>
      cases items' with
      | nil =>
          rcases exists_block_cons depth left right (write first) (rest.map write) with
            ⟨inside, block_eq⟩
          rw [List.map_cons, block_eq] at same
          exact absurd (List.cons.inj (List.cons.inj same).2).1.symm visible
      | cons first' rest' =>
          rw [block_map_append, block_map_append] at same
          rcases (separates.newLine (depth + 1)).commaSeparated (by decide) (List.cons.inj same).2 with
            ⟨sameItems, sameBehind⟩
          exact ⟨sameItems, (List.cons.inj (List.append_cancel_left sameBehind)).2⟩

end FlowLog.Json
