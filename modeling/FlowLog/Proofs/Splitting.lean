import FlowLog.Filter.Outline
import FlowLog.Proofs.Text

/-!
# Cutting a text at its connectives

`Outline.split` reads a text unit by unit and remembers the depth of parentheses and the open quote.
Here this scan is described by the texts it passes over.

A text is closed when it closes every quote and every parenthesis that it opens, in the right order.
A closed text leads from the start of a text back to it. A sealed text is a closed one in which no
cut is made, whatever follows it, and which does not start with the connective itself. Any closed
text between parentheses is sealed.

The main result is `split_text`: a chain of sealed operands, with the connective between each two
spelled in any letter case, is cut into exactly its operands. Operands joined by the other
connective are sealed together, which is what lets the two levels of the grammar be read one after
the other.
-/

namespace FlowLog

namespace Outline

/-! ## Closed texts -/

/-- Whether the units from here on close what is open: `depth` parentheses and perhaps a quote. -/
def closesFrom : (depth : Nat) → (quote : Option Char) → List Char → Bool
  | depth, none, [] => depth == 0
  | _, some _, [] => false
  | depth, some quote, c :: rest => closesFrom depth (if c = quote then none else some quote) rest
  | depth, none, c :: rest =>
      if Clause.isQuote c then closesFrom depth (some c) rest
      else if c = '(' then closesFrom (depth + 1) none rest
      else if c = ')' then depth != 0 && closesFrom (depth - 1) none rest
      else closesFrom depth none rest

/-- A text that closes every quote and parenthesis that it opens, and no others. -/
def Closed (text : List Char) : Prop := closesFrom 0 none text = true

instance : DecidablePred Closed := fun text =>
  inferInstanceAs (Decidable (closesFrom 0 none text = true))

/-- Units that close everything down to a depth of `outer` may be followed by units that close the
rest. -/
theorem closesFrom_append {left right : List Char} {depth outer : Nat} {quote : Option Char}
    (leftCloses : closesFrom depth quote left = true)
    (rightCloses : closesFrom outer none right = true) :
    closesFrom (outer + depth) quote (left ++ right) = true := by
  fun_induction closesFrom depth quote left with
  | case1 depth =>
      have isZero : depth = 0 := by simpa using leftCloses
      simpa [isZero] using rightCloses
  | case2 => simp at leftCloses
  | case3 depth quote c rest ih =>
      rw [List.cons_append, closesFrom]
      exact ih leftCloses
  | case4 depth c rest isQuote ih =>
      rw [List.cons_append, closesFrom, if_pos isQuote]
      exact ih leftCloses
  | case5 depth rest notQuote ih =>
      rw [List.cons_append, closesFrom, if_neg notQuote, if_pos rfl]
      exact ih leftCloses
  | case6 depth rest notQuote notOpening ih =>
      rcases Bool.and_eq_true_iff.1 leftCloses with ⟨isOpen, restCloses⟩
      have positive : depth ≠ 0 := by simpa using isOpen
      have lowered : outer + depth - 1 = outer + (depth - 1) := by omega
      rw [List.cons_append, closesFrom, if_neg notQuote, if_neg notOpening, if_pos rfl, lowered,
        ih restCloses]
      simp [positive]
  | case7 depth c rest notQuote notOpening notClosing ih =>
      rw [List.cons_append, closesFrom, if_neg notQuote, if_neg notOpening, if_neg notClosing]
      exact ih leftCloses

namespace Closed

theorem append {left right : List Char} (leftClosed : Closed left) (rightClosed : Closed right) :
    Closed (left ++ right) :=
  closesFrom_append leftClosed rightClosed

/-- A closed text between parentheses is closed. -/
theorem group {text : List Char} (closed : Closed text) : Closed ('(' :: text ++ [')']) := by
  have closing : closesFrom 1 none [')'] = true := by decide
  have inside : closesFrom (1 + 0) none (text ++ [')']) = true := closesFrom_append closed closing
  exact inside

theorem of_plain {text : List Char}
    (plain : ∀ c ∈ text, Clause.isQuote c = false ∧ c ≠ '(' ∧ c ≠ ')') : Closed text := by
  induction text with
  | nil => rfl
  | cons c rest ih =>
      rcases plain c (by simp) with ⟨notQuote, notOpening, notClosing⟩
      have restClosed : Closed rest := ih fun d isMember => plain d (by simp [isMember])
      simpa [Closed, closesFrom, notQuote, notOpening, notClosing] using restClosed

/-- A text between two quotes of a kind that does not occur in it is closed. -/
theorem quoted {quote : Char} {text : List Char} (isQuote : Clause.isQuote quote = true)
    (absent : quote ∉ text) : Closed (quote :: text ++ [quote]) := by
  have inside : closesFrom 0 (some quote) (text ++ [quote]) = true := by
    induction text with
    | nil => simp [closesFrom]
    | cons c rest ih =>
        simp only [List.mem_cons, not_or] at absent
        simpa [closesFrom, Ne.symm absent.1] using ih absent.2
  simpa [Closed, closesFrom, isQuote] using inside

/-- Quoted parentheses do not count, and neither do quoted quotes of the other kind. -/
example : Closed "action = ')\"(' and (bytes > 1)".toList := by decide

end Closed

namespace Context

/-- The context after some units. -/
def run (context : Context) (text : List Char) : Context := text.foldl step context

@[simp]
theorem run_nil (context : Context) : context.run [] = context := rfl

@[simp]
theorem run_cons (context : Context) (c : Char) (text : List Char) :
    context.run (c :: text) = (context.step c).run text := rfl

theorem step_quoted (depth : Int) (quote c : Char) :
    step ⟨depth, some quote⟩ c = ⟨depth, if c = quote then none else some quote⟩ := rfl

theorem step_quote (depth : Int) {c : Char} (isQuote : Clause.isQuote c = true) :
    step ⟨depth, none⟩ c = ⟨depth, some c⟩ := by
  simp [step, isQuote]

theorem step_plain (depth : Int) {c : Char} (notQuote : Clause.isQuote c = false)
    (notOpening : c ≠ '(') (notClosing : c ≠ ')') : step ⟨depth, none⟩ c = ⟨depth, none⟩ := by
  simp [step, notQuote, notOpening, notClosing]

@[simp]
theorem step_opening (depth : Int) : step ⟨depth, none⟩ '(' = ⟨depth + 1, none⟩ := rfl

@[simp]
theorem step_closing (depth : Int) : step ⟨depth, none⟩ ')' = ⟨depth - 1, none⟩ := rfl

@[simp]
theorem allows_quoted (depth : Int) (quote c : Char) : allows ⟨depth, some quote⟩ c = false := rfl

end Context

/-- What `closesFrom` says, as what one more unit does to the scan at any depth above `base`. -/
theorem closesFrom_cons {depth : Nat} {quote : Option Char} {c : Char} {rest : List Char} (base : Int)
    (closes : closesFrom depth quote (c :: rest) = true) :
    ∃ nextDepth nextQuote, closesFrom nextDepth nextQuote rest = true ∧
      Context.step ⟨base + depth, quote⟩ c = ⟨base + nextDepth, nextQuote⟩ := by
  cases quote with
  | some quote =>
      refine ⟨depth, if c = quote then none else some quote, ?_, Context.step_quoted _ _ _⟩
      simpa [closesFrom] using closes
  | none =>
      rw [closesFrom] at closes
      split at closes
      · rename_i isQuote
        exact ⟨depth, some c, closes, Context.step_quote _ isQuote⟩
      · rename_i notQuote
        split at closes
        · rename_i opening
          subst opening
          refine ⟨depth + 1, none, closes, ?_⟩
          simp [Int.add_assoc]
        · rename_i notOpening
          split at closes
          · rename_i closing
            subst closing
            rcases Bool.and_eq_true_iff.1 closes with ⟨isOpen, restCloses⟩
            have positive : depth ≠ 0 := by simpa using isOpen
            refine ⟨depth - 1, none, restCloses, ?_⟩
            simp only [Context.step_closing, Context.mk.injEq, and_true]
            omega
          · rename_i notClosing
            exact ⟨depth, none, closes,
              Context.step_plain _ (by simpa using notQuote) notOpening notClosing⟩

/-- Closing units lead down to the depth below everything they close. -/
theorem run_of_closesFrom {text : List Char} {depth : Nat} {quote : Option Char} (base : Int)
    (closes : closesFrom depth quote text = true) :
    Context.run ⟨base + depth, quote⟩ text = ⟨base, none⟩ := by
  induction text generalizing depth quote with
  | nil =>
      cases quote with
      | none =>
          have isZero : depth = 0 := by simpa [closesFrom] using closes
          simp [isZero]
      | some quote => simp [closesFrom] at closes
  | cons c rest ih =>
      rcases closesFrom_cons base closes with ⟨nextDepth, nextQuote, restCloses, stepped⟩
      rw [Context.run_cons, stepped]
      exact ih restCloses

theorem Closed.run {text : List Char} (closed : Closed text) (depth : Int) :
    Context.run ⟨depth, none⟩ text = ⟨depth, none⟩ := by
  have lowered := run_of_closesFrom depth closed
  simpa using lowered

theorem Closed.run_start {text : List Char} (closed : Closed text) :
    Context.start.run text = Context.start :=
  closed.run 0

/-! ## Where cuts are made -/

theorem cutsFrom_append (word : List Char) (position : Nat) (context : Context)
    (left right folded : List Char) :
    cutsFrom word position context (left ++ right) folded =
      cutsFrom word position context left folded ++
        cutsFrom word (position + left.length) (context.run left) right
          (folded.drop left.length) := by
  induction left generalizing position context folded with
  | nil => simp [cutsFrom]
  | cons c rest ih =>
      have later := ih (position + 1) (context.step c) folded.tail
      have counted : position + 1 + rest.length = position + (c :: rest).length := by
        simp only [List.length_cons]
        omega
      rw [counted, List.drop_tail] at later
      simp only [List.cons_append, cutsFrom, later, Context.run_cons, List.length_cons]
      split <;> simp

theorem cutsFrom_add (word : List Char) (position offset : Nat) (context : Context)
    (written folded : List Char) :
    cutsFrom word (position + offset) context written folded =
      (cutsFrom word position context written folded).map (· + offset) := by
  induction written generalizing position context folded with
  | nil => rfl
  | cons c rest ih =>
      have later := ih (position + 1) (context.step c) folded.tail
      have counted : position + 1 + offset = position + offset + 1 := by omega
      rw [counted] at later
      simp only [cutsFrom, later]
      split <;> simp

theorem cutsFrom_of_short {word folded : List Char} (short : folded.length < word.length)
    (position : Nat) (context : Context) (written : List Char) :
    cutsFrom word position context written folded = [] := by
  induction written generalizing position context folded with
  | nil => rfl
  | cons c rest ih =>
      have absent : word.isPrefixOf folded = false := by
        rw [Bool.eq_false_iff, ne_eq, List.isPrefixOf_iff_prefix]
        intro starts
        have := starts.length_le
        omega
      have tailShort : folded.tail.length < word.length := by
        rw [List.length_tail]
        omega
      simp [cutsFrom, absent, ih tailShort]

/-- In an aligned text the search may as well run to the end: near the end no connective fits. -/
theorem cuts_eq_cutsFrom (connective : Connective) {text : List Char} (aligned : Text.Aligned text) :
    cuts connective text = cutsFrom (word connective) 0 .start text (Text.fold text) := by
  have nonempty : 0 < (word connective).length := by simp [word]
  have lookedAt : text.take (text.length + 1 - (word connective).length) ++
      text.drop (text.length + 1 - (word connective).length) = text := List.take_append_drop _ _
  have unseen := cutsFrom_append (word connective) 0 .start
    (text.take (text.length + 1 - (word connective).length))
    (text.drop (text.length + 1 - (word connective).length)) (Text.fold text)
  rw [lookedAt] at unseen
  rw [cuts, unseen]
  have short : ((Text.fold text).drop
      (text.take (text.length + 1 - (word connective).length)).length).length <
        (word connective).length := by
    rw [List.length_drop, List.length_take, Text.length_fold aligned]
    omega
  rw [cutsFrom_of_short short, List.append_nil]

theorem word_isPrefixOf_fold_cons (connective : Connective) {c : Char} (notSpace : c ≠ ' ')
    (rest : List Char) : (word connective).isPrefixOf (Text.fold (c :: rest)) = false := by
  rw [Bool.eq_false_iff, ne_eq, List.isPrefixOf_iff_prefix]
  rintro ⟨behind, starts⟩
  cases folded : Text.foldChar c with
  | nil => exact Text.foldChar_ne_nil c folded
  | cons lower more =>
      have isSpace : ' ' = lower := by
        simpa [word, folded] using congrArg List.head? starts
      apply Text.space_notMem_foldChar notSpace
      rw [folded, isSpace]
      exact List.mem_cons_self

/-- No connective starts at a space in front of a unit below the letters. -/
theorem word_isPrefixOf_fold_space (connective : Connective) {c : Char} (low : c.toNat < 65)
    (rest : List Char) : (word connective).isPrefixOf (Text.fold (' ' :: c :: rest)) = false := by
  have notA : c ≠ 'a' := by
    rintro rfl
    exact absurd low (by decide)
  have notO : c ≠ 'o' := by
    rintro rfl
    exact absurd low (by decide)
  cases connective <;>
    simp [word, Connective.keyword, Text.foldChar_of_low low, Text.foldChar_of_low (c := ' '),
      List.isPrefixOf_cons_cons, Ne.symm notA, Ne.symm notO]

/-- Where no connective starts, no cut is made, and the search goes on behind the unit. -/
theorem cutsFrom_cons_of_absent {connective : Connective} {c : Char} {rest : List Char}
    (single : c ≠ '\u0130')
    (absent : (word connective).isPrefixOf (Text.fold (c :: rest)) = false)
    (position : Nat) (context : Context) (written : List Char) :
    cutsFrom (word connective) position context (c :: written) (Text.fold (c :: rest)) =
      cutsFrom (word connective) (position + 1) (context.step c) written (Text.fold rest) := by
  simp only [cutsFrom, absent, Text.tail_fold_cons single, Bool.and_false, Bool.false_eq_true, if_false]

theorem cutsFrom_of_spaceless (connective : Connective) {text : List Char}
    (aligned : Text.Aligned text) (spaceless : ' ' ∉ text)
    (position : Nat) (context : Context) (rest : List Char) :
    cutsFrom (word connective) position context text (Text.fold (text ++ rest)) = [] := by
  induction text generalizing position context with
  | nil => rfl
  | cons c more ih =>
      rcases Text.aligned_cons.1 aligned with ⟨single, moreAligned⟩
      simp only [List.mem_cons, not_or] at spaceless
      have absent := word_isPrefixOf_fold_cons connective (Ne.symm spaceless.1) (more ++ rest)
      rw [List.cons_append, cutsFrom_cons_of_absent single absent]
      exact ih moreAligned spaceless.2 _ _

/-- No cut is made inside parentheses, however deep they close. -/
theorem cutsFrom_of_closesFrom {text : List Char} {depth : Nat} {quote : Option Char} {base : Int}
    (inside : 0 < base) (closes : closesFrom depth quote text = true)
    (word : List Char) (position : Nat) (folded : List Char) :
    cutsFrom word position ⟨base + depth, quote⟩ text folded = [] := by
  induction text generalizing depth quote position folded with
  | nil => rfl
  | cons c rest ih =>
      rcases closesFrom_cons base closes with ⟨nextDepth, nextQuote, restCloses, stepped⟩
      have deep : base + (nextDepth : Int) ≠ 0 := by omega
      have refused : Context.allows ⟨base + depth, quote⟩ c = false := by
        simp [Context.allows, stepped, deep]
      simp only [cutsFrom, refused, Bool.false_and, Bool.false_eq_true, if_false, stepped]
      exact ih restCloses _ _

/-- No cut is made while a quote is open. -/
theorem cutsFrom_of_quoted {quote : Char} {text : List Char} (absent : quote ∉ text) (word : List Char)
    (position : Nat) (depth : Int) (folded : List Char) :
    cutsFrom word position ⟨depth, some quote⟩ (text ++ [quote]) folded = [] := by
  induction text generalizing position folded with
  | nil => simp [cutsFrom]
  | cons c rest ih =>
      simp only [List.mem_cons, not_or] at absent
      have stays : Context.step ⟨depth, some quote⟩ c = ⟨depth, some quote⟩ := by
        rw [Context.step_quoted, if_neg (Ne.symm absent.1)]
      simp only [List.cons_append, cutsFrom, Context.allows_quoted, Bool.false_and, Bool.false_eq_true,
        if_false, stays]
      exact ih absent.2 _ _

/-! ## Sealed texts -/

/-- A closed text that a connective is neither found in nor at the start of, whatever follows the
text. -/
structure Sealed (connective : Connective) (text : List Char) : Prop where
  aligned : Text.Aligned text
  closed : Closed text
  uncut : ∀ position rest,
    cutsFrom (word connective) position .start text (Text.fold (text ++ rest)) = []
  opening : ∀ rest, (word connective).isPrefixOf (Text.fold (' ' :: (text ++ rest))) = false

/-- A closed text between parentheses is sealed against both connectives. -/
theorem Closed.sealed_group {text : List Char} (closed : Closed text) (aligned : Text.Aligned text)
    (connective : Connective) : Sealed connective ('(' :: text ++ [')']) where
  aligned := by
    simp [aligned]
  closed := closed.group
  uncut position rest := by
    have entering := word_isPrefixOf_fold_cons connective (c := '(') (by decide)
      (text ++ ([')'] ++ rest))
    have leaving := word_isPrefixOf_fold_cons connective (c := ')') (by decide) rest
    have deeper : Context.start.step '(' = ⟨1 + (0 : Nat), none⟩ := by decide
    have inside : cutsFrom (word connective) (position + 1) ⟨1 + (0 : Nat), none⟩ text
        (Text.fold (text ++ ([')'] ++ rest))) = [] :=
      cutsFrom_of_closesFrom (by decide) closed _ _ _
    rw [List.append_assoc, List.cons_append, List.cons_append,
      cutsFrom_cons_of_absent (by decide) entering, cutsFrom_append, deeper, inside, List.nil_append,
      Text.drop_fold_append aligned]
    exact cutsFrom_cons_of_absent (by decide) leaving _ _ []
  opening rest := by
    cases connective <;> rfl

end Outline

/-- A connective in some letter case. -/
structure Spelling (connective : Connective) where
  text : List Char
  spells : text.map Char.toLower = connective.keyword.toList

namespace Spelling

open Outline

variable {connective : Connective}

/-- A spelled connective between single spaces. -/
def separator (spelling : Spelling connective) : List Char := ' ' :: (spelling.text ++ [' '])

theorem letter_ne (spelling : Spelling connective) {c d : Char} (isLetter : c ∈ spelling.text)
    (notLower : d.toLower ∉ connective.keyword.toList) : c ≠ d := by
  rintro rfl
  apply notLower
  rw [← spelling.spells]
  exact List.mem_map_of_mem isLetter

theorem aligned (spelling : Spelling connective) : Text.Aligned spelling.text := by
  intro isLetter
  exact spelling.letter_ne isLetter (by cases connective <;> decide) rfl

theorem spaceless (spelling : Spelling connective) : ' ' ∉ spelling.text := by
  intro isLetter
  exact spelling.letter_ne isLetter (by cases connective <;> decide) rfl

theorem fold_text (spelling : Spelling connective) :
    Text.fold spelling.text = connective.keyword.toList := by
  rw [← spelling.spells]
  apply Text.fold_eq_map
  intro c isLetter
  constructor
  · exact spelling.letter_ne isLetter (by cases connective <;> decide)
  · exact spelling.letter_ne isLetter (by cases connective <;> decide)

theorem closed_separator (spelling : Spelling connective) : Closed spelling.separator := by
  apply Closed.of_plain
  intro c isUnit
  simp only [separator, List.mem_cons, List.mem_append, List.not_mem_nil, or_false] at isUnit
  rcases isUnit with rfl | isLetter | rfl
  · decide
  · have notSingle := spelling.letter_ne (d := '\'') isLetter (by cases connective <;> decide)
    have notDouble := spelling.letter_ne (d := '"') isLetter (by cases connective <;> decide)
    have notOpening := spelling.letter_ne (d := '(') isLetter (by cases connective <;> decide)
    have notClosing := spelling.letter_ne (d := ')') isLetter (by cases connective <;> decide)
    simp [Clause.isQuote, notSingle, notDouble, notOpening, notClosing]
  · decide

theorem aligned_separator (spelling : Spelling connective) : Text.Aligned spelling.separator := by
  simp [separator, spelling.aligned]

theorem fold_separator (spelling : Spelling connective) :
    Text.fold spelling.separator = word connective := by
  simp [separator, word, spelling.fold_text, Text.foldChar]

theorem separator_append (spelling : Spelling connective) (rest : List Char) :
    spelling.separator ++ rest = ' ' :: (spelling.text ++ ' ' :: rest) := by
  simp [separator]

/-- Behind its first space a separator is not cut, unless its last space starts another one. -/
theorem cutsFrom_letters (spelling : Spelling connective) {other : Connective} {rest : List Char}
    (opening : (word other).isPrefixOf (Text.fold (' ' :: rest)) = false) (position : Nat) :
    cutsFrom (word other) position .start (spelling.text ++ [' '])
      (Text.fold (spelling.text ++ ' ' :: rest)) = [] := by
  have letters := cutsFrom_of_spaceless other spelling.aligned spelling.spaceless position .start
    (' ' :: rest)
  rw [cutsFrom_append, letters, List.nil_append, Text.drop_fold_append spelling.aligned]
  exact cutsFrom_cons_of_absent (by decide) opening _ _ []

/-- A separator is cut at its first space when the connective is the one looked for. -/
theorem cutsFrom_separator (spelling : Spelling connective) {rest : List Char}
    (opening : (word connective).isPrefixOf (Text.fold (' ' :: rest)) = false) (position : Nat) :
    cutsFrom (word connective) position .start spelling.separator
      (Text.fold (spelling.separator ++ rest)) = [position] := by
  have found : (word connective).isPrefixOf (Text.fold (spelling.separator ++ rest)) = true := by
    rw [Text.fold_append, spelling.fold_separator, List.isPrefixOf_iff_prefix]
    exact List.prefix_append _ _
  have unmoved : Context.start.step ' ' = Context.start := by decide
  have letters := spelling.cutsFrom_letters opening (position + 1)
  rw [separator_append] at found ⊢
  rw [separator, cutsFrom, Text.tail_fold_cons (by decide), unmoved, letters, found]
  rfl

/-- A separator is not cut when the other connective is looked for. -/
theorem cutsFrom_separator_of_ne (spelling : Spelling connective) {other : Connective}
    (differs : connective ≠ other) {rest : List Char}
    (opening : (word other).isPrefixOf (Text.fold (' ' :: rest)) = false) (position : Nat) :
    cutsFrom (word other) position .start spelling.separator
      (Text.fold (spelling.separator ++ rest)) = [] := by
  have absent : (word other).isPrefixOf (Text.fold (spelling.separator ++ rest)) = false := by
    rw [Text.fold_append, spelling.fold_separator]
    cases connective with
    | and =>
        cases other with
        | and => exact absurd rfl differs
        | or => rfl
    | or =>
        cases other with
        | and => rfl
        | or => exact absurd rfl differs
  have unmoved : Context.start.step ' ' = Context.start := by decide
  have letters := spelling.cutsFrom_letters opening (position + 1)
  rw [separator_append] at absent ⊢
  rw [separator, cutsFrom_cons_of_absent (by decide) absent, unmoved, letters]

end Spelling

namespace Outline

/-- Operands joined by one connective are sealed together against the other. -/
theorem Sealed.join {connective other : Connective} {left right : List Char}
    (leftSealed : Sealed other left) (rightSealed : Sealed other right)
    (spelling : Spelling connective) (differs : connective ≠ other) :
    Sealed other (left ++ (spelling.separator ++ right)) where
  aligned := by
    simp [leftSealed.aligned, spelling.aligned_separator, rightSealed.aligned]
  closed := leftSealed.closed.append (spelling.closed_separator.append rightSealed.closed)
  uncut position rest := by
    have leftUncut := leftSealed.uncut position (spelling.separator ++ (right ++ rest))
    have between := spelling.cutsFrom_separator_of_ne differs (rightSealed.opening rest)
      (position + left.length)
    have rightUncut := rightSealed.uncut (position + left.length + spelling.separator.length) rest
    simp only [List.append_assoc]
    rw [cutsFrom_append, leftUncut, leftSealed.closed.run_start,
      Text.drop_fold_append leftSealed.aligned, cutsFrom_append, between,
      spelling.closed_separator.run_start, Text.drop_fold_append spelling.aligned_separator, rightUncut]
    rfl
  opening rest := by
    have opening := leftSealed.opening (spelling.separator ++ right ++ rest)
    simpa only [List.append_assoc] using opening

/-! ## The pieces of a text -/

theorem pieces_append (left text : List Char) (width start : Nat) (positions : List Nat) :
    pieces (left ++ text) width (start + left.length) (positions.map (· + left.length)) =
      pieces text width start positions := by
  induction positions generalizing start with
  | nil => simp [pieces, Nat.add_comm start]
  | cons position rest ih =>
      have later := ih (position + width)
      have counted : position + left.length + width = position + width + left.length := by omega
      simp only [List.map_cons, pieces, counted, later]
      rw [Nat.add_comm position, Nat.add_comm start, List.take_length_add_append,
        List.drop_length_add_append]

/-- The cuts of a text that starts with a sealed operand and a separator. -/
theorem cuts_append_separator {connective : Connective} {part rest : List Char}
    (isSealed : Sealed connective part) (spelling : Spelling connective)
    (restAligned : Text.Aligned rest)
    (opening : (word connective).isPrefixOf (Text.fold (' ' :: rest)) = false) :
    cuts connective (part ++ (spelling.separator ++ rest)) =
      part.length :: (cuts connective rest).map (· + (part ++ spelling.separator).length) := by
  have aligned : Text.Aligned (part ++ (spelling.separator ++ rest)) := by
    simp [isSealed.aligned, spelling.aligned_separator, restAligned]
  have partUncut := isSealed.uncut 0 (spelling.separator ++ rest)
  have between := spelling.cutsFrom_separator opening (0 + part.length)
  have behind := cutsFrom_add (word connective) 0 (part ++ spelling.separator).length .start rest
    (Text.fold rest)
  rw [List.length_append, ← Nat.add_assoc] at behind
  rw [cuts_eq_cutsFrom connective aligned, cuts_eq_cutsFrom connective restAligned, cutsFrom_append,
    partUncut, isSealed.closed.run_start, Text.drop_fold_append isSealed.aligned, cutsFrom_append,
    between, spelling.closed_separator.run_start, Text.drop_fold_append spelling.aligned_separator,
    behind]
  simp

/-- A sealed operand and a separator are split off the front of a text. -/
theorem split_append_separator {connective : Connective} {part rest : List Char}
    (isSealed : Sealed connective part) (spelling : Spelling connective)
    (restAligned : Text.Aligned rest)
    (opening : (word connective).isPrefixOf (Text.fold (' ' :: rest)) = false) :
    split connective (part ++ (spelling.separator ++ rest)) =
      Text.trim part :: split connective rest := by
  have width : (word connective).length = spelling.separator.length := by
    rw [← spelling.fold_separator, Text.length_fold spelling.aligned_separator]
  have behind := pieces_append (part ++ spelling.separator) rest (word connective).length 0
    (cuts connective rest)
  rw [Nat.zero_add, List.length_append, ← width, List.append_assoc] at behind
  rw [split, cuts_append_separator isSealed spelling restAligned opening, pieces, List.length_append,
    ← width, behind]
  simp [split]

theorem split_of_sealed {connective : Connective} {text : List Char}
    (isSealed : Sealed connective text) : split connective text = [Text.trim text] := by
  have uncut := isSealed.uncut 0 []
  rw [List.append_nil] at uncut
  rw [split, cuts_eq_cutsFrom connective isSealed.aligned, uncut]
  rfl

end Outline

/-! ## Chains of operands -/

/-- One or more operands with a spelled connective between each two. -/
structure Chain (connective : Connective) (α : Type) where
  first : α
  rest : List (Spelling connective × α)

namespace Chain

open Outline

variable {connective other : Connective} {α : Type}

/-- The operands from left to right. -/
def operands (chain : Chain connective α) : List α := chain.first :: chain.rest.map (·.2)

theorem operands_cons (first next : α) (spelling : Spelling connective)
    (rest : List (Spelling connective × α)) :
    operands ⟨first, (spelling, next) :: rest⟩ = first :: operands ⟨next, rest⟩ := rfl

/-- The text of a chain whose operands are written as `write` says. -/
def text (write : α → List Char) (chain : Chain connective α) : List Char :=
  write chain.first ++ chain.rest.flatMap fun entry => entry.1.separator ++ write entry.2

theorem text_cons (write : α → List Char) (first next : α) (spelling : Spelling connective)
    (rest : List (Spelling connective × α)) :
    text write ⟨first, (spelling, next) :: rest⟩ =
      write first ++ (spelling.separator ++ text write ⟨next, rest⟩) := by
  simp [text]

section Text

variable {write : α → List Char}

/-- What holds of the operands and of two texts put together holds of the text of a chain. -/
theorem text_induction {motive : List Char → Prop} (chain : Chain connective α)
    (eachOperand : ∀ operand ∈ chain.operands, motive (write operand))
    (join : ∀ {left right : List Char} (spelling : Spelling connective), motive left → motive right →
      motive (left ++ (spelling.separator ++ right))) :
    motive (chain.text write) := by
  rcases chain with ⟨first, rest⟩
  induction rest generalizing first with
  | nil => simpa [text, operands] using eachOperand
  | cons entry rest ih =>
      rcases entry with ⟨spelling, next⟩
      rw [operands_cons, List.forall_mem_cons] at eachOperand
      rcases eachOperand with ⟨firstOperand, laterOperands⟩
      rw [text_cons]
      exact join spelling firstOperand (ih next laterOperands)

/-- A chain of sealed operands is sealed against the other connective. -/
theorem sealed_text (chain : Chain connective α) (differs : connective ≠ other)
    (operandsSealed : ∀ operand ∈ chain.operands, Sealed other (write operand)) :
    Sealed other (chain.text write) := by
  refine chain.text_induction operandsSealed ?_
  intro left right spelling leftSealed rightSealed
  exact leftSealed.join rightSealed spelling differs

theorem aligned_text (chain : Chain connective α)
    (operandsAligned : ∀ operand ∈ chain.operands, Text.Aligned (write operand)) :
    Text.Aligned (chain.text write) := by
  refine chain.text_induction operandsAligned ?_
  intro left right spelling leftAligned rightAligned
  rw [Text.aligned_append, Text.aligned_append]
  exact ⟨leftAligned, spelling.aligned_separator, rightAligned⟩

theorem closed_text (chain : Chain connective α)
    (operandsClosed : ∀ operand ∈ chain.operands, Closed (write operand)) :
    Closed (chain.text write) := by
  refine chain.text_induction operandsClosed ?_
  intro left right spelling leftClosed rightClosed
  exact leftClosed.append (spelling.closed_separator.append rightClosed)

theorem framed_text (chain : Chain connective α)
    (operandsFramed : ∀ operand ∈ chain.operands, Text.Framed (write operand)) :
    Text.Framed (chain.text write) := by
  refine chain.text_induction operandsFramed ?_
  intro left right spelling leftFramed rightFramed
  exact leftFramed.append rightFramed spelling.separator

/-- A chain of sealed operands is cut into its operands. -/
theorem split_text (chain : Chain connective α)
    (operandsSealed : ∀ operand ∈ chain.operands, Sealed connective (write operand)) :
    split connective (chain.text write) =
      chain.operands.map fun operand => Text.trim (write operand) := by
  rcases chain with ⟨first, rest⟩
  induction rest generalizing first with
  | nil =>
      have firstSealed := operandsSealed first (by simp [operands])
      simpa [text, operands] using split_of_sealed firstSealed
  | cons entry rest ih =>
      rcases entry with ⟨spelling, next⟩
      rw [operands_cons, List.forall_mem_cons] at operandsSealed
      rcases operandsSealed with ⟨firstSealed, laterSealed⟩
      have restAligned := aligned_text ⟨next, rest⟩ fun operand isOperand =>
        (laterSealed operand isOperand).aligned
      have opening := (laterSealed next (by simp [operands])).opening
        (rest.flatMap fun entry => entry.1.separator ++ write entry.2)
      rw [text_cons, split_append_separator firstSealed spelling restAligned opening,
        ih next laterSealed]
      rfl

end Text

end Chain

end FlowLog
