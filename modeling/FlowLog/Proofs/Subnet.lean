import FlowLog.Proofs.Address
import FlowLog.Proofs.Quoting
import FlowLog.Proofs.Typing
import FlowLog.Schema.FlowRecords

/-!
# Subnet conditions

A subnet condition is written with its block between two quotes, and nothing in the block is
escaped. In a condition that was read from a text nothing has to be: a block is written with
letters, digits and five marks, none of which is a quote or a backslash. What is written is the
quoted block, and it is read back.
-/

namespace FlowLog

/-! ## Blocks -/

namespace Address

theorem isAlphanum_of_isZoneChar {c : Char} (inZone : isZoneChar c = true) :
    c.isAlphanum = true ∨ c ∈ ['.', ':', '-'] := by
  simp only [isZoneChar, Bool.or_eq_true, Bool.and_eq_true, decide_eq_true_eq, beq_iff_eq,
    Char.le_def] at inZone
  delta Char.isAlphanum Char.isAlpha Char.isUpper Char.isLower
  simp only [Bool.or_eq_true, Bool.and_eq_true, decide_eq_true_eq, ge_iff_le, List.mem_cons,
    List.not_mem_nil, or_false]
  tauto

variable {text : List Char}

theorem Block.units (isBlock : Block text) :
    ∀ c ∈ text, c.isAlphanum = true ∨ c ∈ ['.', ':', '%', '-', '/'] := by
  rcases isBlock with ⟨address, length, family, rfl, known, plain, -⟩
  intro c isMember
  rcases List.mem_append.1 isMember with inAddress | behind
  · rcases units_of_mem_language (family?_eq_some.1 known) c inAddress with inZone | rfl
    · apply (isAlphanum_of_isZoneChar inZone).imp_right
      simp only [List.mem_cons, List.not_mem_nil, or_false]
      tauto
    · simp
  · rcases List.mem_cons.1 behind with rfl | inLength
    · simp
    · left
      rw [isPlainNumber_iff.1 plain] at inLength
      simp [Char.isAlphanum, Numeral.isDigit_of_mem_digits inLength]

theorem Block.count_slash (isBlock : Block text) : text.count '/' = 1 := by
  rcases isBlock with ⟨address, length, family, rfl, known, plain, -⟩
  have notInAddress : '/' ∉ address := slash_notMem (family?_eq_some.1 known)
  have notInLength : '/' ∉ length := by
    intro inLength
    rw [isPlainNumber_iff.1 plain] at inLength
    exact absurd (Numeral.isDigit_of_mem_digits inLength) (by decide)
  rw [List.count_append, List.count_cons_self, List.count_eq_zero.2 notInAddress,
    List.count_eq_zero.2 notInLength]

end Address

/-! ## Conditions -/

theorem Leaf.render_inSubnet {field block : String} (quoteless : '\'' ∉ block.toList) :
    (Leaf.inSubnet field block).render =
      "isIpv4InSubnet(" ++ field ++ ", " ++ Literal.quoted block ++ ")" := by
  have opens : ", '" = ", " ++ "'" := by decide
  have closes : "')" = "'" ++ ")" := by decide
  unfold Leaf.render
  simp only [Literal.quoted_of_notMem quoteless, opens, closes, String.append_assoc]

namespace Filter

variable {vocabulary : Vocabulary} {field block : String} {expr : Expr}

theorem inSubnet_of_withSource {source : String}
    (occurs : .inSubnet field block ∈ (expr.withSource source).leaves) :
    .inSubnet field block ∈ expr.leaves := by
  rw [Expr.leaves_withSource, List.mem_map] at occurs
  rcases occurs with ⟨condition, isLeaf, sourced⟩
  cases condition with
  | inSubnet _ _ =>
      cases sourced
      exact isLeaf
  | _ => cases sourced

theorem inSubnet_notMem_comparison {name source value : String} {operator : Operator} :
    .inSubnet field block ∉ (Expr.leaf ((comparison name operator value).withSource source)).leaves := by
  cases operator <;> simp [Expr.leaves, comparison, Leaf.withSource]

theorem block_of_condition {fieldClass : FieldClass} {name value : String} {operator : Operator}
    (takes : operator ∈ fieldClass.operators) (checked : fieldClass.checkValue value = .ok ())
    (accepted : fieldClass.condition name operator value = .ok expr)
    (occurs : .inSubnet field block ∈ expr.leaves) : Address.Block block.toList := by
  rcases FieldClass.admitsLeaves_of_condition takes checked accepted _ occurs with ⟨-, admits⟩
  cases admits with
  | membership isBlock => exact isBlock

theorem block_of_readClause {text : List Char} (accepted : readClause vocabulary text = .ok expr)
    (occurs : .inSubnet field block ∈ expr.leaves) : Address.Block block.toList := by
  rcases readClause_cases accepted with ⟨clause, -, -, read⟩
  rcases readParts_cases read with ⟨computation, -, -, rfl⟩ |
    ⟨fieldClass, -, takes, checked, ⟨computation, condition, -, isCondition, rfl⟩ | ⟨-, isCondition⟩⟩
  · exact absurd occurs inSubnet_notMem_comparison
  · exact block_of_condition takes checked isCondition (inSubnet_of_withSource occurs)
  · exact block_of_condition takes checked isCondition occurs

theorem block_of_parse {text : String} (parsed : parse vocabulary text = .ok (some expr))
    (occurs : .inSubnet field block ∈ expr.leaves) : Address.Block block.toList := by
  have inAll : ∀ field block, .inSubnet field block ∈ expr.leaves → Address.Block block.toList := by
    apply parse_induction _ _ parsed
    · intro clause condition accepted field block
      exact block_of_readClause accepted
    · intro connective children _ each field block occurs
      rw [Expr.leaves_node, List.mem_flatMap] at occurs
      rcases occurs with ⟨child, isChild, inChild⟩
      exact each child isChild field block inChild
  exact inAll field block occurs

/-- The block of a subnet condition that was read from a text is written with letters, digits and
five marks, and has one slash. So it is written as if it were quoted, and reading the query gives it
back whatever follows. -/
theorem parse_subnet_plain {text : String} (parsed : parse vocabulary text = .ok (some expr))
    (occurs : .inSubnet field block ∈ expr.leaves) :
    (∀ c ∈ block.toList, c.isAlphanum = true ∨ c ∈ ['.', ':', '%', '-', '/']) ∧
      block.toList.count '/' = 1 ∧
      (Leaf.inSubnet field block).render =
        "isIpv4InSubnet(" ++ field ++ ", " ++ Literal.quoted block ++ ")" ∧
      ∀ following, Literal.read? (("'" ++ block ++ "'").toList ++ following) =
        some (block.toList, following) := by
  have isBlock := block_of_parse parsed occurs
  have quoteless : '\'' ∉ block.toList := by
    intro hasQuote
    exact absurd (isBlock.units '\'' hasQuote) (by decide)
  have plainEnd : block.toList.getLast? ≠ some '\\' := by
    intro ends
    exact absurd (isBlock.units '\\' (List.mem_of_getLast? ends)) (by decide)
  refine ⟨isBlock.units, isBlock.count_slash, ?_, ?_⟩
  · exact Leaf.render_inSubnet quoteless
  · intro following
    rw [← Literal.quoted_of_notMem quoteless]
    exact Literal.read?_of_plain_end plainEnd following

/-- A block of family 6 with a zone, for a computed field that is registered as an address. -/
theorem parse_subnet_plain_zone :
    let vocabulary : Vocabulary :=
      .ofSchema .flowRecords (Registry.flowRecords.register "duration" .address)
    let block := "fe80::1.2.3.4%eth-0.a:B/128"
    parse vocabulary "action = x or duration not like 'fe80::1.2.3.4%eth-0.a:B/128'" =
        .ok (some (.node .or [.leaf (.compare .eq "action" (.text "x") none),
          .not (.leaf (.inSubnet "end - start" block))])) ∧
      block.toList.count '/' = 1 ∧
      (Leaf.inSubnet "end - start" block).render =
        "isIpv4InSubnet(" ++ "end - start" ++ ", " ++ Literal.quoted block ++ ")" := by
  intro vocabulary block
  have parsed : parse vocabulary "action = x or duration not like 'fe80::1.2.3.4%eth-0.a:B/128'" =
      .ok (some (.node .or [.leaf (.compare .eq "action" (.text "x") none),
        .not (.leaf (.inSubnet "end - start" block))])) := by
    rw [parse, if_neg (by decide), readExpr, Outline.ofText_eq]
    rfl
  have occurs : .inSubnet "end - start" block ∈ (Expr.node .or
      [.leaf (.compare .eq "action" (.text "x") none),
        .not (.leaf (.inSubnet "end - start" block))]).leaves := by
    simp [Expr.leaves, Expr.leavesAll]
  rcases parse_subnet_plain parsed occurs with ⟨-, oneSlash, rendered, -⟩
  exact ⟨parsed, oneSlash, rendered⟩

end Filter

end FlowLog
