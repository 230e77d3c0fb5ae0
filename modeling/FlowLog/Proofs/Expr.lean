import Mathlib.Data.List.Basic
import FlowLog.Filter.Expr

/-!
# Expressions as trees

A function on expressions comes with a function on lists of them. The second is a list operation in
every case, and with that written out `Expr.induction` is the only induction that expressions need.

An expression has a value once each leaf is true or false. It is populated if every connective has
operands, and then what is written for it is not empty.
-/

namespace FlowLog.Expr

@[induction_eliminator]
theorem induction {motive : Expr → Prop} (leaf : ∀ condition, motive (.leaf condition))
    (node : ∀ connective children, (∀ child ∈ children, motive child) →
      motive (.node connective children))
    (not : ∀ child, motive child → motive (.not child)) (expr : Expr) : motive expr :=
  match expr with
  | .leaf condition => leaf condition
  | .node connective children =>
      node connective children fun child _ => induction leaf node not child
  | .not child => not child (induction leaf node not child)

theorem renderAll_eq_map (children : List Expr) : renderAll children = children.map render := by
  induction children with
  | nil => rfl
  | cons child rest ih => rw [renderAll, ih, List.map_cons]

theorem render_and (children : List Expr) :
    (Expr.node .and children).render = " and ".intercalate (children.map render) := by
  rw [render, renderAll_eq_map]

theorem render_or {children : List Expr} (nonempty : children ≠ []) :
    (Expr.node .or children).render = "(" ++ " or ".intercalate (children.map render) ++ ")" := by
  rcases List.exists_cons_of_ne_nil nonempty with ⟨first, rest, rfl⟩
  rw [render, renderAll_eq_map]
  simp

theorem leavesAll_eq_flatMap (children : List Expr) : leavesAll children = children.flatMap leaves := by
  induction children with
  | nil => rfl
  | cons child rest ih => rw [leavesAll, ih, List.flatMap_cons]

theorem leaves_node (connective : Connective) (children : List Expr) :
    (Expr.node connective children).leaves = children.flatMap leaves := by
  rw [leaves, leavesAll_eq_flatMap]

theorem fields_node (connective : Connective) (children : List Expr) :
    (Expr.node connective children).fields = children.flatMap fields := by
  rw [fields, leaves_node, List.map_flatMap]
  rfl

/-- A function that goes through an expression and changes the leaves alone does so one by one. -/
theorem leaves_map {onLeaf : Leaf → Leaf} {onExpr : Expr → Expr}
    (leaf : ∀ condition, onExpr (.leaf condition) = .leaf (onLeaf condition))
    (node : ∀ connective children, onExpr (.node connective children) =
      .node connective (children.map onExpr))
    (not : ∀ child, onExpr (.not child) = .not (onExpr child)) (expr : Expr) :
    (onExpr expr).leaves = expr.leaves.map onLeaf := by
  induction expr with
  | leaf condition =>
      rw [leaf]
      rfl
  | node connective children ih =>
      rw [node, leaves_node, leaves_node, List.flatMap_map, List.map_flatMap]
      exact List.flatMap_congr ih
  | not child ih =>
      rw [not]
      exact ih

theorem withSourceAll_eq_map (source : String) (children : List Expr) :
    withSourceAll source children = children.map (withSource source) := by
  induction children with
  | nil => rfl
  | cons child rest ih => rw [withSourceAll, ih, List.map_cons]

theorem leaves_withSource (source : String) (expr : Expr) :
    (expr.withSource source).leaves = expr.leaves.map (Leaf.withSource source) := by
  apply leaves_map
  · intro condition
    rw [withSource]
  · intro connective children
    rw [withSource, withSourceAll_eq_map]
  · intro child
    rw [withSource]

mutual

/-- The value of an expression when each leaf is true or false. -/
def value (assignment : Leaf → Bool) : Expr → Bool
  | .leaf condition => assignment condition
  | .node .and children => (values assignment children).all id
  | .node .or children => (values assignment children).any id
  | .not child => !value assignment child

/-- The values of some expressions. -/
def values (assignment : Leaf → Bool) : List Expr → List Bool
  | [] => []
  | child :: rest => value assignment child :: values assignment rest

end

theorem values_eq_map (assignment : Leaf → Bool) (children : List Expr) :
    values assignment children = children.map (value assignment) := by
  induction children with
  | nil => rfl
  | cons child rest ih => rw [values, ih, List.map_cons]

theorem value_and (assignment : Leaf → Bool) (children : List Expr) :
    (Expr.node .and children).value assignment = children.all (value assignment) := by
  rw [value, values_eq_map, List.all_map]
  rfl

theorem value_or (assignment : Leaf → Bool) (children : List Expr) :
    (Expr.node .or children).value assignment = children.any (value assignment) := by
  rw [value, values_eq_map, List.any_map]
  rfl

theorem all_congr_children {children : List Expr} {first second : Expr → Bool}
    (same : ∀ child ∈ children, first child = second child) :
    children.all first = children.all second := by
  rw [Bool.eq_iff_iff, List.all_eq_true, List.all_eq_true]
  exact forall₂_congr fun child isChild => by rw [same child isChild]

theorem any_congr_children {children : List Expr} {first second : Expr → Bool}
    (same : ∀ child ∈ children, first child = second child) :
    children.any first = children.any second := by
  rw [Bool.eq_iff_iff, List.any_eq_true, List.any_eq_true]
  exact exists_congr fun child => and_congr_right fun isChild => by rw [same child isChild]

/-- The value depends on no more than the leaves that occur. -/
theorem value_congr {first second : Leaf → Bool} {expr : Expr}
    (agree : ∀ condition ∈ expr.leaves, first condition = second condition) :
    expr.value first = expr.value second := by
  induction expr with
  | leaf condition => simpa [value, leaves] using agree
  | node connective children ih =>
      simp only [leaves_node, List.mem_flatMap, forall_exists_index, and_imp] at agree
      have same : ∀ child ∈ children, child.value first = child.value second := fun child isChild =>
        ih child isChild fun condition isLeaf => agree condition child isChild isLeaf
      cases connective with
      | and => rw [value_and, value_and, all_congr_children same]
      | or => rw [value_or, value_or, any_congr_children same]
  | not child ih =>
      rw [value, value, ih agree]

/-- Expressions in which every connective has operands. -/
inductive Populated : Expr → Prop
  | leaf (condition : Leaf) : Populated (.leaf condition)
  | node {connective : Connective} {children : List Expr} (nonempty : children ≠ [])
      (each : ∀ child ∈ children, Populated child) : Populated (.node connective children)
  | not {child : Expr} (populated : Populated child) : Populated (.not child)

theorem render_leaf_ne_empty (condition : Leaf) : (Expr.leaf condition).render ≠ "" := by
  intro isEmpty
  unfold render Leaf.render at isEmpty
  cases condition <;> simp [Literal.quoted] at isEmpty

theorem Populated.render_ne_empty {expr : Expr} (populated : expr.Populated) : expr.render ≠ "" := by
  induction populated with
  | leaf condition => exact render_leaf_ne_empty condition
  | @node connective children nonempty _ ih =>
      cases connective with
      | and =>
          rw [render_and]
          match children with
          | [] => exact absurd rfl nonempty
          | [single] => simpa using ih single List.mem_cons_self
          | first :: second :: rest => simp
      | or =>
          rw [render_or nonempty]
          simp
  | not _ _ =>
      rw [render]
      simp

end FlowLog.Expr
