import FlowLog.Proofs.Expr

/-!
# Sources

The mark that `withSource` leaves on an expression says under which name its leaves are checked and
nothing else. The text of the expression stays the same, and of several marks only the last one
counts. `withSource_only_renames` says which names an expression refers to after it was marked: the
source, once for each leaf that can be marked, and the field of every subnet condition, in the
places they had before.
-/

namespace FlowLog

namespace Leaf

/-- Whether a leaf can be marked with a source; a subnet condition cannot. -/
def isMarkable : Leaf → Bool
  | .compare _ _ _ _ => true
  | .like _ _ _ _ => true
  | .inSubnet _ _ => false

theorem render_withSource (source : String) (condition : Leaf) :
    (condition.withSource source).render = condition.render := by
  cases condition <;> rfl

theorem withSource_withSource (first second : String) (condition : Leaf) :
    (condition.withSource first).withSource second = condition.withSource second := by
  cases condition <;> rfl

theorem name_withSource (source : String) (condition : Leaf) :
    (condition.withSource source).name = if condition.isMarkable then source else condition.name := by
  cases condition <;> rfl

end Leaf

namespace Expr

theorem withSource_node (source : String) (connective : Connective) (children : List Expr) :
    (Expr.node connective children).withSource source =
      .node connective (children.map (withSource source)) := by
  rw [withSource, withSourceAll_eq_map]

theorem render_withSource (source : String) (expr : Expr) :
    (expr.withSource source).render = expr.render := by
  induction expr with
  | leaf condition =>
      rw [withSource, render, render, Leaf.render_withSource]
  | node connective children ih =>
      have same : (children.map (withSource source)).map render = children.map render := by
        rw [List.map_map]
        exact List.map_congr_left ih
      rw [withSource_node]
      cases connective with
      | and => rw [render_and, render_and, same]
      | or =>
          by_cases nonempty : children = []
          · rw [nonempty, List.map_nil]
          · rw [render_or nonempty, render_or (mt List.map_eq_nil_iff.1 nonempty), same]
  | not child ih => rw [withSource, render, render, ih]

theorem withSource_withSource (first second : String) (expr : Expr) :
    (expr.withSource first).withSource second = expr.withSource second := by
  induction expr with
  | leaf condition =>
      rw [withSource, withSource, withSource, Leaf.withSource_withSource]
  | node connective children ih =>
      rw [withSource_node, withSource_node, withSource_node, List.map_map]
      exact congrArg (Expr.node connective) (List.map_congr_left ih)
  | not child ih => rw [withSource, withSource, withSource, ih]

theorem fields_withSource (source : String) (expr : Expr) :
    (expr.withSource source).fields =
      expr.leaves.map fun condition => if condition.isMarkable then source else condition.name := by
  rw [fields, leaves_withSource, List.map_map]
  exact List.map_congr_left fun condition _ => Leaf.name_withSource source condition

/-- A mark changes nothing in the text of an expression and replaces any earlier mark. Leaf by leaf,
the name that an expression refers to becomes the source where the leaf can be marked, and stays
where it cannot. -/
theorem withSource_only_renames (expr : Expr) (source later : String) :
    (expr.withSource source).render = expr.render ∧
      (expr.withSource source).withSource later = expr.withSource later ∧
      (expr.withSource source).fields = List.zipWith
        (fun condition name => if condition.isMarkable then source else name)
        expr.leaves expr.fields := by
  refine ⟨render_withSource source expr, withSource_withSource source later expr, ?_⟩
  rw [fields_withSource, fields, List.zipWith_map_right, List.zipWith_self]

/-- A marked comparison and a subnet condition under a negation. -/
example :
    ((Expr.node .or [.leaf (.compare .gt "end - start" (.number 5) (some "duration")),
        .not (.leaf (.inSubnet "srcaddr" "10.0.0.0/8"))]).withSource "flow").fields =
      ["flow", "srcaddr"] := by
  rfl

end Expr

end FlowLog
