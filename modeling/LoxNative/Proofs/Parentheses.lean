import Mathlib
import LoxNative.Proofs.FirstDefect
import LoxNative.Proofs.LayoutIndependence

namespace LoxNative

/-!
# Parentheses do not change lowering

A tree keeps the parentheses of its source, but they have done their work once it is built.  Taking
all of them away, at every depth, leaves the other nodes in the order in which lowering visits them.

Lowering looks through parentheses in three places: where it lowers a node, where it asks whether
both operands of an operator are literals, and where it asks whether the whole tree is one.  Each of
them gives the same answer for a tree and for the tree without its parentheses, so both are lowered
to one program, or refused with one error.
-/

namespace Expr

/-- Whether a tree stands in parentheses. -/
def isGroup : Expr -> Bool
  | .group _ => true
  | _ => false

/-- A tree without its parentheses, at every depth. -/
def stripped : Expr -> Expr
  | .missing => .missing
  | .literal constant => .literal constant
  | .unary op right => .unary op right.stripped
  | .binary op left right => .binary op left.stripped right.stripped
  | .group inner => inner.stripped

theorem isGroup_stripped (expr : Expr) : expr.stripped.isGroup = false := by
  induction expr with
  | group inner ih => exact ih
  | _ => rfl

/-- Taking parentheses away leaves the other nodes, in the same order. -/
theorem postOrder_stripped (expr : Expr) :
    expr.stripped.postOrder = (expr.postOrder.filter fun node => !node.isGroup).map stripped := by
  induction expr with
  | missing => rfl
  | literal constant => rfl
  | group inner ih =>
      have dropped : ([Expr.group inner].filter fun node => !node.isGroup) = [] := rfl
      rw [stripped, postOrder, List.filter_append, dropped, List.append_nil]
      exact ih
  | unary op right ih =>
      have kept : ([Expr.unary op right].filter fun node => !node.isGroup) = [.unary op right] :=
        rfl
      rw [stripped, postOrder, postOrder, List.filter_append, List.map_append, kept, ih]
      rfl
  | binary op left right ihLeft ihRight =>
      have kept : ([Expr.binary op left right].filter fun node => !node.isGroup) =
          [.binary op left right] := rfl
      rw [stripped, postOrder, postOrder, List.filter_append, List.filter_append, List.map_append,
        List.map_append, kept, ihLeft, ihRight]
      rfl

/-! ## The three places -/

/-- A tree is a literal inside its parentheses exactly if it is that literal without them. -/
theorem ungrouped_stripped {expr : Expr} {constant : Literal} :
    expr.stripped.ungrouped = .literal constant <-> expr.ungrouped = .literal constant := by
  induction expr with
  | group inner ih => exact ih
  | literal own => exact Iff.rfl
  | _ => exact ⟨nofun, nofun⟩

theorem literalValue?_stripped (expr : Expr) :
    expr.stripped.literalValue? = expr.literalValue? := by
  induction expr with
  | group inner ih => exact ih
  | _ => rfl

/-- Parentheses do not change the code of a tree.  The induction is over the tree; at an operator,
optimisation asks for the values of both operands and takes the same way for the operands without
parentheses. -/
theorem emit_stripped (options : LoweringOptions) (expr : Expr) (done : Array Idiom) :
    expr.stripped.emit options done = expr.emit options done := by
  induction expr generalizing done with
  | missing => rfl
  | literal constant => rfl
  | group inner ih => exact ih done
  | unary op right ih => rw [stripped, emit, emit, ih]
  | binary op left right ihLeft ihRight =>
      have same : constantIdiom? op left.stripped right.stripped =
          constantIdiom? op left right := by
        rw [constantIdiom?, constantIdiom?, literalValue?_stripped, literalValue?_stripped]
      rw [stripped, emit, emit, same, ihLeft]
      simp only [ihRight]

end Expr

namespace Program

/-- A tree and the tree without its parentheses are both exited with at once, or both lowered on the
stack. -/
theorem ofExpr_stripped (options : LoweringOptions) (expr : Expr) :
    ofExpr options expr.stripped = ofExpr options expr := by
  by_cases immediate : options.optimize = true ∧ exists constant, expr.ungrouped = .literal constant
  · rcases immediate with ⟨optimized, constant, same⟩
    rw [ofExpr_eq_exit optimized same, ofExpr_eq_exit optimized (Expr.ungrouped_stripped.mpr same)]
  · have other :
        options.optimize = false ∨ forall constant, expr.ungrouped ≠ .literal constant := by
      rcases not_and_or.mp immediate with plain | notLiteral
      · exact Or.inl (Bool.eq_false_iff.mpr plain)
      · exact Or.inr (not_exists.mp notLiteral)
    have strippedOther :
        options.optimize = false ∨ forall constant, expr.stripped.ungrouped ≠ .literal constant :=
      other.imp_right fun notLiteral constant same =>
        notLiteral constant (Expr.ungrouped_stripped.mp same)
    rw [ofExpr_eq_around other, ofExpr_eq_around strippedOther, Expr.emit_stripped]

/-- Parentheses do not change lowering.  Without its parentheses a tree has the same nodes
otherwise, in the same order and none of them in parentheses, and with either choice of options it
is lowered to the same program or refused with the same error. -/
theorem parentheses_do_not_change_lowering (options : LoweringOptions) (expr : Expr) :
    expr.stripped.postOrder = (expr.postOrder.filter fun node => !node.isGroup).map Expr.stripped ∧
      (forall node, node ∈ expr.stripped.postOrder -> node.isGroup = false) ∧
      ofExpr options expr.stripped = ofExpr options expr := by
  refine ⟨expr.postOrder_stripped, fun node member => ?_, ofExpr_stripped options expr⟩
  rw [Expr.postOrder_stripped] at member
  rcases List.mem_map.mp member with ⟨origin, -, rfl⟩
  exact origin.isGroup_stripped

/-- Parentheses around one literal of a sum, and around the sum, leave it to be computed in
registers. -/
example :
    ofExpr ⟨true⟩ (.group (.binary .add (.group (.group (.literal ⟨.number, "1", 1⟩)))
      (.literal ⟨.truth, "true", 1⟩))) =
    .ok (ofIdioms [.binaryValue .add 1 1, .pushRegister .rax, .popRegister .rax,
      .exit (some (.register .rax))]) := by
  decide +kernel

end Program

end LoxNative
