import Mathlib
import LoxNative.Lowering

namespace LoxNative

/-!
# What an expression means

The reference against which compiled code is measured.  Values are 64-bit words, arithmetic wraps
around, division is unsigned and undefined for the divisor zero, and the orderings compare words as
signed numbers.

A machine has only so much room for its stack, and it may run out of room before it reaches a
division by zero, or after.  `Expr.evalWithin` therefore evaluates within a given room and says
which of the two happens first.  It agrees with the plain evaluation wherever the room suffices, and
how much room suffices is the stack depth of the expression.
-/

namespace UnaryOp

/-- What an operator makes of its operand. -/
def result? : UnaryOp -> UInt64 -> Option UInt64
  | negate, value => some (0 - value)
  | not, value => some (if value = 0 then 1 else 0)
  | unlisted _, _ => none

end UnaryOp

namespace BinaryOp

/-- What an operator makes of its operands. -/
def result? : BinaryOp -> UInt64 -> UInt64 -> Option UInt64
  | equal, left, right => some (if left = right then 1 else 0)
  | notEqual, left, right => some (if left ≠ right then 1 else 0)
  | less, left, right => some (if left.toInt64 < right.toInt64 then 1 else 0)
  | lessEqual, left, right => some (if left.toInt64 ≤ right.toInt64 then 1 else 0)
  | greater, left, right => some (if right.toInt64 < left.toInt64 then 1 else 0)
  | greaterEqual, left, right => some (if right.toInt64 ≤ left.toInt64 then 1 else 0)
  | add, left, right => some (left + right)
  | subtract, left, right => some (left - right)
  | multiply, left, right => some (left * right)
  | divide, left, right => if right = 0 then none else some (left / right)
  | unlisted _, _, _ => none

/-- Whether optimisation may compute an operator in registers. -/
def isArithmetic : BinaryOp -> Bool
  | add | subtract | multiply | divide => true
  | _ => false

end BinaryOp

namespace Expr

/-- The value of an expression, if it has one. -/
def eval? : Expr -> Option UInt64
  | .missing => none
  | .literal constant => constant.value.toOption.map UInt32.toUInt64
  | .group inner => inner.eval?
  | .unary op right => right.eval?.bind op.result?
  | .binary op left right =>
      left.eval?.bind fun first => right.eval?.bind fun second => op.result? first second

/-- Whether a binary node is computed in registers: its operator is arithmetic and its operands are
literals that can be lowered. -/
def isInRegisters (optimize : Bool) (op : BinaryOp) (left right : Expr) : Bool :=
  optimize && op.isArithmetic && left.literalValue?.isSome && right.literalValue?.isSome

/-- The number of stack slots that evaluating an expression takes at its peak. -/
def stackDepth (optimize : Bool) : Expr -> Nat
  | .missing | .literal _ => 1
  | .group inner => inner.stackDepth optimize
  | .unary _ right => right.stackDepth optimize
  | .binary op left right =>
      if isInRegisters optimize op left right then 1
      else max (left.stackDepth optimize) (1 + right.stackDepth optimize)

/-- The number of stack slots that a whole program takes at its peak.  An optimised program that is
a single literal takes none. -/
def peakDepth (options : LoweringOptions) (expr : Expr) : Nat :=
  match options.optimize, expr.ungrouped with
  | true, .literal _ => 0
  | _, _ => expr.stackDepth options.optimize

/-- Why evaluation within some room stops early. -/
inductive Stop
  /-- There is no slot left for a value. -/
  | overflow
  /-- There is no value. -/
  | undefined
deriving DecidableEq

/-- Put a value, if there is one, into the next of some slots. -/
def place (room : Nat) : Option UInt64 -> Except Stop UInt64
  | none => .error .undefined
  | some value => if 0 < room then .ok value else .error .overflow

/-- Evaluate an expression with so many free stack slots, left before right.  While the right
operand is evaluated the left one occupies a slot. -/
def evalWithin (optimize : Bool) : Expr -> Nat -> Except Stop UInt64
  | .missing, _ => .error .undefined
  | .literal constant, room => place room (constant.value.toOption.map UInt32.toUInt64)
  | .group inner, room => inner.evalWithin optimize room
  | .unary op right, room => do
      let value <- right.evalWithin optimize room
      place room (op.result? value)
  | .binary op left right, room =>
      if isInRegisters optimize op left right then
        place room (Expr.binary op left right).eval?
      else do
        let first <- left.evalWithin optimize room
        let second <- right.evalWithin optimize (room - 1)
        place room (op.result? first second)

/-! ## The room that evaluation takes -/

theorem stackDepth_pos (optimize : Bool) (expr : Expr) : 0 < expr.stackDepth optimize := by
  induction expr with
  | missing => exact Nat.one_pos
  | literal constant => exact Nat.one_pos
  | group inner ih => exact ih
  | unary op right ih => exact ih
  | binary op left right ihLeft ihRight =>
      rw [stackDepth]
      split
      · exact Nat.one_pos
      · exact Nat.lt_of_lt_of_le ihLeft (Nat.le_max_left _ _)

theorem place_eq_ok {room : Nat} {value? : Option UInt64} {value : UInt64} :
    place room value? = .ok value <-> value? = some value ∧ 0 < room := by
  cases value? with
  | none => simp [place]
  | some found =>
      by_cases free : 0 < room <;> simp [place, free]

/-- The three outcomes of evaluating an operand, for the operator behind it. -/
theorem evalWithin_unary (optimize : Bool) (op : UnaryOp) (right : Expr) (room : Nat) :
    (Expr.unary op right).evalWithin optimize room =
      match right.evalWithin optimize room with
      | .ok value => place room (op.result? value)
      | .error stop => .error stop := by
  rw [evalWithin]
  cases right.evalWithin optimize room <;> rfl

theorem evalWithin_binary {optimize : Bool} {op : BinaryOp} {left right : Expr}
    (stacked : isInRegisters optimize op left right = false) (room : Nat) :
    (Expr.binary op left right).evalWithin optimize room =
      match left.evalWithin optimize room with
      | .error stop => .error stop
      | .ok first =>
          match right.evalWithin optimize (room - 1) with
          | .error stop => .error stop
          | .ok second => place room (op.result? first second) := by
  rw [evalWithin, stacked]
  cases left.evalWithin optimize room with
  | error stop => rfl
  | ok first => cases right.evalWithin optimize (room - 1) <;> rfl

/-- Evaluation within some room succeeds exactly if there is a value and the room is enough, and
then it gives that value. -/
theorem evalWithin_eq_ok (optimize : Bool) (expr : Expr) (room : Nat) (value : UInt64) :
    expr.evalWithin optimize room = .ok value <->
      expr.eval? = some value ∧ expr.stackDepth optimize ≤ room := by
  induction expr generalizing room value with
  | missing => simp [evalWithin, eval?]
  | literal constant => exact place_eq_ok
  | group inner ih => exact ih room value
  | unary op right ih =>
      have positive := stackDepth_pos optimize right
      rw [evalWithin_unary, eval?, stackDepth, Option.bind_eq_some_iff]
      constructor
      · intro done
        split at done
        · rename_i operand evaluated
          have known := (ih room operand).mp evaluated
          exact ⟨⟨operand, known.1, (place_eq_ok.mp done).1⟩, known.2⟩
        · cases done
      · rintro ⟨⟨operand, known, applied⟩, enough⟩
        rw [(ih room operand).mpr ⟨known, enough⟩]
        exact place_eq_ok.mpr ⟨applied, Nat.lt_of_lt_of_le positive enough⟩
  | binary op left right ihLeft ihRight =>
      cases stacked : isInRegisters optimize op left right with
      | true =>
          rw [evalWithin, stackDepth, stacked]
          exact place_eq_ok
      | false =>
          have positive := stackDepth_pos optimize left
          rw [evalWithin_binary stacked, eval?, stackDepth, stacked, Option.bind_eq_some_iff]
          constructor
          · intro done
            split at done
            · cases done
            · rename_i first evaluatedLeft
              split at done
              · cases done
              · rename_i second evaluatedRight
                have knownLeft := (ihLeft room first).mp evaluatedLeft
                have knownRight := (ihRight (room - 1) second).mp evaluatedRight
                refine ⟨⟨first, knownLeft.1, ?_⟩, ?_⟩
                · exact Option.bind_eq_some_iff.mpr ⟨second, knownRight.1, (place_eq_ok.mp done).1⟩
                · exact Nat.max_le.mpr ⟨knownLeft.2, by omega⟩
          · rintro ⟨⟨first, knownLeft, rest⟩, enough⟩
            rcases Option.bind_eq_some_iff.mp rest with ⟨second, knownRight, applied⟩
            rcases Nat.max_le.mp enough with ⟨enoughLeft, enoughRight⟩
            rw [(ihLeft room first).mpr ⟨knownLeft, enoughLeft⟩]
            rw [(ihRight (room - 1) second).mpr ⟨knownRight, by omega⟩]
            exact place_eq_ok.mpr ⟨applied, by omega⟩

theorem place_eq_overflow {room : Nat} {value? : Option UInt64} :
    place room value? = .error .overflow <-> value?.isSome = true ∧ room = 0 := by
  cases value? with
  | none => simp [place]
  | some found => rcases room with _ | room <;> simp [place]

theorem place_eq_undefined {room : Nat} {value? : Option UInt64} :
    place room value? = .error .undefined <-> value? = none := by
  cases value? with
  | none => simp [place]
  | some found => rcases room with _ | room <;> simp [place]

/-- Evaluation runs out of slots only where the depth of the expression exceeds them. -/
theorem lt_stackDepth_of_overflow {optimize : Bool} {expr : Expr} {room : Nat}
    (stopped : expr.evalWithin optimize room = .error .overflow) :
    room < expr.stackDepth optimize := by
  induction expr generalizing room with
  | missing => cases stopped
  | literal constant =>
      rw [(place_eq_overflow.mp stopped).2]
      exact Nat.one_pos
  | group inner ih => exact ih stopped
  | unary op right ih =>
      rw [evalWithin_unary] at stopped
      split at stopped
      · rw [(place_eq_overflow.mp stopped).2]
        exact stackDepth_pos optimize _
      · rename_i stop evaluated
        cases stopped
        exact ih evaluated
  | binary op left right ihLeft ihRight =>
      cases stacked : isInRegisters optimize op left right with
      | true =>
          rw [evalWithin, stacked] at stopped
          rw [(place_eq_overflow.mp stopped).2]
          exact stackDepth_pos optimize _
      | false =>
          rw [evalWithin_binary stacked] at stopped
          rw [stackDepth, stacked]
          split at stopped
          · rename_i stop evaluated
            cases stopped
            exact Nat.lt_of_lt_of_le (ihLeft evaluated) (Nat.le_max_left _ _)
          · split at stopped
            · rename_i stop evaluated
              cases stopped
              have deeper := ihRight evaluated
              exact Nat.lt_of_lt_of_le (by omega) (Nat.le_max_right _ _)
            · rw [(place_eq_overflow.mp stopped).2]
              exact Nat.lt_of_lt_of_le (stackDepth_pos optimize left) (Nat.le_max_left _ _)

/-- Evaluation within some room is undefined only where there is no value. -/
theorem eval?_of_undefined {optimize : Bool} {expr : Expr} {room : Nat}
    (stopped : expr.evalWithin optimize room = .error .undefined) : expr.eval? = none := by
  induction expr generalizing room with
  | missing => rfl
  | literal constant => exact place_eq_undefined.mp stopped
  | group inner ih => exact ih stopped
  | unary op right ih =>
      rw [evalWithin_unary] at stopped
      rw [eval?]
      split at stopped
      · rename_i operand evaluated
        rw [((evalWithin_eq_ok _ _ _ _).mp evaluated).1]
        exact place_eq_undefined.mp stopped
      · rename_i stop evaluated
        cases stopped
        rw [ih evaluated]
        rfl
  | binary op left right ihLeft ihRight =>
      cases stacked : isInRegisters optimize op left right with
      | true =>
          rw [evalWithin, stacked] at stopped
          exact place_eq_undefined.mp stopped
      | false =>
          rw [evalWithin_binary stacked] at stopped
          rw [eval?]
          split at stopped
          · rename_i stop evaluated
            cases stopped
            rw [ihLeft evaluated]
            rfl
          · rename_i first evaluatedLeft
            rw [((evalWithin_eq_ok _ _ _ _).mp evaluatedLeft).1, Option.bind_some]
            split at stopped
            · rename_i stop evaluated
              cases stopped
              rw [ihRight evaluated]
              rfl
            · rename_i second evaluatedRight
              rw [((evalWithin_eq_ok _ _ _ _).mp evaluatedRight).1, Option.bind_some]
              exact place_eq_undefined.mp stopped

/-! ## What optimisation changes -/

theorem isInRegisters_false (op : BinaryOp) (left right : Expr) :
    isInRegisters false op left right = false :=
  rfl

theorem stackDepth_optimized_le (expr : Expr) : expr.stackDepth true ≤ expr.stackDepth false := by
  induction expr with
  | missing => exact Nat.le_refl _
  | literal constant => exact Nat.le_refl _
  | group inner ih => exact ih
  | unary op right ih => exact ih
  | binary op left right ihLeft ihRight =>
      rw [stackDepth, stackDepth, isInRegisters_false]
      split
      · exact Nat.le_trans (stackDepth_pos false left) (Nat.le_max_left _ _)
      · exact max_le_max ihLeft (Nat.add_le_add_left ihRight 1)

/-- Where plain evaluation meets an undefined operation, so does optimised evaluation in the same or
more room: it needs no more room for what comes before. -/
theorem undefined_of_plain {expr : Expr} {room larger : Nat}
    (stopped : expr.evalWithin false room = .error .undefined) (more : room ≤ larger) :
    expr.evalWithin true larger = .error .undefined := by
  have transfer : forall (expr : Expr) {room larger : Nat} {value : UInt64}, room ≤ larger ->
      expr.evalWithin false room = .ok value -> expr.evalWithin true larger = .ok value := by
    intro expr room larger value more evaluated
    have known := (evalWithin_eq_ok _ _ _ _).mp evaluated
    have lower := stackDepth_optimized_le expr
    exact (evalWithin_eq_ok _ _ _ _).mpr ⟨known.1, by omega⟩
  induction expr generalizing room larger with
  | missing => rfl
  | literal constant => exact place_eq_undefined.mpr (place_eq_undefined.mp stopped)
  | group inner ih => exact ih stopped more
  | unary op right ih =>
      rw [evalWithin_unary] at stopped ⊢
      split at stopped
      · rename_i operand evaluated
        rw [transfer right more evaluated]
        exact place_eq_undefined.mpr (place_eq_undefined.mp stopped)
      · rename_i stop evaluated
        cases stopped
        rw [ih evaluated more]
  | binary op left right ihLeft ihRight =>
      cases stacked : isInRegisters true op left right with
      | true =>
          rw [evalWithin, stacked]
          exact place_eq_undefined.mpr (eval?_of_undefined stopped)
      | false =>
          have fewer : room - 1 ≤ larger - 1 := Nat.sub_le_sub_right more 1
          rw [evalWithin_binary (isInRegisters_false op left right)] at stopped
          rw [evalWithin_binary stacked]
          split at stopped
          · rename_i stop evaluated
            cases stopped
            rw [ihLeft evaluated more]
          · rename_i first evaluatedLeft
            rw [transfer left more evaluatedLeft]
            split at stopped
            · rename_i stop evaluated
              cases stopped
              simp only [ihRight evaluated fewer]
            · rename_i second evaluatedRight
              simp only [transfer right fewer evaluatedRight]
              exact place_eq_undefined.mpr (place_eq_undefined.mp stopped)

end Expr

end LoxNative
