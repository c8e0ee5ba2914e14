import Mathlib
import LoxNative.Proofs.CompileDiagnostics

namespace LoxNative

/-!
# The stack under the code of an expression

Every part of an expression leaves one value on top of whatever stack it finds, and takes nothing
from below.  The depth of a stack is a natural number here, so code that is carried from one depth
to another cannot have popped a slot that was not its own.  From this follow the sums of stack
effects, for the code as a whole and for each of its beginnings.

Code belongs to a place in the tree, not to an expression as such: the two operands of `1 + 1` are
equal but are lowered one behind the other.  Places are therefore named by the way down from the
root, and lowering is followed along that way.
-/

/-! ## Code on a stack -/

namespace Idiom

theorem stackEffect_cons (instruction : Instruction) (code : List Instruction) :
    stackEffect (instruction :: code) = instruction.stackEffect + stackEffect code :=
  rfl

/-- Code that carries a stack from one depth to another, one instruction after the other, and never
asks for a slot that is not there. -/
inductive Carries : Nat -> Nat -> List Instruction -> Prop
  | nil {depth : Nat} : Carries depth depth []
  | still {before after : Nat} {instruction : Instruction} {code : List Instruction} :
      instruction.stackEffect = 0 -> Carries before after code ->
      Carries before after (instruction :: code)
  | push {before after : Nat} {instruction : Instruction} {code : List Instruction} :
      instruction.stackEffect = 1 -> Carries (before + 1) after code ->
      Carries before after (instruction :: code)
  | pop {before after : Nat} {instruction : Instruction} {code : List Instruction} :
      instruction.stackEffect = -1 -> Carries before after code ->
      Carries (before + 1) after (instruction :: code)

namespace Carries

variable {before middle after : Nat} {code first second : List Instruction}

theorem append (carries : Carries before middle first) (goesOn : Carries middle after second) :
    Carries before after (first ++ second) := by
  induction carries with
  | nil => exact goesOn
  | still effect rest ih => exact .still effect (ih goesOn)
  | push effect rest ih => exact .push effect (ih goesOn)
  | pop effect rest ih => exact .pop effect (ih goesOn)

/-- More slots below do not matter. -/
theorem above (carries : Carries before after code) (below : Nat) :
    Carries (before + below) (after + below) code := by
  induction carries with
  | nil => exact .nil
  | still effect rest ih => exact .still effect ih
  | @push before after instruction code effect rest ih =>
      apply Carries.push effect
      rw [Nat.add_right_comm]
      exact ih
  | @pop before after instruction code effect rest ih =>
      rw [Nat.add_right_comm]
      exact .pop effect ih

theorem effect_eq (carries : Carries before after code) : stackEffect code = after - before := by
  induction carries with
  | nil => exact (Int.sub_self _).symm
  | still effect rest ih | push effect rest ih | pop effect rest ih =>
      rw [stackEffect_cons, effect, ih]
      omega

/-- Whatever code has done so far, it has not popped more than was there. -/
theorem effect_nonneg (carries : Carries before after code) {front : List Instruction}
    (isFront : front <+: code) : 0 ≤ before + stackEffect front := by
  induction carries generalizing front with
  | nil =>
      rw [List.prefix_nil.mp isFront]
      exact Int.natCast_nonneg _
  | still effect rest ih | push effect rest ih | pop effect rest ih =>
      rcases List.prefix_cons_iff.mp isFront with rfl | ⟨others, rfl, inside⟩
      · exact Int.natCast_nonneg _
      · have enough := ih inside
        rw [stackEffect_cons, effect]
        omega

theorem grounded (carries : Carries 0 after code) (front : List Instruction)
    (isFront : front <+: code) :
    0 ≤ stackEffect front := by
  have enough := carries.effect_nonneg isFront
  rwa [Int.natCast_zero, Int.zero_add] at enough

end Carries

theorem carries_constant (value : UInt32) : Carries 0 1 (constant value) :=
  .still rfl (.push rfl .nil)

theorem carries_unary {op : UnaryOp} {idiom : Idiom} (found : op.idiom = .ok idiom) :
    Carries 1 1 idiom := by
  cases op with
  | negate =>
      cases found
      exact .pop rfl (.still rfl (.still rfl (.push rfl .nil)))
  | not =>
      cases found
      exact .pop rfl (.still rfl (.still rfl (.still rfl (.still rfl (.push rfl .nil)))))
  | unlisted code => cases found

theorem carries_binary {op : BinaryOp} {idiom : Idiom} (found : op.idiom = .ok idiom) :
    Carries 2 1 idiom := by
  cases op with
  | add | subtract | multiply =>
      cases found
      exact .pop rfl (.pop rfl (.still rfl (.push rfl .nil)))
  | divide =>
      cases found
      exact .pop rfl (.pop rfl (.still rfl (.still rfl (.push rfl .nil))))
  | equal | notEqual | less | lessEqual | greater | greaterEqual =>
      cases found
      exact .pop rfl (.pop rfl (.still rfl (.still rfl (.still rfl (.push rfl .nil)))))
  | unlisted code => cases found

/-- Computing in registers leaves the stack alone. -/
theorem carries_value {op : BinaryOp} {left right : UInt32} {idiom : Idiom}
    (found : op.valueIdiom? left right = some idiom) : Carries 0 0 idiom := by
  cases op with
  | add | subtract | multiply =>
      cases found
      exact .still rfl (.still rfl (.still rfl .nil))
  | divide =>
      cases found
      exact .still rfl (.still rfl (.still rfl (.still rfl .nil)))
  | _ => cases found

theorem carries_exit (status : Option Operand) : Carries 0 0 (exit status) := by
  have loads :
      (if status = some (.immediate 0) then Instruction.xor (.register .rdi) (.register .rdi)
        else ⟨.mov, some (.register .rdi), status, .equal⟩).stackEffect = 0 := by
    split <;> rfl
  exact .still loads (.still rfl (.still rfl .nil))

end Idiom

open Idiom

/-! ## Places in a tree -/

namespace Expr

/-- A step down from a node to one of its operands. -/
inductive Turn
  /-- To the only operand of a node, or to what stands in parentheses. -/
  | down
  | left
  | right
deriving DecidableEq

/-- The part of an expression at the end of a way down. -/
def at? : List Turn -> Expr -> Option Expr
  | [], expr => some expr
  | .down :: way, .group inner => inner.at? way
  | .down :: way, .unary _ right => right.at? way
  | .left :: way, .binary _ left _ => left.at? way
  | .right :: way, .binary _ _ right => right.at? way
  | _ :: _, _ => none

/-- Lowering an expression behind some idioms comes to the part at the end of a way, with the idioms
emitted until then.  The operands of a node that is computed in registers are not lowered. -/
inductive Visits (options : LoweringOptions) :
    Expr -> Array Idiom -> List Turn -> Expr -> Array Idiom -> Prop
  | here {expr : Expr} {done : Array Idiom} : Visits options expr done [] expr done
  | group {inner part : Expr} {done before : Array Idiom} {way : List Turn} :
      Visits options inner done way part before ->
      Visits options (.group inner) done (.down :: way) part before
  | unary {op : UnaryOp} {right part : Expr} {done before : Array Idiom} {way : List Turn} :
      Visits options right done way part before ->
      Visits options (.unary op right) done (.down :: way) part before
  | left {op : BinaryOp} {left right part : Expr} {done before : Array Idiom} {way : List Turn} :
      isInRegisters options.optimize op left right = false ->
      Visits options left done way part before ->
      Visits options (.binary op left right) done (.left :: way) part before
  | right {op : BinaryOp} {left right part : Expr} {done half before : Array Idiom}
      {way : List Turn} :
      isInRegisters options.optimize op left right = false -> left.emit options done = .ok half ->
      Visits options right half way part before ->
      Visits options (.binary op left right) done (.right :: way) part before

/-- A way goes through a node that is computed in registers to one of its operands. -/
def EntersRegisters (options : LoweringOptions) (expr : Expr) (way : List Turn) : Prop :=
  exists above turn below op left right, way = above ++ turn :: below ∧
    expr.at? above = some (.binary op left right) ∧
    isInRegisters options.optimize op left right = true

/-! ## The code of a part -/

section Emit

variable {options : LoweringOptions}

/-- A binary node is computed in registers, or its operands are lowered one behind the other. -/
theorem exists_of_emit_binary {op : BinaryOp} {left right : Expr} {done out : Array Idiom}
    (emitted : (Expr.binary op left right).emit options done = .ok out) :
    (isInRegisters options.optimize op left right = true ∧ exists first second idiom,
      op.valueIdiom? first second = some idiom ∧
      out = (done.push idiom).push (.pushRegister .rax)) ∨
    (isInRegisters options.optimize op left right = false ∧ exists half whole idiom,
      left.emit options done = .ok half ∧ right.emit options half = .ok whole ∧
      op.idiom = .ok idiom ∧ out = whole.push idiom) := by
  cases stacked : isInRegisters options.optimize op left right with
  | true =>
      rcases exists_of_isInRegisters stacked with ⟨first, second, idiom, -, -, chosen, constant⟩
      rw [emit, constant] at emitted
      exact Or.inl ⟨rfl, first, second, idiom, chosen, (Except.ok.inj emitted).symm⟩
  | false =>
      rw [emit, constantIdiom?_of_not_isInRegisters stacked] at emitted
      rcases exists_of_bind_eq_ok emitted with ⟨half, first, rest⟩
      rcases exists_of_bind_eq_ok rest with ⟨whole, second, rest⟩
      rcases exists_of_bind_eq_ok rest with ⟨idiom, found, rest⟩
      exact Or.inr ⟨rfl, half, whole, idiom, first, second, found, (Except.ok.inj rest).symm⟩

/-- Lowering appends code that leaves one more value.  The induction is over the tree: the operands
of a binary node lie on top of one another when its operator takes them. -/
theorem exists_carries_of_emit {expr : Expr} {done out : Array Idiom}
    (emitted : expr.emit options done = .ok out) :
    exists code, out.toList = done.toList ++ code ∧ Carries 0 1 code.flatten := by
  induction expr generalizing done out with
  | missing => cases emitted
  | literal constant =>
      rcases exists_of_bind_eq_ok emitted with ⟨value, -, rest⟩
      cases rest
      exact ⟨[.constant value], Array.toList_push, carries_constant value⟩
  | group inner ih => exact ih emitted
  | unary op right ih =>
      rcases exists_of_bind_eq_ok emitted with ⟨half, operand, rest⟩
      rcases exists_of_bind_eq_ok rest with ⟨idiom, found, rest⟩
      cases rest
      rcases ih operand with ⟨code, listed, carries⟩
      refine ⟨code ++ [idiom], by simp [listed], ?_⟩
      rw [List.flatten_append, List.flatten_singleton]
      exact carries.append (carries_unary found)
  | binary op left right ihLeft ihRight =>
      rcases exists_of_emit_binary emitted with
        ⟨-, first, second, idiom, chosen, rfl⟩ | ⟨-, half, whole, idiom, first, second, found, rfl⟩
      · refine ⟨[idiom, .pushRegister .rax], by simp, ?_⟩
        exact (carries_value chosen).append (.push rfl .nil)
      · rcases ihLeft first with ⟨leftCode, leftListed, leftCarries⟩
        rcases ihRight second with ⟨rightCode, rightListed, rightCarries⟩
        refine ⟨leftCode ++ rightCode ++ [idiom], by simp [leftListed, rightListed], ?_⟩
        rw [List.flatten_append, List.flatten_append, List.flatten_singleton]
        exact (leftCarries.append (rightCarries.above 1)).append (carries_binary found)

/-- The code of a part stands in the code of the whole, right behind what was emitted before it. -/
theorem Visits.exists_emit {expr part : Expr} {done out before : Array Idiom} {way : List Turn}
    (visits : Visits options expr done way part before)
    (emitted : expr.emit options done = .ok out) :
    exists after behind, part.emit options before = .ok after ∧
      out.toList = after.toList ++ behind := by
  induction visits generalizing out with
  | here => exact ⟨out, [], emitted, (List.append_nil _).symm⟩
  | group inside ih => exact ih emitted
  | unary inside ih =>
      rcases exists_of_bind_eq_ok emitted with ⟨half, operand, rest⟩
      rcases exists_of_bind_eq_ok rest with ⟨idiom, found, rest⟩
      cases rest
      rcases ih operand with ⟨after, behind, own, listed⟩
      exact ⟨after, behind ++ [idiom], own, by simp [listed]⟩
  | left stacked inside ih =>
      rcases exists_of_emit_binary emitted with
        ⟨inRegisters, -⟩ | ⟨-, half, whole, idiom, first, second, found, rfl⟩
      · cases stacked.symm.trans inRegisters
      · rcases ih first with ⟨after, behind, own, listed⟩
        rcases exists_carries_of_emit second with ⟨rightCode, rightListed, -⟩
        exact ⟨after, behind ++ rightCode ++ [idiom], own, by simp [listed, rightListed]⟩
  | right stacked leftEmitted inside ih =>
      rcases exists_of_emit_binary emitted with
        ⟨inRegisters, -⟩ | ⟨-, half, whole, idiom, first, second, found, rfl⟩
      · cases stacked.symm.trans inRegisters
      · cases leftEmitted.symm.trans first
        rcases ih second with ⟨after, behind, own, listed⟩
        exact ⟨after, behind ++ [idiom], own, by simp [listed]⟩

theorem EntersRegisters.cons {expr inner : Expr} {turn : Turn}
    (step : forall way, expr.at? (turn :: way) = inner.at? way) {way : List Turn}
    (enters : EntersRegisters options inner way) : EntersRegisters options expr (turn :: way) := by
  rcases enters with ⟨above, next, below, op, left, right, rfl, found, inRegisters⟩
  exact ⟨turn :: above, next, below, op, left, right, rfl, (step above).trans found, inRegisters⟩

/-- Lowering comes to every part, the operands of nodes that are computed in registers apart. -/
theorem exists_visits {expr part : Expr} {done out : Array Idiom} {way : List Turn}
    (emitted : expr.emit options done = .ok out) (found : expr.at? way = some part) :
    EntersRegisters options expr way ∨ exists before, Visits options expr done way part before := by
  induction expr generalizing done out way with
  | missing => cases emitted
  | literal constant =>
      cases way with
      | nil =>
          cases found
          exact Or.inr ⟨done, .here⟩
      | cons turn way => cases turn <;> cases found
  | group inner ih =>
      rcases way with _ | ⟨_ | _ | _, way⟩
      · cases found
        exact Or.inr ⟨done, .here⟩
      · exact (ih emitted found).imp (.cons fun _ => rfl) fun ⟨before, visits⟩ =>
          ⟨before, .group visits⟩
      · cases found
      · cases found
  | unary op right ih =>
      rcases exists_of_bind_eq_ok emitted with ⟨half, operand, rest⟩
      rcases way with _ | ⟨_ | _ | _, way⟩
      · cases found
        exact Or.inr ⟨done, .here⟩
      · exact (ih operand found).imp (.cons fun _ => rfl) fun ⟨before, visits⟩ =>
          ⟨before, .unary visits⟩
      · cases found
      · cases found
  | binary op left right ihLeft ihRight =>
      rcases way with _ | ⟨turn, way⟩
      · cases found
        exact Or.inr ⟨done, .here⟩
      · rcases exists_of_emit_binary emitted with
          ⟨inRegisters, -⟩ | ⟨stacked, half, whole, idiom, first, second, -, -⟩
        · exact Or.inl ⟨[], turn, way, op, left, right, rfl, rfl, inRegisters⟩
        · cases turn with
          | down => cases found
          | left =>
              exact (ihLeft first found).imp (.cons fun _ => rfl)
                fun ⟨before, visits⟩ => ⟨before, .left stacked visits⟩
          | right =>
              exact (ihRight second found).imp (.cons fun _ => rfl)
                fun ⟨before, visits⟩ => ⟨before, .right stacked first visits⟩

end Emit

/-! ## Whole programs -/

/-- A part has code of its own among idioms: what lowering emits when it comes to the part.  That
code leaves one more value, and never pops a slot that was pushed before it began. -/
def IsLowered (options : LoweringOptions) (expr : Expr) (idioms : List Idiom) (way : List Turn)
    (part : Expr) : Prop :=
  exists before after code behind, Visits options expr #[] way part before ∧
    part.emit options before = .ok after ∧ after.toList = before.toList ++ code ∧
    idioms = before.toList ++ code ++ behind ∧ stackEffect code.flatten = 1 ∧
    forall front, front <+: code.flatten -> 0 ≤ stackEffect front

theorem stackEffect_flatten (idioms : List Idiom) :
    stackEffect idioms.flatten = (idioms.map stackEffect).foldr (· + ·) 0 := by
  have effects (first second : List Instruction) :
      stackEffect (first ++ second) = stackEffect first + stackEffect second := by
    induction first with
    | nil => exact (Int.zero_add _).symm
    | cons instruction first ih =>
        rw [List.cons_append, stackEffect_cons, stackEffect_cons, ih, Int.add_assoc]
  induction idioms with
  | nil => rfl
  | cons idiom idioms ih =>
      rw [List.flatten_cons, effects, ih]
      rfl

theorem depth_of_emit {options : LoweringOptions} {expr : Expr} {body : Array Idiom}
    (emitted : expr.emit options #[] = .ok body) : Program.depth body = 1 := by
  rcases exists_carries_of_emit emitted with ⟨code, listed, carries⟩
  rw [Program.depth, listed, <- stackEffect_flatten]
  exact carries.effect_eq

theorem value_ne_unbalancedStack (constant : Literal) (depth : Int) :
    constant.value ≠ .error (.unbalancedStack depth) := by
  intro refused
  unfold Literal.value at refused
  split at refused
  case h_4 =>
      split at refused
      · cases refused
      · split at refused <;> cases refused
  all_goals cases refused

/-- Only the check of the depth complains about it. -/
theorem emit_ne_unbalancedStack {options : LoweringOptions} {expr : Expr} {done : Array Idiom}
    (depth : Int) :
    expr.emit options done ≠ .error (.unbalancedStack depth) := by
  intro refused
  induction expr generalizing done with
  | missing => cases refused
  | literal constant =>
      rcases exists_of_bind_eq_error refused with valueless | ⟨value, -, rest⟩
      · exact value_ne_unbalancedStack constant depth valueless
      · cases rest
  | group inner ih => exact ih refused
  | unary op right ih =>
      rcases exists_of_bind_eq_error refused with inner | ⟨half, -, rest⟩
      · exact ih inner
      · cases op <;> cases rest
  | binary op left right ihLeft ihRight =>
      rw [emit] at refused
      split at refused
      · cases refused
      · rcases exists_of_bind_eq_error refused with first | ⟨half, -, rest⟩
        · exact ihLeft first
        · rcases exists_of_bind_eq_error rest with second | ⟨whole, -, rest⟩
          · exact ihRight second
          · cases op <;> cases rest

/-- A program exits with a literal at once, or it pops the value that the code of the expression has
left. -/
theorem exists_of_ofExpr {options : LoweringOptions} {expr : Expr} {program : Program}
    (lowered : Program.ofExpr options expr = .ok program) :
    (options.optimize = true ∧ exists value, expr.literalValue? = some value ∧
      program = Program.ofIdioms [.exit (some (.immediate value))]) ∨
    exists body, expr.emit options #[] = .ok body ∧ program =
      Program.ofIdioms (body.toList ++ [.popRegister .rax, .exit (some (.register .rax))]) := by
  unfold Program.ofExpr at lowered
  split at lowered
  · rename_i constant optimized same
    rcases exists_of_bind_eq_ok lowered with ⟨value, valued, rest⟩
    refine Or.inl ⟨optimized, value, ?_, (Except.ok.inj rest).symm⟩
    simp only [literalValue?, same, valued]
    rfl
  · rcases exists_of_bind_eq_ok lowered with ⟨body, emitted, rest⟩
    rw [if_pos (depth_of_emit emitted)] at rest
    exact Or.inr ⟨body, emitted, (Except.ok.inj rest).symm⟩

theorem carries_of_ofExpr {options : LoweringOptions} {expr : Expr} {idioms : List Idiom}
    (lowered : Program.ofExpr options expr = .ok (Program.ofIdioms idioms)) :
    Carries 0 0 idioms.flatten := by
  rcases exists_of_ofExpr lowered with ⟨-, value, -, same⟩ | ⟨body, emitted, same⟩
  · cases same
    exact carries_exit _
  · cases same
    rcases exists_carries_of_emit emitted with ⟨code, listed, carries⟩
    rw [listed, List.flatten_append]
    exact carries.append (.pop rfl (carries_exit _))

theorem isLowered_of_emit {options : LoweringOptions} {expr part : Expr} {body : Array Idiom}
    (emitted : expr.emit options #[] = .ok body) (last : List Idiom) {way : List Turn}
    (found : expr.at? way = some part) :
    EntersRegisters options expr way ∨ IsLowered options expr (body.toList ++ last) way part := by
  apply (exists_visits emitted found).imp_right
  rintro ⟨before, visits⟩
  rcases visits.exists_emit emitted with ⟨after, behind, own, listed⟩
  rcases exists_carries_of_emit own with ⟨code, extended, carries⟩
  refine ⟨before, after, code, behind ++ last, visits, own, extended, ?_, carries.effect_eq,
    carries.grounded⟩
  rw [listed, extended, List.append_assoc]

/-- Code is balanced at every point.  The program of an expression is a single section without
effect on the stack as a whole, and none of its beginnings pops below the depth at entry.  Every
part of the expression has code of its own in it, which leaves exactly one more value and pops
nothing that was there before; excepted are, with optimisation, a literal that is the whole program
and the operands of nodes computed in registers.  So the depth behind an expression is always one,
and no program is ever refused for its depth. -/
theorem code_balances_stack (options : LoweringOptions) (expr : Expr) :
    (forall body, expr.emit options #[] = .ok body -> Program.depth body = 1) ∧
    (forall depth, Program.ofExpr options expr ≠ .error (.unbalancedStack depth)) ∧
    forall program, Program.ofExpr options expr = .ok program ->
      exists only : Section, program = { text := [only] } ∧ only.name = Program.entryPoint ∧
        only.stackEffect = 0 ∧
        (forall front, front <+: only.instructions -> 0 ≤ stackEffect front) ∧
        forall way part, expr.at? way = some part ->
          (options.optimize = true ∧ expr.literalValue?.isSome = true) ∨
          EntersRegisters options expr way ∨ IsLowered options expr only.idioms way part := by
  refine ⟨fun body => depth_of_emit, ?_, ?_⟩
  · intro depth refused
    exact emit_ne_unbalancedStack depth (emit_error_of_ofExpr refused)
  · intro program lowered
    have shape : exists idioms, program = Program.ofIdioms idioms ∧
        forall way part, expr.at? way = some part ->
          (options.optimize = true ∧ expr.literalValue?.isSome = true) ∨
          EntersRegisters options expr way ∨ IsLowered options expr idioms way part := by
      rcases exists_of_ofExpr lowered with ⟨optimized, value, known, same⟩ | ⟨body, emitted, same⟩
      · exact ⟨_, same, fun way part found => Or.inl ⟨optimized, Option.isSome_of_eq_some known⟩⟩
      · exact ⟨_, same, fun way part found => Or.inr (isLowered_of_emit emitted _ found)⟩
    rcases shape with ⟨idioms, rfl, parts⟩
    have carries := carries_of_ofExpr lowered
    refine ⟨⟨Program.entryPoint, idioms⟩, rfl, rfl, ?_, carries.grounded, parts⟩
    rw [Section.stackEffect, <- stackEffect_flatten]
    exact carries.effect_eq

/-- In the optimised program of `(1 + 2) * -3`, the sum is computed in registers and the right
factor is lowered behind it. -/
theorem code_balances_stack_product :
    exists idioms, Program.ofExpr ⟨true⟩ (.binary .multiply
        (.group (.binary .add (.literal ⟨.number, "1", 1⟩) (.literal ⟨.number, "2", 1⟩)))
        (.unary .negate (.literal ⟨.number, "3", 1⟩))) = .ok (Program.ofIdioms idioms) ∧
      (Section.mk Program.entryPoint idioms).stackEffect = 0 ∧
      IsLowered ⟨true⟩ (.binary .multiply
        (.group (.binary .add (.literal ⟨.number, "1", 1⟩) (.literal ⟨.number, "2", 1⟩)))
        (.unary .negate (.literal ⟨.number, "3", 1⟩))) idioms [.right]
        (.unary .negate (.literal ⟨.number, "3", 1⟩)) := by
  generalize same : Expr.binary .multiply
    (.group (.binary .add (.literal ⟨.number, "1", 1⟩) (.literal ⟨.number, "2", 1⟩)))
    (.unary .negate (.literal ⟨.number, "3", 1⟩)) = product
  have accepted : (Program.ofExpr ⟨true⟩ product).toOption.isSome = true := by
    rw [<- same]
    decide +kernel
  cases lowered : Program.ofExpr ⟨true⟩ product with
  | error problem =>
      rw [lowered] at accepted
      cases accepted
  | ok program =>
      rcases (code_balances_stack ⟨true⟩ product).2.2 program lowered with
        ⟨⟨name, idioms⟩, rfl, rfl, balanced, -, parts⟩
      subst same
      rcases parts [.right] _ rfl with
        ⟨-, literal⟩ | ⟨above, turn, below, op, left, right, split, found, inRegisters⟩ | isLowered
      · cases literal
      · rcases above with _ | ⟨first, above⟩
        · cases found
          exact absurd inRegisters (by decide +kernel)
        · cases above <;> cases split
      · exact ⟨idioms, rfl, balanced, isLowered⟩

end Expr

end LoxNative
