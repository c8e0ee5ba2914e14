import Mathlib
import LoxNative.Proofs.Evaluation
import LoxNative.Proofs.ProgramText

namespace LoxNative

/-!
# The operations that an expression is lowered to

Lowering emits instructions, and the assembler turns each of them into one operation of the machine.
This module gives the operations directly by recursion over the expression, and shows that they are
what the emitted instructions are assembled to.  Whoever reasons about the run of a program can
start from the operations.

The numbers are those of the hardware: 0 is `rax`, the accumulator, 3 is `rbx`, the second operand,
2 is `rdx`, and 7 is `rdi`.
-/

/-! ## Single operators -/

namespace UnaryOp

/-- The operations of an operator on the topmost slot. -/
def operations : UnaryOp -> List Operation
  | negate => [.pop 3, .arithmetic .xor 0 (.register 0), .arithmetic .sub 0 (.register 3), .push 0]
  | not =>
      [.pop 0, .arithmetic .xor 3 (.register 3), .arithmetic .cmp 0 (.register 3),
        .setByte 4 (.low 0), .zeroExtend 0 (.low 0), .push 0]
  | unlisted _ => []

end UnaryOp

namespace BinaryOp

/-- The condition under which a comparison gives one. -/
def conditionCode : BinaryOp -> ConditionCode
  | equal => 0x4
  | notEqual => 0x5
  | less => 0xC
  | greaterEqual => 0xD
  | lessEqual => 0xE
  | _ => 0xF

/-- The operations that leave the result of an operator on `rax` and `rbx` in `rax`. -/
def inRegisters : BinaryOp -> List Operation
  | add => [.arithmetic .add 0 (.register 3)]
  | subtract => [.arithmetic .sub 0 (.register 3)]
  | multiply => [.multiply 0 3]
  | divide => [.arithmetic .xor 2 (.register 2), .divide 3]
  | unlisted _ => []
  | comparison =>
      [.arithmetic .cmp 0 (.register 3), .setByte comparison.conditionCode (.low 0),
        .zeroExtend 0 (.low 0)]

/-- The operations of an operator on the two topmost slots. -/
def operations (op : BinaryOp) : List Operation :=
  [.pop 3, .pop 0] ++ op.inRegisters ++ [.push 0]

end BinaryOp

namespace Expr

/-- The operations that evaluate an expression, idiom by idiom. -/
def blocks (optimize : Bool) : Expr -> List (List Operation)
  | .missing => []
  | .literal constant =>
      match constant.value with
      | .ok value => [[.load 0 value.toUInt64, .push 0]]
      | .error _ => []
  | .group inner => inner.blocks optimize
  | .unary op right => right.blocks optimize ++ [op.operations]
  | .binary op left right =>
      match (if isInRegisters optimize op left right then left.literalValue? else none),
          right.literalValue? with
      | some first, some second =>
          [[.load 0 first.toUInt64, .load 3 second.toUInt64] ++ op.inRegisters, [.push 0]]
      | _, _ => left.blocks optimize ++ right.blocks optimize ++ [op.operations]

/-- Whether every node of an expression can be lowered. -/
def isLowerable : Expr -> Bool
  | .missing => false
  | .literal constant => constant.value.toOption.isSome
  | .group inner => inner.isLowerable
  | .unary op right => right.isLowerable && op.idiom.toOption.isSome
  | .binary op left right =>
      left.isLowerable && right.isLowerable && op.idiom.toOption.isSome

end Expr

/-! ## Instructions and their operations -/

namespace Instruction

theorem readsAs_qword (number : RegisterNumber) :
    Operand.ReadsAs (some (.register (.qword number))) (.register (.qword number)) :=
  Operand.readsAs_register (.qword number)

theorem assembles_push (number : RegisterNumber) :
    Assembles (.push (.register (.qword number))) (.push number) :=
  assembles_of_select "push" "PUSH" rfl (.cons (readsAs_qword number) .nil) rfl
    (by decide) rfl

theorem assembles_pop (number : RegisterNumber) :
    Assembles (.pop (.register (.qword number))) (.pop number) :=
  assembles_of_select "pop" "POP" rfl (.cons (readsAs_qword number) .nil) rfl
    (by decide) rfl

theorem assembles_div (number : RegisterNumber) :
    Assembles (.div (.register (.qword number))) (.divide number) :=
  assembles_of_select "div" "DIV" rfl (.cons (readsAs_qword number) .nil) rfl
    (by decide) rfl

theorem assembles_syscall : Assembles .syscall .systemCall :=
  assembles_of_select "syscall" "SYSCALL" rfl .nil rfl (by decide) rfl

theorem assembles_move (destination source : RegisterNumber) :
    Assembles (.mov (.register (.qword destination)) (.register (.qword source)))
      (.move destination source) :=
  assembles_of_select "mov" "MOV" rfl
    (.cons (readsAs_qword destination) (.cons (readsAs_qword source) .nil)) rfl
    (by decide) rfl

theorem assembles_load (destination : RegisterNumber) (value : UInt32) :
    Assembles (.mov (.register (.qword destination)) (.immediate value))
      (.load destination value.toUInt64) := by
  refine assembles_of_select "mov" "MOV" rfl
    (.cons (readsAs_qword destination) (.cons (Operand.readsAs_immediate value) .nil)) rfl
    (by decide) ?_
  have small : value.toUInt64.toNat < 0x100000000 := by
    rw [UInt32.toNat_toUInt64]
    exact value.toNat_lt
  change (if value.toUInt64.toNat < 0x100000000 then
    (.ok (.load destination value.toUInt64) : Except AssemblyFault Operation) else _) = _
  rw [if_pos small]

theorem assembles_arithmetic {mnemonic : Mnemonic} {arithmetic : Arithmetic}
    (named : (mnemonic, arithmetic) ∈ [(.add, .add), (.sub, .sub), (.xor, .xor), (.cmp, .cmp)])
    (destination source : RegisterNumber) :
    Assembles ⟨mnemonic, some (.register (.qword destination)),
      some (.register (.qword source)), .equal⟩
      (.arithmetic arithmetic destination (.register source)) := by
  have read : List.Forall₂ Operand.ReadsAs
      [some (.register (.qword destination)), some (.register (.qword source))]
      [.register (.qword destination), .register (.qword source)] :=
    .cons (readsAs_qword destination) (.cons (readsAs_qword source) .nil)
  simp only [List.mem_cons, Prod.mk.injEq, List.not_mem_nil, or_false] at named
  rcases named with ⟨rfl, rfl⟩ | ⟨rfl, rfl⟩ | ⟨rfl, rfl⟩ | ⟨rfl, rfl⟩
  · exact assembles_of_select "add" "ADD" rfl read rfl (by decide) rfl
  · exact assembles_of_select "sub" "SUB" rfl read rfl (by decide) rfl
  · exact assembles_of_select "xor" "XOR" rfl read rfl (by decide) rfl
  · exact assembles_of_select "cmp" "CMP" rfl read rfl (by decide) rfl

theorem assembles_multiply (destination source : RegisterNumber) :
    Assembles ⟨.mul, some (.register (.qword destination)),
      some (.register (.qword source)), .equal⟩
      (.multiply destination source) :=
  assembles_of_select "imul" "IMUL" rfl
    (.cons (readsAs_qword destination) (.cons (readsAs_qword source) .nil)) rfl
    (by decide) rfl

theorem assembles_movzx (destination source : RegisterNumber) :
    Assembles (.movzx (.register (.qword destination)) (.register (.low source)))
      (.zeroExtend destination (.low source)) :=
  assembles_of_select "movzx" "MOVZX" rfl
    (.cons (readsAs_qword destination) (.cons (Operand.readsAs_register (.low source)) .nil)) rfl
    (by decide) rfl

theorem assembles_set {condition : Condition} {code : ConditionCode}
    (named : (condition, code) ∈ [(.equal, 0x4), (.notEqual, 0x5), (.less, 0xC), (.lessEqual, 0xE),
      (.greater, 0xF), (.greaterEqual, 0xD)]) (destination : RegisterNumber) :
    Assembles (.set condition (.register (.low destination)))
      (.setByte code (.low destination)) := by
  have read : List.Forall₂ Operand.ReadsAs [some (.register (.low destination))]
      [.register (.low destination)] :=
    .cons (Operand.readsAs_register (.low destination)) .nil
  simp only [List.mem_cons, Prod.mk.injEq, List.not_mem_nil, or_false] at named
  rcases named with ⟨rfl, rfl⟩ | ⟨rfl, rfl⟩ | ⟨rfl, rfl⟩ | ⟨rfl, rfl⟩ | ⟨rfl, rfl⟩ | ⟨rfl, rfl⟩
  · exact assembles_of_select "sete" "SETE" rfl read rfl (by decide) rfl
  · exact assembles_of_select "setne" "SETNE" rfl read rfl (by decide) rfl
  · exact assembles_of_select "setl" "SETL" rfl read rfl (by decide) rfl
  · exact assembles_of_select "setle" "SETLE" rfl read rfl (by decide) rfl
  · exact assembles_of_select "setg" "SETG" rfl read rfl (by decide) rfl
  · exact assembles_of_select "setge" "SETGE" rfl read rfl (by decide) rfl

end Instruction

/-! ## Idioms and their operations -/

/-- Every instruction of an idiom is assembled to the operation in the same place. -/
abbrev Idiom.Assembles (idiom : Idiom) (operations : List Operation) : Prop :=
  List.Forall₂ Instruction.Assembles idiom operations

namespace Idiom

open Instruction

theorem assembles_constant (value : UInt32) :
    (Idiom.constant value).Assembles [.load 0 value.toUInt64, .push 0] :=
  .cons (assembles_load 0 value) (.cons (assembles_push 0) .nil)

theorem assembles_unary {op : UnaryOp} {idiom : Idiom} (found : op.idiom = .ok idiom) :
    idiom.Assembles op.operations := by
  cases op with
  | negate =>
      cases found
      exact .cons (assembles_pop 3) (.cons (assembles_arithmetic (by decide) 0 0)
        (.cons (assembles_arithmetic (by decide) 0 3) (.cons (assembles_push 0) .nil)))
  | not =>
      cases found
      exact .cons (assembles_pop 0) (.cons (assembles_arithmetic (by decide) 3 3)
        (.cons (assembles_arithmetic (by decide) 0 3) (.cons (assembles_set (by decide) 0)
          (.cons (assembles_movzx 0 0) (.cons (assembles_push 0) .nil)))))
  | unlisted code => cases found

theorem assembles_compare {condition : Condition} {code : ConditionCode}
    (named : (condition, code) ∈ [(.equal, 0x4), (.notEqual, 0x5), (.less, 0xC), (.lessEqual, 0xE),
      (.greater, 0xF), (.greaterEqual, 0xD)]) :
    (Idiom.compare condition).Assembles
      [.pop 3, .pop 0, .arithmetic .cmp 0 (.register 3), .setByte code (.low 0),
        .zeroExtend 0 (.low 0), .push 0] :=
  .cons (assembles_pop 3) (.cons (assembles_pop 0) (.cons (assembles_arithmetic (by decide) 0 3)
    (.cons (assembles_set named 0) (.cons (assembles_movzx 0 0) (.cons (assembles_push 0) .nil)))))

theorem assembles_binary {op : BinaryOp} {idiom : Idiom} (found : op.idiom = .ok idiom) :
    idiom.Assembles op.operations := by
  cases op with
  | equal | notEqual | less | lessEqual | greater | greaterEqual =>
      cases found
      exact assembles_compare (by decide)
  | add | subtract =>
      cases found
      exact .cons (assembles_pop 3) (.cons (assembles_pop 0)
        (.cons (assembles_arithmetic (by decide) 0 3) (.cons (assembles_push 0) .nil)))
  | multiply =>
      cases found
      exact .cons (assembles_pop 3) (.cons (assembles_pop 0)
        (.cons (assembles_multiply 0 3) (.cons (assembles_push 0) .nil)))
  | divide =>
      cases found
      exact .cons (assembles_pop 3) (.cons (assembles_pop 0)
        (.cons (assembles_arithmetic (by decide) 2 2) (.cons (assembles_div 3)
          (.cons (assembles_push 0) .nil))))
  | unlisted code => cases found

theorem assembles_value {op : BinaryOp} {left right : UInt32} {idiom : Idiom}
    (found : op.valueIdiom? left right = some idiom) :
    idiom.Assembles ([.load 0 left.toUInt64, .load 3 right.toUInt64] ++ op.inRegisters) := by
  cases op with
  | add | subtract =>
      cases found
      exact .cons (assembles_load 0 left) (.cons (assembles_load 3 right)
        (.cons (assembles_arithmetic (by decide) 0 3) .nil))
  | multiply =>
      cases found
      exact .cons (assembles_load 0 left) (.cons (assembles_load 3 right)
        (.cons (assembles_multiply 0 3) .nil))
  | divide =>
      cases found
      exact .cons (assembles_load 0 left) (.cons (assembles_load 3 right)
        (.cons (assembles_arithmetic (by decide) 2 2) (.cons (assembles_div 3) .nil)))
  | _ => cases found

end Idiom

namespace Program

/-- The operations that exit with the topmost slot. -/
def exitTop : List (List Operation) :=
  [[.pop 0], [.move 7 0, .load 0 60, .systemCall]]

/-- The operations that exit with a constant. -/
def exitConstant (value : UInt32) : List (List Operation) :=
  [[if value = 0 then .arithmetic .xor 7 (.register 7) else .load 7 value.toUInt64, .load 0 60,
    .systemCall]]

open Instruction

theorem assembles_exitTop :
    List.Forall₂ Idiom.Assembles [.popRegister .rax, .exit (some (.register .rax))] exitTop :=
  .cons (.cons (assembles_pop 0) .nil)
    (.cons (.cons (assembles_move 7 0)
      (.cons (assembles_load 0 60) (.cons assembles_syscall .nil))) .nil)

theorem assembles_exitConstant (value : UInt32) :
    List.Forall₂ Idiom.Assembles [.exit (some (.immediate value))] (exitConstant value) := by
  refine .cons (.cons ?_ (.cons (assembles_load 0 60) (.cons assembles_syscall .nil))) .nil
  by_cases zero : value = 0
  · subst zero
    exact assembles_arithmetic (by decide) 7 7
  · have different : some (Operand.immediate value) ≠ some (.immediate 0) := by
      intro same
      exact zero (Operand.immediate.inj (Option.some.inj same))
    rw [if_neg zero, if_neg different]
    exact assembles_load 7 value

end Program

/-! ## What lowering emits -/

namespace Expr

theorem isSome_valueIdiom? (op : BinaryOp) (left right : UInt32) :
    (op.valueIdiom? left right).isSome = op.isArithmetic := by
  cases op <;> rfl

/-- The idiom that optimisation chooses for a binary node, where it chooses one. -/
theorem exists_of_isInRegisters {optimize : Bool} {op : BinaryOp} {left right : Expr}
    (inRegisters : isInRegisters optimize op left right = true) :
    exists first second idiom, left.literalValue? = some first ∧ right.literalValue? = some second ∧
      op.valueIdiom? first second = some idiom ∧
      (if optimize then constantIdiom? op left right else none) = some idiom := by
  simp only [isInRegisters, Bool.and_eq_true] at inRegisters
  rcases inRegisters with ⟨⟨⟨optimized, arithmetic⟩, isFirst⟩, isSecond⟩
  rcases Option.isSome_iff_exists.mp isFirst with ⟨first, foundFirst⟩
  rcases Option.isSome_iff_exists.mp isSecond with ⟨second, foundSecond⟩
  rw [<- isSome_valueIdiom? op first second] at arithmetic
  rcases Option.isSome_iff_exists.mp arithmetic with ⟨idiom, chosen⟩
  refine ⟨first, second, idiom, foundFirst, foundSecond, chosen, ?_⟩
  rw [if_pos optimized, constantIdiom?, foundFirst, foundSecond]
  exact chosen

theorem constantIdiom?_of_not_isInRegisters {optimize : Bool} {op : BinaryOp} {left right : Expr}
    (stacked : isInRegisters optimize op left right = false) :
    (if optimize then constantIdiom? op left right else none) = none := by
  cases optimize with
  | false => rfl
  | true =>
      rw [if_pos rfl, constantIdiom?]
      cases foundFirst : left.literalValue? with
      | none => rfl
      | some first =>
          cases foundSecond : right.literalValue? with
          | none => rfl
          | some second =>
              simp only [isInRegisters, foundFirst, foundSecond, Option.isSome_some, Bool.and_true,
                Bool.true_and, <- isSome_valueIdiom? op first second] at stacked
              exact Option.isNone_iff_eq_none.mp (Option.isSome_eq_false_iff.mp stacked)

theorem blocks_of_isInRegisters {optimize : Bool} {op : BinaryOp} {left right : Expr}
    {first second : UInt32} (inRegisters : isInRegisters optimize op left right = true)
    (foundFirst : left.literalValue? = some first)
    (foundSecond : right.literalValue? = some second) :
    (Expr.binary op left right).blocks optimize =
      [[.load 0 first.toUInt64, .load 3 second.toUInt64] ++ op.inRegisters, [.push 0]] := by
  rw [blocks, inRegisters, if_pos rfl, foundFirst, foundSecond]

theorem blocks_of_not_isInRegisters {optimize : Bool} {op : BinaryOp} {left right : Expr}
    (stacked : isInRegisters optimize op left right = false) :
    (Expr.binary op left right).blocks optimize =
      left.blocks optimize ++ right.blocks optimize ++ [op.operations] := by
  rw [blocks, stacked]
  rfl

theorem stackEffect_unary {op : UnaryOp} {idiom : Idiom} (found : op.idiom = .ok idiom) :
    idiom.stackEffect = 0 := by
  cases op <;> cases found <;> rfl

theorem stackEffect_binary {op : BinaryOp} {idiom : Idiom} (found : op.idiom = .ok idiom) :
    idiom.stackEffect = -1 := by
  cases op <;> cases found <;> rfl

theorem stackEffect_value {op : BinaryOp} {left right : UInt32} {idiom : Idiom}
    (found : op.valueIdiom? left right = some idiom) : idiom.stackEffect = 0 := by
  cases op <;> cases found <;> rfl

/-- Lowering appends idioms whose operations are those of the expression, and which leave one
value. -/
theorem emit_of_isLowerable (options : LoweringOptions) {expr : Expr}
    (lowerable : expr.isLowerable = true) (done : Array Idiom) :
    exists out idioms, expr.emit options done = .ok out ∧ out.toList = done.toList ++ idioms ∧
      List.Forall₂ Idiom.Assembles idioms (expr.blocks options.optimize) ∧
      (idioms.map Idiom.stackEffect).sum = 1 := by
  induction expr generalizing done with
  | missing => cases lowerable
  | literal constant =>
      rcases value : constant.value with error | number
      · rw [isLowerable, value] at lowerable
        cases lowerable
      · refine ⟨done.push (.constant number), [.constant number], ?_, by simp, ?_, rfl⟩
        · rw [emit, value]
          rfl
        · rw [blocks, value]
          exact .cons (Idiom.assembles_constant number) .nil
  | group inner ih => exact ih lowerable done
  | unary op right ih =>
      rw [isLowerable, Bool.and_eq_true] at lowerable
      rcases ih lowerable.1 done with ⟨out, idioms, emitted, listed, assembles, balanced⟩
      rcases found : op.idiom with error | idiom
      · rw [found] at lowerable
        cases lowerable.2
      · refine ⟨out.push idiom, idioms ++ [idiom], ?_, by simp [listed], ?_, ?_⟩
        · rw [emit, emitted, found]
          rfl
        · exact List.rel_append assembles (.cons (Idiom.assembles_unary found) .nil)
        · simp [balanced, stackEffect_unary found]
  | binary op left right ihLeft ihRight =>
      rw [isLowerable, Bool.and_eq_true, Bool.and_eq_true] at lowerable
      cases stacked : isInRegisters options.optimize op left right with
      | true =>
          rcases exists_of_isInRegisters stacked with
            ⟨first, second, idiom, foundFirst, foundSecond, chosen, constant⟩
          refine ⟨(done.push idiom).push (.pushRegister .rax), [idiom, .pushRegister .rax], ?_,
            by simp, ?_, ?_⟩
          · rw [emit, constant]
          · rw [blocks_of_isInRegisters stacked foundFirst foundSecond]
            exact .cons (Idiom.assembles_value chosen)
              (.cons (.cons (Instruction.assembles_push 0) .nil) .nil)
          · rw [List.map_cons, List.sum_cons, stackEffect_value chosen]
            rfl
      | false =>
          rcases ihLeft lowerable.1.1 done with
            ⟨half, firstIdioms, emittedFirst, listedFirst, assemblesFirst, balancedFirst⟩
          rcases ihRight lowerable.1.2 half with
            ⟨out, secondIdioms, emittedSecond, listedSecond, assemblesSecond, balancedSecond⟩
          rcases found : op.idiom with error | idiom
          · rw [found] at lowerable
            cases lowerable.2
          · refine ⟨out.push idiom, firstIdioms ++ secondIdioms ++ [idiom], ?_,
              by simp [listedFirst, listedSecond], ?_, ?_⟩
            · rw [emit, constantIdiom?_of_not_isInRegisters stacked]
              simp only [emittedFirst, emittedSecond, found, bind, Except.bind]
              rfl
            · rw [blocks_of_not_isInRegisters stacked]
              exact List.rel_append (List.rel_append assemblesFirst assemblesSecond)
                (.cons (Idiom.assembles_binary found) .nil)
            · simp [balancedFirst, balancedSecond, stackEffect_binary found]

theorem isLowerable_of_literalValue? {expr : Expr} {value : UInt32}
    (found : expr.literalValue? = some value) : expr.isLowerable = true := by
  induction expr with
  | literal constant =>
      rw [isLowerable]
      change constant.value.toOption = some value at found
      rw [found]
      rfl
  | group inner ih => exact ih found
  | _ => cases found

theorem isLowerable_of_emit {options : LoweringOptions} {expr : Expr} {done out : Array Idiom}
    (emitted : expr.emit options done = .ok out) : expr.isLowerable = true := by
  induction expr generalizing done out with
  | missing => cases emitted
  | literal constant =>
      rcases exists_of_bind_eq_ok emitted with ⟨value, found, rest⟩
      rw [isLowerable, found]
      rfl
  | group inner ih => exact ih emitted
  | unary op right ih =>
      rcases exists_of_bind_eq_ok emitted with ⟨half, operand, rest⟩
      rcases exists_of_bind_eq_ok rest with ⟨idiom, found, rest⟩
      rw [isLowerable, ih operand, found]
      rfl
  | binary op left right ihLeft ihRight =>
      cases stacked : isInRegisters options.optimize op left right with
      | true =>
          rcases exists_of_isInRegisters stacked with
            ⟨first, second, idiom, foundFirst, foundSecond, chosen, constant⟩
          have listed : op.idiom.toOption.isSome = true := by
            cases op <;> cases chosen <;> rfl
          rw [isLowerable, isLowerable_of_literalValue? foundFirst,
            isLowerable_of_literalValue? foundSecond, listed]
          rfl
      | false =>
          rw [emit, constantIdiom?_of_not_isInRegisters stacked] at emitted
          rcases exists_of_bind_eq_ok emitted with ⟨half, first, rest⟩
          rcases exists_of_bind_eq_ok rest with ⟨whole, second, rest⟩
          rcases exists_of_bind_eq_ok rest with ⟨idiom, found, rest⟩
          rw [isLowerable, ihLeft first, ihRight second, found]
          rfl

/-- The operations of a whole program, idiom by idiom. -/
def program (options : LoweringOptions) (expr : Expr) : List (List Operation) :=
  match options.optimize, expr.literalValue? with
  | true, some value => Program.exitConstant value
  | _, _ => expr.blocks options.optimize ++ Program.exitTop

/-- An expression without literal value is not a literal, once it can be lowered. -/
theorem ungrouped_ne_literal {expr : Expr} (lowerable : expr.isLowerable = true)
    (absent : expr.literalValue? = none) (constant : Literal) :
    expr.ungrouped ≠ .literal constant := by
  induction expr with
  | literal own =>
      rw [isLowerable] at lowerable
      change own.value.toOption = none at absent
      rw [absent] at lowerable
      cases lowerable
  | group inner ih => exact ih lowerable absent
  | _ => exact fun same => nomatch same

theorem exists_literal_of_literalValue? {expr : Expr} {value : UInt32}
    (found : expr.literalValue? = some value) :
    exists constant, expr.ungrouped = .literal constant ∧ constant.value = .ok value := by
  unfold literalValue? at found
  split at found
  · rename_i constant same
    rcases valued : constant.value with error | number
    · rw [valued] at found
      cases found
    · rw [valued] at found
      cases found
      exact ⟨constant, same, valued⟩
  · cases found

theorem ofExpr_of_isLowerable (options : LoweringOptions) {expr : Expr}
    (lowerable : expr.isLowerable = true) :
    exists idioms, Program.ofExpr options expr = .ok (Program.ofIdioms idioms) ∧
      List.Forall₂ Idiom.Assembles idioms (expr.program options) := by
  rcases emit_of_isLowerable options lowerable #[] with
    ⟨out, idioms, emitted, listed, assembles, balanced⟩
  have depth : Program.depth out = 1 := by
    rw [Program.depth, listed]
    exact balanced
  have general : options.optimize = false ∨ (forall constant, expr.ungrouped ≠ .literal constant) ->
      Program.ofExpr options expr =
        .ok (Program.ofIdioms (idioms ++ [.popRegister .rax, .exit (some (.register .rax))])) := by
    intro other
    unfold Program.ofExpr
    split
    · rename_i constant optimized same
      rcases other with plain | compound
      · exact absurd (plain.symm.trans optimized) (by decide)
      · exact absurd same (compound constant)
    · simp only [emitted, bind, Except.bind, if_pos depth, listed, List.nil_append]
      rfl
  cases optimized : options.optimize with
  | false =>
      refine ⟨_, general (Or.inl optimized), ?_⟩
      rw [program, optimized]
      rw [optimized] at assembles
      exact List.rel_append assembles Program.assembles_exitTop
  | true =>
      cases found : expr.literalValue? with
      | none =>
          refine ⟨_, general (Or.inr (ungrouped_ne_literal lowerable found)), ?_⟩
          rw [program, optimized, found]
          rw [optimized] at assembles
          exact List.rel_append assembles Program.assembles_exitTop
      | some value =>
          rcases exists_literal_of_literalValue? found with ⟨constant, same, valued⟩
          refine ⟨[.exit (some (.immediate value))], ?_, ?_⟩
          · simp only [Program.ofExpr, optimized, same, valued]
            rfl
          · rw [program, optimized, found]
            exact Program.assembles_exitConstant value

theorem isLowerable_of_ungrouped {expr : Expr} {constant : Literal} {value : UInt32}
    (same : expr.ungrouped = .literal constant) (valued : constant.value = .ok value) :
    expr.isLowerable = true := by
  have found : expr.literalValue? = some value := by
    simp only [literalValue?, same, valued]
    rfl
  exact isLowerable_of_literalValue? found

/-- Whether there is a program does not depend on the options. -/
theorem isLowerable_of_ofExpr {options : LoweringOptions} {expr : Expr} {result : Program}
    (lowered : Program.ofExpr options expr = .ok result) : expr.isLowerable = true := by
  unfold Program.ofExpr at lowered
  split at lowered
  · rename_i constant optimized same
    rcases exists_of_bind_eq_ok lowered with ⟨value, valued, rest⟩
    exact isLowerable_of_ungrouped same valued
  · rcases exists_of_bind_eq_ok lowered with ⟨out, emitted, rest⟩
    exact isLowerable_of_emit emitted

/-- No instruction of a lowered program lacks an operand. -/
theorem isWritable_of_ofExpr {options : LoweringOptions} {expr : Expr} {result : Program}
    (lowered : Program.ofExpr options expr = .ok result) : result.isWritable = true := by
  rcases ofExpr_of_isLowerable options (isLowerable_of_ofExpr lowered) with
    ⟨idioms, found, assembles⟩
  cases lowered.symm.trans found
  have instructions : (Program.ofIdioms idioms).sectionInstructions = idioms.flatten :=
    List.append_nil _
  have written := (List.rel_flatten assembles).imp fun _ _ assembles =>
    And.intro assembles.writable assembles
  rw [Program.isWritable_iff, instructions]
  exact ((List.forall₂_and_left _ _).mp written).1

end Expr

end LoxNative
