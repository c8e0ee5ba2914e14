import Mathlib
import LoxNative.Proofs.CompilerCorrectness

namespace LoxNative

/-!
# Optimisation keeps the meaning

The optimised program of an expression costs no more than the plain one, in instructions and in
bytes, and its stack is no deeper.  So wherever the plain program exits, the optimised one has room
to exit with the same value, and wherever the plain program reaches a division by zero, so does the
optimised one.  The converse fails only for want of memory.

Instructions and bytes are two instances of one cost, for which little is needed: loading another
register costs no more than loading the accumulator, and neither does clearing a register.
-/

/-- A cost of operations under which optimisation does not lose. -/
structure Operation.IsCost (cost : Operation -> Nat) : Prop where
  load : forall number value, number ∈ [3, 7] ->
    cost (.load number (UInt32.toUInt64 value)) ≤ cost (.load 0 value.toUInt64)
  clear : forall value,
    cost (.arithmetic .xor 7 (.register 7)) ≤ cost (.load 0 (UInt32.toUInt64 value))

namespace Operation

/-- The cost of a list of operations. -/
def total (cost : Operation -> Nat) (operations : List Operation) : Nat :=
  (operations.map cost).sum

theorem total_append (cost : Operation -> Nat) (first second : List Operation) :
    total cost (first ++ second) = total cost first + total cost second := by
  rw [total, List.map_append, List.sum_append]
  rfl

theorem total_one (operations : List Operation) :
    total (fun _ => 1) operations = operations.length := by
  simp [total]

theorem total_length (operations : List Operation) :
    total (fun operation => operation.encode.length) operations =
      (operations.flatMap Operation.encode).length := by
  rw [total, List.length_flatMap]

theorem isCost_one : IsCost fun _ => 1 :=
  ⟨fun _ _ _ => Nat.le_refl 1, fun _ => Nat.le_refl 1⟩

/-- The length of a load does not depend on the register, as long as the register needs no
extension. -/
theorem length_encode_load {number : RegisterNumber} (low : ¬ 8 ≤ number.val) (value : UInt32) :
    (Operation.load number value.toUInt64).encode.length =
      if value.toNat < 0x80000000 then 7 else 5 := by
  have word : value.toUInt64.toNat = value.toNat := UInt32.toNat_toUInt64 value
  rw [encode, word]
  split
  · rw [List.length_append, LittleEndian.dword_length]
    rfl
  · rw [if_pos value.toNat_lt, List.length_append, LittleEndian.dword_length, Encoding.withRegister,
      if_neg low]
    rfl

theorem isCost_length : IsCost fun operation => operation.encode.length where
  load := by
    intro number value listed
    have low : ¬ 8 ≤ number.val := by
      rcases List.mem_pair.mp listed with rfl | rfl <;> decide
    change (Operation.load number value.toUInt64).encode.length ≤
      (Operation.load 0 value.toUInt64).encode.length
    rw [length_encode_load low, length_encode_load (by decide)]
  clear := by
    intro value
    change 3 ≤ (Operation.load 0 value.toUInt64).encode.length
    rw [length_encode_load (by decide)]
    split <;> decide

end Operation

namespace Expr

open Operation

theorem blocks_of_literalValue? {expr : Expr} {value : UInt32}
    (found : expr.literalValue? = some value) (optimize : Bool) :
    expr.blocks optimize = [[.load 0 value.toUInt64, .push 0]] := by
  induction expr with
  | literal constant =>
      change constant.value.toOption = some value at found
      rcases valued : constant.value with error | number
      · rw [valued] at found
        cases found
      · rw [valued] at found
        cases found
        rw [blocks, valued]
  | group inner ih => exact ih found
  | _ => cases found

section Cost

variable {cost : Operation -> Nat} (isCost : IsCost cost)

include isCost

/-- Optimised code costs no more.  Where the two codes differ, both operands are constants, and the
plain code goes through the stack to bring them into the same registers. -/
theorem total_blocks_le (expr : Expr) :
    total cost (expr.blocks true).flatten ≤ total cost (expr.blocks false).flatten := by
  induction expr with
  | missing => exact Nat.le_refl _
  | literal constant => exact Nat.le_refl _
  | group inner ih => exact ih
  | unary op right ih =>
      rw [blocks, blocks, List.flatten_append, List.flatten_append, total_append, total_append]
      exact Nat.add_le_add_right ih _
  | binary op left right ihLeft ihRight =>
      rw [blocks_of_not_isInRegisters (isInRegisters_false op left right)]
      cases stacked : isInRegisters true op left right with
      | true =>
          rcases exists_of_isInRegisters stacked with
            ⟨first, second, -, foundFirst, foundSecond, -, -⟩
          have second := isCost.load 3 second (by decide)
          rw [blocks_of_isInRegisters stacked foundFirst foundSecond,
            blocks_of_literalValue? foundFirst, blocks_of_literalValue? foundSecond]
          simp [total, BinaryOp.operations]
          omega
      | false =>
          rw [blocks_of_not_isInRegisters stacked]
          simp only [List.flatten_append, total_append]
          exact Nat.add_le_add_right (Nat.add_le_add ihLeft ihRight) _

theorem total_program_le (expr : Expr) :
    total cost (expr.program ⟨true⟩).flatten ≤ total cost (expr.program ⟨false⟩).flatten := by
  have plain : expr.program ⟨false⟩ = expr.blocks false ++ Program.exitTop := by rw [program]
  cases found : expr.literalValue? with
  | none =>
      have optimized : expr.program ⟨true⟩ = expr.blocks true ++ Program.exitTop := by
        rw [program, found]
      rw [plain, optimized, List.flatten_append, List.flatten_append, total_append, total_append]
      exact Nat.add_le_add_right (total_blocks_le isCost expr) _
  | some value =>
      have optimized : expr.program ⟨true⟩ = Program.exitConstant value := by rw [program, found]
      have first : cost (if value = 0 then .arithmetic .xor 7 (.register 7)
          else .load 7 value.toUInt64) ≤ cost (.load 0 value.toUInt64) := by
        split
        · exact isCost.clear value
        · exact isCost.load 7 value (by decide)
      rw [plain, optimized, blocks_of_literalValue? found]
      simp [total, Program.exitTop, Program.exitConstant]
      omega

end Cost

theorem length_program_optimized_le (expr : Expr) :
    (expr.program ⟨true⟩).flatten.length ≤ (expr.program ⟨false⟩).flatten.length := by
  rw [<- total_one, <- total_one]
  exact total_program_le isCost_one expr

theorem length_code_optimized_le (expr : Expr) :
    (expr.code ⟨true⟩).length ≤ (expr.code ⟨false⟩).length := by
  rw [code, code, <- total_length, <- total_length]
  exact total_program_le isCost_length expr

theorem freeSlots_le_optimized (expr : Expr) : expr.freeSlots ⟨false⟩ ≤ expr.freeSlots ⟨true⟩ :=
  Nat.div_le_div_right (Nat.sub_le_sub_left (length_code_optimized_le expr) _)

theorem peakDepth_optimized_le (expr : Expr) : expr.peakDepth ⟨true⟩ ≤ expr.peakDepth ⟨false⟩ := by
  have lower := stackDepth_optimized_le expr
  unfold peakDepth
  split
  · exact Nat.zero_le _
  · exact lower

/-! ## What the two runs have in common -/

theorem exitWithin_optimized_ok {expr : Expr} (lowerable : expr.isLowerable = true)
    {room larger : Nat}
    (more : room ≤ larger) {value : UInt64} (exits : expr.exitWithin ⟨false⟩ room = .ok value) :
    expr.exitWithin ⟨true⟩ larger = .ok value := by
  have lower := peakDepth_optimized_le expr
  rcases (exitWithin_eq_ok ⟨false⟩ lowerable room value).mp exits with ⟨known, enough⟩
  exact (exitWithin_eq_ok ⟨true⟩ lowerable larger value).mpr ⟨known, by omega⟩

theorem exitWithin_optimized_undefined {expr : Expr} (lowerable : expr.isLowerable = true)
    {room larger : Nat} (more : room ≤ larger)
    (stops : expr.exitWithin ⟨false⟩ room = .error .undefined) :
    expr.exitWithin ⟨true⟩ larger = .error .undefined := by
  have plain : expr.exitWithin ⟨false⟩ room = expr.evalWithin false room := by rw [exitWithin]
  rw [plain] at stops
  rcases program_cases ⟨true⟩ lowerable with ⟨value, known, -, -, -⟩ | ⟨-, -, evaluated⟩
  · rw [eval?_of_undefined stops] at known
    cases known
  · rw [evaluated]
    exact undefined_of_plain stops more

theorem Ran.exits {options : LoweringOptions} {expr : Expr} {machine : Machine}
    (ran : expr.Ran options (.halted machine)) (fine : machine.fault = none) :
    (expr.code options).length ≤ Machine.defaultSize ∧
      expr.exitWithin options (expr.freeSlots options) = .ok machine.exitStatus ∧
      machine.steps.toNat = (expr.program options).flatten.length := by
  cases ran with
  | exited fits evaluated halted fault steps top => exact ⟨fits, evaluated, steps⟩
  | stopped fits evaluated halted fault => exact nomatch fault.symm.trans fine

theorem Ran.divides {options : LoweringOptions} {expr : Expr} {machine : Machine} {address : UInt64}
    (ran : expr.Ran options (.halted machine))
    (failed : machine.fault = some (.divideError address)) :
    (expr.code options).length ≤ Machine.defaultSize ∧
      expr.exitWithin options (expr.freeSlots options) = .error .undefined := by
  cases ran with
  | exited fits evaluated halted fault steps top => exact nomatch fault.symm.trans failed
  | @stopped _ stop place fits evaluated halted fault =>
      cases stop with
      | overflow => exact nomatch fault.symm.trans failed
      | undefined => exact ⟨fits, evaluated⟩

theorem exists_exited {options : LoweringOptions} {expr : Expr}
    (lowerable : expr.isLowerable = true)
    (fits : (expr.code options).length ≤ Machine.defaultSize) {value : UInt64}
    (exits : expr.exitWithin options (expr.freeSlots options) = .ok value) :
    exists machine, expr.outcome options = .halted machine ∧ machine.fault = none ∧
      machine.exitStatus = value ∧
      machine.steps.toNat = (expr.program options).flatten.length := by
  have ran := ran_outcome options lowerable
  generalize expr.outcome options = outcome at ran
  cases ran with
  | tooLarge large => exact absurd fits (Nat.not_le.mpr large)
  | @exited machine fits evaluated halted fault steps top =>
      exact ⟨machine, rfl, fault, Except.ok.inj (evaluated.symm.trans exits), steps⟩
  | stopped fits evaluated halted fault => exact nomatch evaluated.symm.trans exits

theorem exists_stopped {options : LoweringOptions} {expr : Expr}
    (lowerable : expr.isLowerable = true)
    (fits : (expr.code options).length ≤ Machine.defaultSize) {stop : Stop}
    (stops : expr.exitWithin options (expr.freeSlots options) = .error stop) :
    exists machine address, expr.outcome options = .halted machine ∧
      machine.fault = some (stop.fault address) := by
  have ran := ran_outcome options lowerable
  generalize expr.outcome options = outcome at ran
  cases ran with
  | tooLarge large => exact absurd fits (Nat.not_le.mpr large)
  | exited fits evaluated halted fault steps top => exact nomatch evaluated.symm.trans stops
  | @stopped machine other address fits evaluated halted fault =>
      have same : other = stop := Except.error.inj (evaluated.symm.trans stops)
      subst same
      exact ⟨machine, address, rfl, fault⟩

section Outcomes

variable {expr : Expr} (lowerable : expr.isLowerable = true)

include lowerable

/-- Where the plain program exits, the optimised one exits with the same status, no later. -/
theorem outcome_optimized_exited {machine : Machine}
    (plain : expr.outcome ⟨false⟩ = .halted machine) (fine : machine.fault = none) :
    exists other, expr.outcome ⟨true⟩ = .halted other ∧ other.fault = none ∧
      other.exitStatus = machine.exitStatus ∧ other.steps ≤ machine.steps := by
  have ran := ran_outcome ⟨false⟩ lowerable
  rw [plain] at ran
  rcases ran.exits fine with ⟨fits, exits, steps⟩
  have shorter := Nat.le_trans (length_code_optimized_le expr) fits
  have optimized := exitWithin_optimized_ok lowerable (freeSlots_le_optimized expr) exits
  rcases exists_exited lowerable shorter optimized with ⟨other, halted, fault, status, fewer⟩
  refine ⟨other, halted, fault, status, ?_⟩
  rw [UInt64.le_iff_toNat_le, fewer, steps]
  exact length_program_optimized_le expr

/-- Where the plain program divides by zero, so does the optimised one. -/
theorem outcome_optimized_divides {machine : Machine} {address : UInt64}
    (plain : expr.outcome ⟨false⟩ = .halted machine)
    (failed : machine.fault = some (.divideError address)) :
    exists other place, expr.outcome ⟨true⟩ = .halted other ∧
      other.fault = some (.divideError place) := by
  have ran := ran_outcome ⟨false⟩ lowerable
  rw [plain] at ran
  rcases ran.divides failed with ⟨fits, stops⟩
  have shorter := Nat.le_trans (length_code_optimized_le expr) fits
  have optimized := exitWithin_optimized_undefined lowerable (freeSlots_le_optimized expr) stops
  exact exists_stopped lowerable shorter optimized

/-- Where the optimised program exits, only a lack of memory keeps the plain one from the same
status. -/
theorem outcome_plain_of_optimized {machine : Machine}
    (optimized : expr.outcome ⟨true⟩ = .halted machine) (fine : machine.fault = none) :
    (exists other, expr.outcome ⟨false⟩ = .halted other ∧
      other.fault = none ∧ other.exitStatus = machine.exitStatus) ∨
    (exists length, expr.outcome ⟨false⟩ = .notLoaded (.tooLarge length Machine.defaultSize)) ∨
    (exists other address, expr.outcome ⟨false⟩ = .halted other ∧
      other.fault = some (.stackOverflow address)) := by
  have ran := ran_outcome ⟨true⟩ lowerable
  rw [optimized] at ran
  rcases ran.exits fine with ⟨-, exits, -⟩
  rcases (exitWithin_eq_ok _ lowerable _ _).mp exits with ⟨known, -⟩
  have ran := ran_outcome ⟨false⟩ lowerable
  generalize expr.outcome ⟨false⟩ = outcome at ran
  cases ran with
  | tooLarge large => exact Or.inr (Or.inl ⟨_, rfl⟩)
  | @exited other fits evaluated halted fault steps top =>
      have found := ((exitWithin_eq_ok _ lowerable _ _).mp evaluated).1
      exact Or.inl ⟨other, rfl, fault, Option.some.inj (found.symm.trans known)⟩
  | @stopped other stop address fits evaluated halted fault =>
      cases stop with
      | overflow => exact Or.inr (Or.inr ⟨other, address, rfl, fault⟩)
      | undefined =>
          rw [eval?_of_exitWithin lowerable evaluated] at known
          cases known

end Outcomes

end Expr

/-- The machine code that a source text is compiled to. -/
def machineCode? (options : LoweringOptions) (source : String) : Option (List UInt8) := do
  let text <- (compile options source).toOption
  let assembly <- (Assembly.ofText (Text.glyphs text)).toOption
  return assembly.code

theorem machineCode?_of_isLowerable (options : LoweringOptions) {source : String} {expr : Expr}
    (parsed : Expr.parse source = .ok expr) (lowerable : expr.isLowerable = true) :
    machineCode? options source = some (expr.code options) := by
  rcases evaluate_of_isLowerable options parsed lowerable with
    ⟨text, assembly, compiled, assembled, same, -⟩
  rw [machineCode?, compiled]
  change ((Assembly.ofText (Text.glyphs text)).toOption >>= fun assembly => some assembly.code) = _
  rw [assembled, <- same]
  rfl

/-- Optimisation keeps the meaning of every source text.  Where the plain program exits, the
optimised one exits with the same status, in no more instructions and with no more code.  Where the
plain program divides by zero, so does the optimised one.  Where the optimised program exits, the
plain one exits with the same status unless memory is too small for its code or its stack. -/
theorem evaluate_optimized (source : String) :
    (forall machine, evaluate ⟨false⟩ source = .ok (.halted machine) -> machine.fault = none ->
      (exists other, evaluate ⟨true⟩ source = .ok (.halted other) ∧
        other.fault = none ∧ other.exitStatus = machine.exitStatus ∧ other.steps ≤ machine.steps) ∧
      exists plain optimized, machineCode? ⟨false⟩ source = some plain ∧
        machineCode? ⟨true⟩ source = some optimized ∧ optimized.length ≤ plain.length) ∧
    (forall machine address, evaluate ⟨false⟩ source = .ok (.halted machine) ->
      machine.fault = some (.divideError address) ->
      exists other place, evaluate ⟨true⟩ source = .ok (.halted other) ∧
        other.fault = some (.divideError place)) ∧
    (forall machine, evaluate ⟨true⟩ source = .ok (.halted machine) -> machine.fault = none ->
      exists outcome, evaluate ⟨false⟩ source = .ok outcome ∧
        ((exists other, outcome = .halted other ∧ other.fault = none ∧
          other.exitStatus = machine.exitStatus) ∨
        (exists length, outcome = .notLoaded (.tooLarge length Machine.defaultSize)) ∨
        (exists other address, outcome = .halted other ∧
          other.fault = some (.stackOverflow address)))) := by
  refine ⟨?_, ?_, ?_⟩
  · intro machine evaluated fine
    rcases exists_of_evaluate evaluated with ⟨expr, parsed, lowerable, same⟩
    rcases evaluate_of_isLowerable ⟨true⟩ parsed lowerable with ⟨-, -, -, -, -, known⟩
    rcases Expr.outcome_optimized_exited lowerable same.symm fine with ⟨other, halted, exits⟩
    rw [halted] at known
    exact ⟨⟨other, known, exits⟩, _, _, machineCode?_of_isLowerable ⟨false⟩ parsed lowerable,
      machineCode?_of_isLowerable ⟨true⟩ parsed lowerable, Expr.length_code_optimized_le expr⟩
  · intro machine address evaluated failed
    rcases exists_of_evaluate evaluated with ⟨expr, parsed, lowerable, same⟩
    rcases evaluate_of_isLowerable ⟨true⟩ parsed lowerable with ⟨-, -, -, -, -, known⟩
    rcases Expr.outcome_optimized_divides lowerable same.symm failed with
      ⟨other, place, halted, divides⟩
    rw [halted] at known
    exact ⟨other, place, known, divides⟩
  · intro machine evaluated fine
    rcases exists_of_evaluate evaluated with ⟨expr, parsed, lowerable, same⟩
    rcases evaluate_of_isLowerable ⟨false⟩ parsed lowerable with ⟨-, -, -, -, -, plain⟩
    exact ⟨_, plain, Expr.outcome_plain_of_optimized lowerable same.symm fine⟩

theorem evaluate_optimized_difference :
    exists machine other, evaluate ⟨false⟩ "(2 * 3) - 7" = .ok (.halted machine) ∧
      machine.fault = none ∧ machine.exitStatus = 0xFFFFFFFFFFFFFFFF ∧
      evaluate ⟨true⟩ "(2 * 3) - 7" = .ok (.halted other) ∧ other.fault = none ∧
      other.exitStatus = machine.exitStatus ∧ other.steps ≤ machine.steps := by
  have facts : (Expr.parse "(2 * 3) - 7").toOption.map (fun expr => (expr.isLowerable,
      (expr.code ⟨false⟩).length, (expr.exitWithin ⟨false⟩ (expr.freeSlots ⟨false⟩)).toOption)) =
        some (true, 50, some 0xFFFFFFFFFFFFFFFF) := by
    decide +kernel
  cases parsed : Expr.parse "(2 * 3) - 7" with
  | error diagnostic =>
      rw [parsed] at facts
      cases facts
  | ok expr =>
      rw [parsed] at facts
      rcases Prod.mk.inj (Option.some.inj facts) with ⟨lowerable, rest⟩
      rcases Prod.mk.inj rest with ⟨length, exits⟩
      cases evaluated : expr.exitWithin ⟨false⟩ (expr.freeSlots ⟨false⟩) with
      | error stop =>
          rw [evaluated] at exits
          cases exits
      | ok value =>
          rw [evaluated] at exits
          have fits : (expr.code ⟨false⟩).length ≤ Machine.defaultSize := by
            rw [length]
            decide
          rcases Expr.exists_exited lowerable fits evaluated with
            ⟨machine, halted, fault, status, -⟩
          rcases evaluate_of_isLowerable ⟨false⟩ parsed lowerable with ⟨-, -, -, -, -, plain⟩
          rw [halted] at plain
          rcases ((evaluate_optimized "(2 * 3) - 7").1 machine plain fault).1 with
            ⟨other, optimized, fine, same, fewer⟩
          exact ⟨machine, other, plain, fault, status.trans (Option.some.inj exits),
            optimized, fine, same, fewer⟩

end LoxNative
