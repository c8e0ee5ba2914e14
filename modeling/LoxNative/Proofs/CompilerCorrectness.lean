import Mathlib
import LoxNative.Compilation
import LoxNative.Proofs.StackEvaluation

namespace LoxNative

/-!
# Compiled programs compute their expressions

From a source text to the exit status of the machine that ran it.  The written program assembles to
the code of its operations; loaded and run, this code follows the operations; and these evaluate the
expression within the room that the code leaves to the stack.

Nothing is assumed about an expression but that it can be lowered, and nothing about its size: a
program that does not fit memory, or whose stack does not, ends with an error, and it is said when
this happens.
-/

/-! ## Following a whole program -/

namespace Machine

/-- A machine exited with a value and has its stack back. -/
structure Exited (count : Nat) (value : UInt64) (before after : Machine) : Prop where
  halted : after.halted = true
  exitStatus : after.exitStatus = value
  steps : after.steps = before.steps + UInt64.ofNat count
  fault : after.fault = before.fault
  output : after.output = before.output
  top : after.register stackPointer = before.register stackPointer

theorem Exited.after {first second third : Machine} {count more : Nat} {value : UInt64}
    (before : Balanced count first second) (after : Exited more value second third) :
    Exited (count + more) value first third where
  halted := after.halted
  exitStatus := after.exitStatus
  steps := by rw [after.steps, before.steps, UInt64.ofNat_add, UInt64.add_assoc]
  fault := after.fault.trans before.fault
  output := after.output.trans before.output
  top := after.top.trans before.top

/-- Following some operations exits with a value, or stops the machine. -/
def Ends (outcome : Except Expr.Stop UInt64) (operations : List Operation) (machine : Machine) :
    Prop :=
  match outcome with
  | .ok value => Exited operations.length value machine (machine.follow operations)
  | .error stop => Stopped stop machine (machine.follow operations)

theorem Ends.after {machine : Machine} {value : UInt64} (before : List Operation)
    {operations : List Operation}
    (balanced : Balanced before.length machine (machine.follow before))
    (ends : Ends (.ok value) operations (machine.follow before)) :
    Ends (.ok value) (before ++ operations) machine := by
  rw [Ends, follow_append, List.length_append]
  exact Exited.after balanced ends

section Exit

variable {machine : Machine}

/-- The exit, once its value is in `rdi`. -/
theorem ends_exit (running : machine.halted = false) :
    Ends (.ok (machine.register 7)) [.load 0 60, .systemCall] machine := by
  have same : machine.next (.load 0 60) = { machine.fetched _ with flags := _ }.setRegister 0 60 :=
    rfl
  rcases balanced_setRegister (by decide) running same with ⟨balanced, number, others⟩
  have exited : (machine.next (.load 0 60)).next .systemCall =
      { (machine.next (.load 0 60)).fetched (Operation.systemCall).encode.length with
        exitStatus := (machine.next (.load 0 60)).register 7
        halted := true } :=
    next_of_perform (if_pos number)
  refine Ends.after [_] ?_ ?_ <;> rw [follow_single running]
  · exact balanced
  · rw [Ends, follow_single balanced.running, exited]
    exact ⟨rfl, others 7 (by decide), rfl, rfl, rfl, rfl⟩

theorem ends_setStatus {operation : Operation} {value : UInt64} {flags : Flags}
    (running : machine.halted = false)
    (same : machine.next operation =
      { machine.fetched operation.encode.length with flags }.setRegister 7 value) :
    Ends (.ok value) [operation, .load 0 60, .systemCall] machine := by
  rcases balanced_setRegister (by decide) running same with ⟨balanced, status, -⟩
  refine Ends.after [_] ?_ ?_ <;> rw [follow_single running]
  · exact balanced
  · rw [<- status]
    exact ends_exit balanced.running

theorem ends_exitConstant (running : machine.halted = false) (value : UInt32) :
    Ends (.ok value.toUInt64) (Program.exitConstant value).flatten machine := by
  by_cases zero : value = 0
  · have cleared : machine.register 7 ^^^ machine.register 7 = value.toUInt64 := by
      rw [UInt64.xor_self, zero]
      rfl
    rw [Program.exitConstant, if_pos zero, <- cleared]
    exact ends_setStatus running rfl
  · rw [Program.exitConstant, if_neg zero]
    exact ends_setStatus running rfl

theorem ends_exitTop (ready : Ready machine) {operations : List Operation} {value : UInt64}
    (pushed : Pushed operations.length value machine (machine.follow operations)) :
    Ends (.ok value) (operations ++ Program.exitTop.flatten) machine := by
  rcases pushed.popped ready (by decide : stackPointer ≠ 0) with ⟨balanced, result, -⟩
  have exits : Ends (.ok value) [.move 7 0, .load 0 60, .systemCall]
      (machine.follow (operations ++ [Operation.pop 0])) := by
    rw [<- result]
    exact ends_setStatus balanced.running rfl
  have ends := Ends.after _ balanced exits
  rw [List.append_assoc] at ends
  exact ends

end Exit

end Machine

namespace Expr

open Machine

/-- Evaluate a whole program with so many free stack slots.  An optimised program that is a single
literal takes none. -/
def exitWithin (options : LoweringOptions) (expr : Expr) (room : Nat) : Except Stop UInt64 :=
  match options.optimize, expr.literalValue? with
  | true, some value => .ok value.toUInt64
  | _, _ => expr.evalWithin options.optimize room

/-- The two kinds of programs: those that exit with a constant at once, and those that evaluate
their expression on the stack. -/
theorem program_cases (options : LoweringOptions) {expr : Expr}
    (lowerable : expr.isLowerable = true) :
    (exists value, expr.eval? = some (UInt32.toUInt64 value) ∧
      expr.program options = Program.exitConstant value ∧ expr.peakDepth options = 0 ∧
      forall room, expr.exitWithin options room = .ok value.toUInt64) ∨
    (expr.program options = expr.blocks options.optimize ++ Program.exitTop ∧
      expr.peakDepth options = expr.stackDepth options.optimize ∧
      forall room, expr.exitWithin options room = expr.evalWithin options.optimize room) := by
  cases optimized : options.optimize with
  | false =>
      right
      refine ⟨?_, ?_, fun room => ?_⟩
      · rw [program, optimized]
      · rw [peakDepth, optimized]
      · rw [exitWithin, optimized]
  | true =>
      cases found : expr.literalValue? with
      | none =>
          right
          refine ⟨?_, ?_, fun room => ?_⟩
          · rw [program, optimized, found]
          · have compound := ungrouped_ne_literal lowerable found
            unfold peakDepth
            split
            · rename_i constant optimize same
              exact absurd same (compound constant)
            · rw [optimized]
          · rw [exitWithin, optimized, found]
      | some value =>
          rcases exists_literal_of_literalValue? found with ⟨constant, same, -⟩
          left
          refine ⟨value, eval?_of_literalValue? found, ?_, ?_, fun room => ?_⟩
          · rw [program, optimized, found]
          · rw [peakDepth, optimized, same]
          · rw [exitWithin, optimized, found]

/-- Following the operations of a program does what evaluation within the room of the stack says. -/
theorem ends_program (options : LoweringOptions) {expr : Expr} (lowerable : expr.isLowerable = true)
    {machine : Machine} (ready : Ready machine) :
    Ends (expr.exitWithin options machine.room) (expr.program options).flatten machine := by
  rcases program_cases options lowerable with
    ⟨value, -, operations, -, evaluated⟩ | ⟨operations, -, evaluated⟩
  · rw [operations, evaluated]
    exact ends_exitConstant ready.running value
  · have body := evaluates_blocks options.optimize lowerable ready
    rw [operations, evaluated, List.flatten_append]
    cases within : expr.evalWithin options.optimize machine.room with
    | error stop =>
        rw [within] at body
        exact body.stopped Program.exitTop.flatten
    | ok value =>
        rw [within] at body
        exact ends_exitTop ready body

/-! ## The room that a program takes -/

theorem exitWithin_eq_ok (options : LoweringOptions) {expr : Expr}
    (lowerable : expr.isLowerable = true) (room : Nat) (value : UInt64) :
    expr.exitWithin options room = .ok value <->
      expr.eval? = some value ∧ expr.peakDepth options ≤ room := by
  rcases program_cases options lowerable with
    ⟨constant, known, -, depth, evaluated⟩ | ⟨-, depth, evaluated⟩
  · rw [evaluated, known, depth]
    simp
  · rw [evaluated, depth, evalWithin_eq_ok]

theorem lt_peakDepth_of_overflow {options : LoweringOptions} {expr : Expr}
    (lowerable : expr.isLowerable = true) {room : Nat}
    (stopped : expr.exitWithin options room = .error .overflow) :
    room < expr.peakDepth options := by
  rcases program_cases options lowerable with ⟨constant, -, -, -, evaluated⟩ | ⟨-, depth, evaluated⟩
  · rw [evaluated] at stopped
    cases stopped
  · rw [evaluated] at stopped
    rw [depth]
    exact lt_stackDepth_of_overflow stopped

theorem eval?_of_exitWithin {options : LoweringOptions} {expr : Expr}
    (lowerable : expr.isLowerable = true) {room : Nat}
    (stopped : expr.exitWithin options room = .error .undefined) : expr.eval? = none := by
  rcases program_cases options lowerable with ⟨constant, -, -, -, evaluated⟩ | ⟨-, -, evaluated⟩
  · rw [evaluated] at stopped
    cases stopped
  · rw [evaluated] at stopped
    exact eval?_of_undefined stopped

end Expr

/-! ## Loading a program -/

namespace Machine

/-- A machine with code loaded at address zero, about to run it from there. -/
def loaded (machine : Machine) (code : List UInt8) : Machine :=
  { machine with
    memory := writeBytes machine.memory 0 code
    codeEnd := code.length
    position := 0
    registers :=
      machine.registers.set stackPointer (UInt64.ofNat machine.memory.size) stackPointer.bound
    halted := false
    fault := none }

section Load

variable {machine : Machine} {code : List UInt8}

theorem load_eq (nonempty : 0 < code.length) (fits : code.length ≤ machine.memory.size) :
    machine.load code 0 = .ok (machine.loaded code) := by
  have begins : ¬ code.length ≤ UInt32.toNat 0 := Nat.not_le.mpr nonempty
  rw [load, if_neg (Nat.not_lt.mpr fits), if_neg begins]
  rfl

theorem size_loaded : (machine.loaded code).memory.size = machine.memory.size :=
  writeBytes_size _ _ _

theorem register_stackPointer_loaded :
    (machine.loaded code).register stackPointer = UInt64.ofNat machine.memory.size :=
  register_setRegister_same machine stackPointer _

variable (addressable : machine.memory.size < 0x10000000000000000)

include addressable

theorem toNat_stackPointer_loaded :
    ((machine.loaded code).register stackPointer).toNat = machine.memory.size := by
  rw [register_stackPointer_loaded, UInt64.toNat_ofNat']
  exact Nat.mod_eq_of_lt addressable

theorem ready_loaded : Ready (machine.loaded code) where
  running := rfl
  addressable := by
    rw [size_loaded]
    exact addressable
  inside := by rw [toNat_stackPointer_loaded addressable, size_loaded]

theorem room_loaded : (machine.loaded code).room = (machine.memory.size - code.length) / 8 := by
  rw [room, toNat_stackPointer_loaded addressable]
  rfl

theorem holds_loaded (fits : code.length ≤ machine.memory.size) :
    (machine.loaded code).code.Holds (machine.loaded code).position code where
  below := Nat.le_of_eq (Nat.zero_add _)
  inside := Nat.le_trans fits (Nat.le_of_eq size_loaded.symm)
  addressable := Nat.lt_of_le_of_lt (Nat.le_of_eq size_loaded) addressable
  listed := fun index inside =>
    getElem?_writeBytes_inside machine.memory 0 code (by rw [Nat.zero_add]; exact fits) inside

end Load

theorem size_initial : initial.memory.size = defaultSize :=
  Array.size_replicate

theorem addressable_initial : initial.memory.size < 0x10000000000000000 := by
  rw [size_initial]
  decide

/-- Running the loaded code of a program follows its operations, and does not crash. -/
theorem attemptRun_loaded {operations : List Operation} {machine : Machine}
    (expressible : forall operation, operation ∈ operations -> operation.IsExpressible)
    (keeps : operations.all Operation.keepsCode = true) (roomy : 8 ≤ machine.memory.size)
    (addressable : machine.memory.size < 0x10000000000000000)
    (fits : (operations.flatMap Operation.encode).length ≤ machine.memory.size)
    (stops :
      ((machine.loaded (operations.flatMap Operation.encode)).follow operations).halted = true) :
    (machine.loaded (operations.flatMap Operation.encode)).attemptRun
        (machine.loaded (operations.flatMap Operation.encode)).limit =
      .completed () ((machine.loaded (operations.flatMap Operation.encode)).follow operations) :=
  attemptRun_limit_eq_follow expressible (List.all_eq_true.mp keeps)
    (by rw [size_loaded]; exact roomy) (holds_loaded addressable fits) stops

theorem Ends.halted {result : Except Expr.Stop UInt64} {operations : List Operation}
    {machine : Machine}
    (ends : Ends result operations machine) : (machine.follow operations).halted = true := by
  cases result with
  | ok value => exact Exited.halted ends
  | error stop => exact Stopped.halted ends

end Machine

/-- A text with an entry point is run as soon as its code is loaded.  The machine is kept abstract,
so that nobody has to look into its memory. -/
theorem execute_of_entry {text : AssemblyText} {assembly : Assembly} {entry : UInt32}
    (assembled : Assembly.ofText text = .ok assembly)
    (defined : Assembly.labelOffset? assembly.labels Program.entryPoint = some entry) :
    execute text =
      match Machine.initial.load assembly.code entry with
      | .error error => .notLoaded error
      | .ok machine => .ofRun (machine.attemptRun machine.limit) := by
  obtain ⟨fresh, same⟩ : exists fresh, fresh = Machine.initial := ⟨_, rfl⟩
  rw [execute, assembled, <- same]
  cases loads : fresh.load assembly.code entry <;> simp only [defined, loads]

namespace Expr

open Machine

theorem keepsCode_inRegisters (op : BinaryOp) :
    op.inRegisters.all Operation.keepsCode = true := by
  cases op <;> rfl

theorem keepsCode_unary (op : UnaryOp) : op.operations.all Operation.keepsCode = true := by
  cases op <;> rfl

theorem keepsCode_binary (op : BinaryOp) : op.operations.all Operation.keepsCode = true := by
  cases op <;> rfl

/-- No operation of an expression stores to memory. -/
theorem keepsCode_blocks (optimize : Bool) (expr : Expr) :
    (expr.blocks optimize).flatten.all Operation.keepsCode = true := by
  induction expr with
  | missing => rfl
  | literal constant =>
      rw [blocks]
      split <;> rfl
  | group inner ih => exact ih
  | unary op right ih => simp [blocks, ih, keepsCode_unary]
  | binary op left right ihLeft ihRight =>
      rw [blocks]
      split
      · simp [keepsCode_inRegisters, Operation.keepsCode, Operation.isStore]
      · simp [ihLeft, ihRight, keepsCode_binary]

theorem keepsCode_program (options : LoweringOptions) (expr : Expr) :
    (expr.program options).flatten.all Operation.keepsCode = true := by
  rw [program]
  split
  · rename_i value optimized found
    rw [Program.exitConstant]
    split <;> rfl
  · rw [List.flatten_append, List.all_append, keepsCode_blocks]
    rfl

/-- The machine code of a program. -/
def code (options : LoweringOptions) (expr : Expr) : List UInt8 :=
  (expr.program options).flatten.flatMap Operation.encode

/-- How the program of an expression ends: it does not fit memory, or its operations are
followed. -/
def outcome (options : LoweringOptions) (expr : Expr) : Outcome :=
  if defaultSize < (expr.code options).length then
    .notLoaded (.tooLarge (expr.code options).length defaultSize)
  else
    .halted ((initial.loaded (expr.code options)).follow (expr.program options).flatten)

theorem length_flatten_of_assembles {idioms : List Idiom} {blocks : List (List Operation)}
    (assembles : List.Forall₂ Idiom.Assembles idioms blocks) :
    idioms.flatten.length = blocks.flatten.length :=
  (List.rel_flatten assembles).length_eq

theorem expressible_of_assembles {idioms : List Idiom} {blocks : List (List Operation)}
    (assembles : List.Forall₂ Idiom.Assembles idioms blocks) :
    forall operation, operation ∈ blocks.flatten -> operation.IsExpressible := by
  have expressed := (List.rel_flatten assembles).flip.imp fun _ _ assembles =>
    And.intro assembles.expressible assembles
  exact ((List.forall₂_and_left _ _).mp expressed).1

theorem length_program_pos (options : LoweringOptions) (expr : Expr) :
    0 < (expr.program options).flatten.length := by
  rw [program]
  split
  · exact Nat.succ_pos _
  · rw [List.flatten_append, List.length_append]
    exact Nat.add_pos_right _ (Nat.succ_pos _)

/-- The number of stack slots in what the code leaves of memory. -/
def freeSlots (options : LoweringOptions) (expr : Expr) : Nat :=
  (defaultSize - (expr.code options).length) / 8

theorem ends_loaded (options : LoweringOptions) {expr : Expr}
    (lowerable : expr.isLowerable = true) :
    Ends (expr.exitWithin options (expr.freeSlots options))
      (expr.program options).flatten (initial.loaded (expr.code options)) := by
  have ready : Ready (initial.loaded (expr.code options)) := ready_loaded addressable_initial
  have ends := ends_program options lowerable ready
  rw [room_loaded addressable_initial, size_initial] at ends
  exact ends

/-- The written program of an expression, assembled and run, follows the operations of the
expression. -/
theorem execute_program (options : LoweringOptions) {expr : Expr}
    (lowerable : expr.isLowerable = true) :
    exists idioms sourceMap, Program.ofExpr options expr = .ok (Program.ofIdioms idioms) ∧
      idioms.flatten.length = (expr.program options).flatten.length ∧
      Assembly.ofText (Text.glyphs (Program.ofIdioms idioms).render) =
        .ok ⟨expr.code options, sourceMap, [(Program.entryPoint, 0)]⟩ ∧
      execute (Text.glyphs (Program.ofIdioms idioms).render) = expr.outcome options := by
  rcases ofExpr_of_isLowerable options lowerable with ⟨idioms, lowered, assembles⟩
  rcases Program.ofText_render assembles with ⟨sourceMap, assembled⟩
  change Assembly.ofText _ = .ok ⟨expr.code options, sourceMap, _⟩ at assembled
  refine ⟨idioms, sourceMap, lowered, length_flatten_of_assembles assembles, assembled, ?_⟩
  have entry : Assembly.labelOffset? [(Program.entryPoint, 0)] Program.entryPoint = some 0 := by
    decide
  have nonempty : 0 < (expr.code options).length :=
    Nat.lt_of_lt_of_le (length_program_pos options expr) (length_le_length_encode _)
  rw [execute_of_entry assembled entry]
  by_cases large : defaultSize < (expr.code options).length
  · rw [outcome, if_pos large, load, size_initial, if_pos large]
  · have fits : (expr.code options).length ≤ initial.memory.size := by
      rw [size_initial]
      exact Nat.le_of_not_lt large
    have roomy : 8 ≤ initial.memory.size := by
      rw [size_initial]
      decide
    have ran := attemptRun_loaded (expressible_of_assembles assembles)
      (keepsCode_program options expr) roomy addressable_initial fits
      (ends_loaded options lowerable).halted
    rw [outcome, if_neg large, load_eq nonempty fits]
    exact congrArg Outcome.ofRun ran

theorem code_of_assembled {options : LoweringOptions} {expr : Expr} {result : Program}
    {assembly : Assembly} (lowered : Program.ofExpr options expr = .ok result)
    (assembled : Assembly.ofText (Text.glyphs result.render) = .ok assembly) :
    assembly.code = expr.code options := by
  rcases execute_program options (isLowerable_of_ofExpr lowered) with
    ⟨idioms, sourceMap, found, -, known, -⟩
  have same : result = Program.ofIdioms idioms := Except.ok.inj (lowered.symm.trans found)
  rw [same] at assembled
  exact congrArg Assembly.code (Except.ok.inj (assembled.symm.trans known))

/-- The three ways in which the run of a program ends. -/
inductive Ran (options : LoweringOptions) (expr : Expr) : Outcome -> Prop
  | tooLarge (large : defaultSize < (expr.code options).length) :
      Ran options expr (.notLoaded (.tooLarge (expr.code options).length defaultSize))
  | exited {machine : Machine} (fits : (expr.code options).length ≤ defaultSize)
      (evaluated : expr.exitWithin options (expr.freeSlots options) = .ok machine.exitStatus)
      (halted : machine.halted = true) (fault : machine.fault = none)
      (steps : machine.steps.toNat = (expr.program options).flatten.length)
      (top : (machine.register stackPointer).toNat = defaultSize) :
      Ran options expr (.halted machine)
  | stopped {machine : Machine} {stop : Stop} {address : UInt64}
      (fits : (expr.code options).length ≤ defaultSize)
      (evaluated : expr.exitWithin options (expr.freeSlots options) = .error stop)
      (halted : machine.halted = true) (fault : machine.fault = some (stop.fault address)) :
      Ran options expr (.halted machine)

theorem ran_outcome (options : LoweringOptions) {expr : Expr}
    (lowerable : expr.isLowerable = true) :
    expr.Ran options (expr.outcome options) := by
  by_cases large : defaultSize < (expr.code options).length
  · rw [outcome, if_pos large]
    exact .tooLarge large
  · have fits := Nat.le_of_not_lt large
    have ends := ends_loaded options lowerable
    rw [outcome, if_neg large]
    cases evaluated : expr.exitWithin options (expr.freeSlots options) with
    | error stop =>
        rw [evaluated] at ends
        rcases ends with ⟨halted, -, address, fault⟩
        exact .stopped fits evaluated halted fault
    | ok value =>
        rw [evaluated] at ends
        rcases ends with ⟨halted, exitStatus, steps, fault, -, top⟩
        rw [<- exitStatus] at evaluated
        refine .exited fits evaluated halted fault ?_ ?_
        · have fewer : (expr.program options).flatten.length ≤ (expr.code options).length :=
            length_le_length_encode _
          have small : defaultSize < 0x10000000000000000 := by decide
          rw [steps]
          change (0 + UInt64.ofNat _).toNat = _
          rw [UInt64.zero_add, UInt64.toNat_ofNat']
          exact Nat.mod_eq_of_lt (by omega)
        · rw [top, toNat_stackPointer_loaded addressable_initial, size_initial]

end Expr

/-- The instructions of a program, in the order in which they are written. -/
def Program.instructions (program : Program) : List Instruction :=
  program.text.flatMap fun part => part.idioms.flatten

theorem exists_of_compile {options : LoweringOptions} {source text : String}
    (compiled : compile options source = .ok text) :
    exists expr program, Expr.parse source = .ok expr ∧ Program.ofExpr options expr = .ok program ∧
      text = program.render := by
  rcases exists_of_bind_eq_ok compiled with ⟨expr, parsed, rest⟩
  rcases exists_of_bind_eq_ok rest with ⟨program, lowered, rendered⟩
  refine ⟨expr, program, ?_, lowered, (Except.ok.inj rendered).symm⟩
  cases read : Expr.parse source with
  | error diagnostic =>
      rw [read] at parsed
      cases parsed
  | ok found =>
      rw [read] at parsed
      exact congrArg Except.ok (Except.ok.inj parsed)

/-- An expression that can be lowered compiles, and running its source text follows its
operations. -/
theorem evaluate_of_isLowerable (options : LoweringOptions) {source : String} {expr : Expr}
    (parsed : Expr.parse source = .ok expr) (lowerable : expr.isLowerable = true) :
    exists text assembly, compile options source = .ok text ∧
      Assembly.ofText (Text.glyphs text) = .ok assembly ∧ assembly.code = expr.code options ∧
      evaluate options source = .ok (expr.outcome options) := by
  rcases Expr.execute_program options lowerable with
    ⟨idioms, sourceMap, lowered, -, assembled, executed⟩
  have compiled : compile options source = .ok (Program.ofIdioms idioms).render := by
    rw [compile, parsed]
    change Program.ofExpr options expr >>= _ = _
    rw [lowered]
    rfl
  refine ⟨_, _, compiled, assembled, rfl, ?_⟩
  rw [<- executed, evaluate, compiled]
  rfl

theorem exists_of_evaluate {options : LoweringOptions} {source : String} {outcome : Outcome}
    (evaluated : evaluate options source = .ok outcome) :
    exists expr, Expr.parse source = .ok expr ∧ expr.isLowerable = true ∧
      outcome = expr.outcome options := by
  rcases exists_of_bind_eq_ok evaluated with ⟨text, compiled, -⟩
  rcases exists_of_compile compiled with ⟨expr, program, parsed, lowered, -⟩
  have lowerable := Expr.isLowerable_of_ofExpr lowered
  rcases evaluate_of_isLowerable options parsed lowerable with ⟨-, -, -, -, -, known⟩
  exact ⟨expr, parsed, lowerable, Except.ok.inj (evaluated.symm.trans known)⟩

/-- The room suffices exactly if the code and the stack at its peak fit memory together. -/
theorem Expr.exitWithin_freeSlots {options : LoweringOptions} {expr : Expr}
    (lowerable : expr.isLowerable = true) (fits : (expr.code options).length ≤ Machine.defaultSize)
    (value : UInt64) :
    expr.exitWithin options (expr.freeSlots options) = .ok value <->
      expr.eval? = some value ∧
        (expr.code options).length + 8 * expr.peakDepth options ≤ Machine.defaultSize := by
  rw [exitWithin_eq_ok options lowerable, freeSlots, Nat.le_div_iff_mul_le (by decide)]
  exact and_congr_right fun _ => by omega

namespace Expr.Ran

variable {options : LoweringOptions} {expr : Expr} {outcome : Outcome}
  (lowerable : expr.isLowerable = true) (ran : expr.Ran options outcome)

include lowerable ran

/-- A run succeeds exactly if there is a value and memory suffices. -/
theorem error?_eq_none :
    outcome.error? = none <-> expr.eval?.isSome = true ∧
      (expr.code options).length + 8 * expr.peakDepth options ≤ Machine.defaultSize := by
  cases ran with
  | tooLarge large =>
      refine ⟨nofun, ?_⟩
      rintro ⟨-, enough⟩
      exact absurd (Nat.le_trans (Nat.le_add_right _ _) enough) (Nat.not_le.mpr large)
  | exited fits evaluated halted fault steps top =>
      rcases (exitWithin_freeSlots lowerable fits _).mp evaluated with ⟨known, enough⟩
      rw [Outcome.error?, fault, known]
      exact ⟨fun _ => ⟨rfl, enough⟩, fun _ => rfl⟩
  | stopped fits evaluated halted fault =>
      rw [Outcome.error?, fault]
      refine ⟨nofun, ?_⟩
      rintro ⟨defined, enough⟩
      rcases Option.isSome_iff_exists.mp defined with ⟨value, known⟩
      have done := (exitWithin_freeSlots lowerable fits value).mpr ⟨known, enough⟩
      rw [evaluated] at done
      cases done

/-- A run that succeeds exits with the value, and has its stack back. -/
theorem succeeded (fine : outcome.error? = none) :
    exists machine, outcome = .halted machine ∧ machine.halted = true ∧
      expr.eval? = some machine.exitStatus ∧
      machine.steps.toNat = (expr.program options).flatten.length ∧
      (machine.register stackPointer).toNat = Machine.defaultSize := by
  cases ran with
  | tooLarge large => cases fine
  | @exited machine fits evaluated halted fault steps top =>
      have known := ((exitWithin_freeSlots lowerable fits _).mp evaluated).1
      exact ⟨machine, rfl, halted, known, steps, top⟩
  | stopped fits evaluated halted fault =>
      rw [Outcome.error?, fault] at fine
      cases fine

/-- A run that fails does so for want of memory, or at a division. -/
theorem failed (error : outcome.error? ≠ none) :
    (outcome = .notLoaded (.tooLarge (expr.code options).length Machine.defaultSize) ∧
      Machine.defaultSize < (expr.code options).length) ∨
    exists machine address, outcome = .halted machine ∧ machine.halted = true ∧
      (machine.fault = some (.stackOverflow address) ∧
        Machine.defaultSize < (expr.code options).length + 8 * expr.peakDepth options ∨
      machine.fault = some (.divideError address) ∧ expr.eval? = none) := by
  cases ran with
  | tooLarge large => exact Or.inl ⟨rfl, large⟩
  | exited fits evaluated halted fault steps top =>
      rw [Outcome.error?, fault] at error
      exact absurd rfl error
  | @stopped machine stop address fits evaluated halted fault =>
      refine Or.inr ⟨machine, address, rfl, halted, ?_⟩
      cases stop with
      | overflow =>
          have deeper := lt_peakDepth_of_overflow lowerable evaluated
          rw [freeSlots, Nat.div_lt_iff_lt_mul (by decide)] at deeper
          exact Or.inl ⟨fault, by omega⟩
      | undefined => exact Or.inr ⟨fault, eval?_of_exitWithin lowerable evaluated⟩

end Expr.Ran

/-- A source text that compiles can be written as assembly text, and also runs.  It runs without an
error exactly if its expression has a value and the code and the stack fit memory together; then it
exits with that value, after executing every instruction of the program once, and with the stack
back where it was.  Otherwise the code is too large, or the stack overflows, or a division has no
result. -/
theorem evaluate_of_compile {options : LoweringOptions} {source text : String}
    (compiled : compile options source = .ok text) :
    exists expr program assembly outcome,
      Expr.parse source = .ok expr ∧ Program.ofExpr options expr = .ok program ∧
      program.isWritable = true ∧ text = program.render ∧
      Assembly.ofText (Text.glyphs text) = .ok assembly ∧
      evaluate options source = .ok outcome ∧
      (outcome.error? = none <-> expr.eval?.isSome = true ∧
        assembly.code.length + 8 * expr.peakDepth options ≤ Machine.defaultSize) ∧
      (outcome.error? = none -> exists machine, outcome = .halted machine ∧ machine.halted = true ∧
        expr.eval? = some machine.exitStatus ∧
        machine.steps.toNat = program.instructions.length ∧
        (machine.register stackPointer).toNat = Machine.defaultSize) ∧
      (outcome.error? ≠ none ->
        (outcome = .notLoaded (.tooLarge assembly.code.length Machine.defaultSize) ∧
          Machine.defaultSize < assembly.code.length) ∨
        exists machine address, outcome = .halted machine ∧ machine.halted = true ∧
          (machine.fault = some (.stackOverflow address) ∧
            Machine.defaultSize < assembly.code.length + 8 * expr.peakDepth options ∨
          machine.fault = some (.divideError address) ∧ expr.eval? = none)) := by
  rcases exists_of_compile compiled with ⟨expr, program, parsed, lowered, rfl⟩
  have lowerable := Expr.isLowerable_of_ofExpr lowered
  rcases Expr.execute_program options lowerable with
    ⟨idioms, sourceMap, found, counted, assembled, executed⟩
  have same : program = Program.ofIdioms idioms := Except.ok.inj (lowered.symm.trans found)
  subst same
  have evaluated : evaluate options source = .ok (expr.outcome options) := by
    rw [<- executed, evaluate, compiled]
    rfl
  have instructions : (Program.ofIdioms idioms).instructions.length =
      (expr.program options).flatten.length := by
    rw [<- counted]
    exact congrArg List.length (List.append_nil _)
  have ran := Expr.ran_outcome options lowerable
  refine ⟨expr, _, _, _, parsed, lowered, Expr.isWritable_of_ofExpr lowered, rfl, assembled,
    evaluated, ran.error?_eq_none lowerable, ?_, ran.failed lowerable⟩
  intro fine
  rw [instructions]
  exact ran.succeeded lowerable fine

theorem evaluate_of_compile_quotient :
    exists text, compile ⟨true⟩ "-8 / 3" = .ok text ∧
      exists machine, evaluate ⟨true⟩ "-8 / 3" = .ok (.halted machine) ∧
        machine.exitStatus = 6148914691236517202 ∧
        (machine.register stackPointer).toNat = Machine.defaultSize := by
  have facts : (Expr.parse "-8 / 3").toOption.map
      (fun expr => (expr.eval?, expr.peakDepth ⟨true⟩, (expr.code ⟨true⟩).length)) =
        some (some 6148914691236517202, 2, 46) := by
    decide +kernel
  have accepted : (compile ⟨true⟩ "-8 / 3").toOption.isSome = true := by decide +kernel
  cases compiled : compile ⟨true⟩ "-8 / 3" with
  | error problem =>
      rw [compiled] at accepted
      cases accepted
  | ok text =>
      rcases evaluate_of_compile compiled with
        ⟨expr, program, assembly, outcome, parsed, lowered, -, rfl, assembled, evaluated,
          succeeds, exits, -⟩
      have found : (expr.eval?, expr.peakDepth ⟨true⟩, (expr.code ⟨true⟩).length) =
          (some 6148914691236517202, 2, 46) := by
        rw [parsed] at facts
        exact Option.some.inj facts
      rcases Prod.mk.inj found with ⟨known, sizes⟩
      rcases Prod.mk.inj sizes with ⟨peak, length⟩
      rw [Expr.code_of_assembled lowered assembled, known, peak, length] at succeeds
      rcases exits (succeeds.mpr ⟨rfl, by decide⟩) with ⟨machine, rfl, -, status, -, top⟩
      exact ⟨_, rfl, machine, evaluated, Option.some.inj (status.symm.trans known), top⟩

end LoxNative
