import Mathlib
import LoxNative.Proofs.ExactFlags
import LoxNative.Proofs.LoweredCode
import LoxNative.Proofs.StraightLine

namespace LoxNative

/-!
# Lowered code evaluates its expression

The operations of an expression, followed on any machine that is ready for them, leave the value of
the expression on top of the stack; or the machine stops, for want of room or at a division by zero.
Which of the three happens is what evaluation within the free room of the stack says.

The proof goes by induction over the expression.  What carries it is how little a subexpression
touches: the stack above its own slot stays as it was, so the left operand is still there when the
right one is done.
-/

namespace Flags

/-! ## Comparisons -/

/-- The test of a comparison, made on the flags of a subtraction, decides the comparison. -/
theorem holds?_of_compare {op : BinaryOp} (listed : op.idiom.toOption.isSome = true)
    (comparison : op.isArithmetic = false) (left right : UInt64) :
    exists holds, (Arithmetic.apply .cmp left right).2.holds? op.conditionCode = some holds ∧
      op.result? left right = some (if holds then 1 else 0) := by
  rw [holds?_of_cmp]
  cases op with
  | equal => exact ⟨_, rfl, by simp [BinaryOp.result?]⟩
  | notEqual => exact ⟨_, rfl, by simp [BinaryOp.result?]⟩
  | less => exact ⟨_, rfl, by simp [BinaryOp.result?, Int64.lt_iff_toInt_lt]⟩
  | greaterEqual => exact ⟨_, rfl, by simp [BinaryOp.result?, Int64.le_iff_toInt_le]⟩
  | lessEqual => exact ⟨_, rfl, by simp [BinaryOp.result?, Int64.le_iff_toInt_le]⟩
  | greater => exact ⟨_, rfl, by simp [BinaryOp.result?, Int64.lt_iff_toInt_lt]⟩
  | unlisted code => cases listed
  | _ => cases comparison

end Flags

/-- The fault with which a machine stops where evaluation does. -/
def Expr.Stop.fault : Expr.Stop -> UInt64 -> Fault
  | overflow => .stackOverflow
  | undefined => .divideError

namespace Machine

/-! ## What following operations can do -/

/-- A machine went on for a number of instructions.  It did not stop, and of the stack it changed
only what lies below the pointer it started with. -/
structure Progress (count : Nat) (before after : Machine) : Prop where
  running : after.halted = false
  steps : after.steps = before.steps + UInt64.ofNat count
  codeEnd : after.codeEnd = before.codeEnd
  size : after.memory.size = before.memory.size
  fault : after.fault = before.fault
  output : after.output = before.output
  above : forall index, (before.register stackPointer).toNat ≤ index ->
    after.memory[index]? = before.memory[index]?

/-- A machine went on and has its stack back. -/
structure Balanced (count : Nat) (before after : Machine) :
    Prop extends Progress count before after where
  top : after.register stackPointer = before.register stackPointer

/-- A machine went on and has one more value on its stack. -/
structure Pushed (count : Nat) (value : UInt64) (before after : Machine) : Prop extends
    Progress count before after where
  top : after.register stackPointer = before.register stackPointer - 8
  room : before.codeEnd + 8 ≤ (before.register stackPointer).toNat
  value : quadword after.memory (after.register stackPointer).toNat = value

/-- A machine stopped where evaluation does. -/
structure Stopped (stop : Expr.Stop) (before after : Machine) : Prop where
  halted : after.halted = true
  output : after.output = before.output
  fault : exists address, after.fault = some (stop.fault address)

/-- A running machine whose stack pointer is inside a memory that can be addressed. -/
structure Ready (machine : Machine) : Prop where
  running : machine.halted = false
  addressable : machine.memory.size < 0x10000000000000000
  inside : (machine.register stackPointer).toNat ≤ machine.memory.size

/-- The number of values that the stack has room for. -/
def room (machine : Machine) : Nat :=
  ((machine.register stackPointer).toNat - machine.codeEnd) / 8

section Composition

variable {first second third : Machine} {count more : Nat} {value : UInt64} {stop : Expr.Stop}

/-- Stretches follow one another where the second one leaves the stack of the first alone. -/
theorem Progress.trans (before : Progress count first second) (after : Progress more second third)
    (lower : forall index, (first.register stackPointer).toNat ≤ index ->
      (second.register stackPointer).toNat ≤ index) : Progress (count + more) first third where
  running := after.running
  steps := by rw [after.steps, before.steps, UInt64.ofNat_add, UInt64.add_assoc]
  codeEnd := after.codeEnd.trans before.codeEnd
  size := after.size.trans before.size
  fault := after.fault.trans before.fault
  output := after.output.trans before.output
  above := fun index least =>
    (after.above index (lower index least)).trans (before.above index least)

theorem Balanced.trans (before : Balanced count first second) (after : Balanced more second third) :
    Balanced (count + more) first third where
  toProgress := before.toProgress.trans after.toProgress
    (fun index least => by rw [before.top]; exact least)
  top := after.top.trans before.top

theorem Balanced.pushed (before : Balanced count first second)
    (after : Pushed more value second third) :
    Pushed (count + more) value first third where
  toProgress := before.toProgress.trans after.toProgress
    (fun index least => by rw [before.top]; exact least)
  top := by rw [after.top, before.top]
  room := by
    rw [<- before.codeEnd, <- before.top]
    exact after.room
  value := after.value

theorem Pushed.lowered (pushed : Pushed count value first second) :
    (second.register stackPointer).toNat + 8 = (first.register stackPointer).toNat := by
  have room := pushed.room
  rw [pushed.top, toNat_sub_eight (by omega)]
  omega

/-- A value stays on the stack while what follows has its own stack back. -/
theorem Pushed.balanced (before : Pushed count value first second)
    (after : Balanced more second third)
    (inside : (first.register stackPointer).toNat ≤ first.memory.size) :
    Pushed (count + more) value first third where
  toProgress := before.toProgress.trans after.toProgress (fun index least => by
    have lowered := before.lowered
    omega)
  top := after.top.trans before.top
  room := before.room
  value := by
    have lowered := before.lowered
    have size := before.size
    rw [after.top, <- before.value]
    refine quadword_congr ?_ ?_ (fun index least less => after.above index least)
    · rw [after.size]
      omega
    · omega

theorem Stopped.of_progress (before : Progress count first second)
    (after : Stopped stop second third) :
    Stopped stop first third :=
  ⟨after.halted, after.output.trans before.output, after.fault⟩

theorem Ready.balanced (ready : Ready first) (balanced : Balanced count first second) :
    Ready second where
  running := balanced.running
  addressable := by
    rw [balanced.size]
    exact ready.addressable
  inside := by
    rw [balanced.top, balanced.size]
    exact ready.inside

theorem Ready.pushed (ready : Ready first) (pushed : Pushed count value first second) :
    Ready second where
  running := pushed.running
  addressable := by
    rw [pushed.size]
    exact ready.addressable
  inside := by
    have lowered := pushed.lowered
    have inside := ready.inside
    rw [pushed.size]
    omega

theorem Balanced.room_eq (balanced : Balanced count first second) : second.room = first.room := by
  rw [Machine.room, Machine.room, balanced.top, balanced.codeEnd]

theorem Pushed.room_eq (pushed : Pushed count value first second) :
    second.room = first.room - 1 := by
  have lowered := pushed.lowered
  have least := pushed.room
  rw [Machine.room, Machine.room, pushed.codeEnd]
  omega

end Composition

/-! ## Operators in registers -/

/-- Following some operations leaves a value in the accumulator and the stack as it was; or, where
there is no value, it stops the machine. -/
def Computes (value? : Option UInt64) (operations : List Operation) (machine : Machine) : Prop :=
  match value? with
  | some value =>
      Balanced operations.length machine (machine.follow operations) ∧
        (machine.follow operations).register 0 = value
  | none => Stopped .undefined machine (machine.follow operations)

section Registers

variable {machine : Machine} {operation : Operation}

/-- An operation that changes nothing but registers and flags leaves the stack alone. -/
theorem balanced_next {registers : Vector UInt64 16} {flags : Flags}
    (running : machine.halted = false) (same : machine.next operation =
      { machine.fetched operation.encode.length with registers, flags })
    (top : registers.get stackPointer = machine.register stackPointer) :
    Balanced 1 machine (machine.next operation) where
  running := by
    rw [same]
    exact running
  steps := by
    rw [same]
    rfl
  codeEnd := by rw [same]; rfl
  size := by rw [same]; rfl
  fault := by rw [same]; rfl
  output := by rw [same]; rfl
  above := fun _ _ => by rw [same]; rfl
  top := by
    rw [same]
    exact top

/-- Setting a register other than the stack pointer, and the flags, leaves the stack alone. -/
theorem balanced_setRegister {number : RegisterNumber} (other : stackPointer ≠ number)
    {value : UInt64} {flags : Flags} (running : machine.halted = false)
    (same : machine.next operation =
      { machine.fetched operation.encode.length with flags }.setRegister number value) :
    Balanced 1 machine (machine.next operation) ∧
      (machine.next operation).register number = value ∧
      forall untouched, untouched ≠ number ->
        (machine.next operation).register untouched = machine.register untouched := by
  refine ⟨balanced_next running same ?_, ?_, ?_⟩
  · exact register_setRegister_of_ne machine other value
  · rw [same, register_setRegister_same]
  · intro untouched different
    rw [same, register_setRegister_of_ne _ different]
    rfl

theorem follow_single (running : machine.halted = false) :
    machine.follow [operation] = machine.next operation := by
  rw [follow_cons running, follow]

theorem computes_of_setRegister {value : UInt64} {flags : Flags} (running : machine.halted = false)
    (same : machine.next operation =
      { machine.fetched operation.encode.length with flags }.setRegister 0 value) :
    Computes (some value) [operation] machine := by
  rcases balanced_setRegister (by decide) running same with ⟨balanced, result, rest⟩
  rw [Computes, follow_single running]
  exact ⟨balanced, result⟩

/-- What comes before a computation may do anything that leaves the stack alone. -/
theorem Computes.after {value? : Option UInt64} (before : List Operation)
    {operations : List Operation}
    (balanced : Balanced before.length machine (machine.follow before))
    (computes : Computes value? operations (machine.follow before)) :
    Computes value? (before ++ operations) machine := by
  cases value? with
  | none =>
      rw [Computes, follow_append]
      exact Stopped.of_progress balanced.toProgress computes
  | some value =>
      rw [Computes, follow_append, List.length_append]
      exact ⟨balanced.trans computes.1, computes.2⟩

theorem balanced_setByte {code : ConditionCode} {holds : Bool} (running : machine.halted = false)
    (test : machine.flags.holds? code = some holds) :
    Balanced 1 machine (machine.next (.setByte code (.low 0))) ∧
      ((machine.next (.setByte code (.low 0))).register 0).toUInt8 = if holds then 1 else 0 := by
  have same : machine.next (.setByte code (.low 0)) =
      (machine.fetched (Operation.setByte code (.low 0)).encode.length).setByte (.low 0)
        (if holds then 1 else 0) := by
    have held :
        (machine.fetched (Operation.setByte code (.low 0)).encode.length).flags.holds? code =
          some holds := test
    apply next_of_perform
    rw [perform, held]
  rcases balanced_setRegister (by decide) running same with ⟨balanced, result, -⟩
  rw [result, toUInt8_withLowByte]
  exact ⟨balanced, rfl⟩

/-- A condition on two words is computed by a comparison, a conditional byte and its extension. -/
theorem computes_condition {target source : RegisterNumber} {code : ConditionCode} {holds : Bool}
    (running : machine.halted = false)
    (test : (Arithmetic.apply .cmp (machine.register target)
      (machine.register source)).2.holds? code =
      some holds) :
    Computes (some (if holds then 1 else 0))
      [.arithmetic .cmp target (.register source), .setByte code (.low 0), .zeroExtend 0 (.low 0)]
      machine := by
  have compared : Balanced 1 machine (machine.next (.arithmetic .cmp target (.register source))) :=
    balanced_next running rfl rfl
  rcases balanced_setByte compared.running test with ⟨set, byte⟩
  have extended : Computes (some (if holds then 1 else 0 : UInt8).toUInt64) [.zeroExtend 0 (.low 0)]
      ((machine.next (.arithmetic .cmp target (.register source))).next
        (.setByte code (.low 0))) := by
    rw [<- byte]
    exact computes_of_setRegister set.running rfl
  have widened : (if holds then 1 else 0 : UInt8).toUInt64 = if holds then 1 else 0 := by
    cases holds <;> rfl
  rw [widened] at extended
  refine Computes.after [_, _] ?_ ?_ <;> rw [follow_cons running, follow_single compared.running]
  · exact compared.trans set
  · exact extended

/-- The quotient of the words in `rax` and `rbx`, once `rdx` is cleared. -/
theorem computes_divide (running : machine.halted = false) (cleared : machine.register 2 = 0) :
    Computes (BinaryOp.divide.result? (machine.register 0) (machine.register 3))
      [.divide 3] machine := by
  by_cases zero : machine.register 3 = 0
  · have stopped : machine.next (.divide 3) =
        (machine.fetched (Operation.divide 3).encode.length).raise
          (.divideError machine.position) :=
      next_of_perform (if_pos (Or.inl zero))
    rw [BinaryOp.result?, if_pos zero, Computes, follow_single running, stopped]
    exact ⟨rfl, rfl, machine.position, rfl⟩
  · have defined : ¬ (machine.register 3 = 0 ∨ machine.register 3 ≤ machine.register 2) := by
      rw [cleared, UInt64.le_zero_iff, or_self]
      exact zero
    have quotient : UInt64.ofNat (machine.dividend / (machine.register 3).toNat) =
        machine.register 0 / machine.register 3 := by
      apply UInt64.toNat_inj.mp
      rw [dividend, cleared, UInt64.toNat_div, UInt64.toNat_ofNat', UInt64.toNat_zero, Nat.zero_mul,
        Nat.zero_add]
      exact Nat.mod_eq_of_lt (Nat.lt_of_le_of_lt (Nat.div_le_self _ _) (UInt64.toNat_lt _))
    rw [BinaryOp.result?, if_neg zero, Computes, follow_single running]
    have divided : machine.next (.divide 3) = _ := next_of_perform (divide_tested defined)
    refine ⟨balanced_next running divided ?_, ?_⟩
    · exact (register_setRegister_of_ne _ (by decide) _).trans
        (register_setRegister_of_ne _ (by decide) _)
    · rw [divided, register_setRegister_of_ne _ (by decide), register_setRegister_same]
      exact quotient

/-- An operator on the words in `rax` and `rbx`. -/
theorem computes_inRegisters {op : BinaryOp} (listed : op.idiom.toOption.isSome = true)
    (running : machine.halted = false) :
    Computes (op.result? (machine.register 0) (machine.register 3)) op.inRegisters machine := by
  cases op with
  | add => exact computes_of_setRegister running rfl
  | subtract => exact computes_of_setRegister running rfl
  | multiply =>
      rcases signedProduct?_eq_some (machine.register 0).toInt64 (machine.register 3).toInt64 with
        ⟨lost, product⟩
      exact computes_of_setRegister running (next_multiply product)
  | divide =>
      have same : machine.next (.arithmetic .xor 2 (.register 2)) =
          { machine.fetched _ with flags := _ }.setRegister 2
            (machine.register 2 ^^^ machine.register 2) := rfl
      rcases balanced_setRegister (by decide) running same with ⟨balanced, upper, others⟩
      rw [UInt64.xor_self] at upper
      have divided := computes_divide balanced.running upper
      rw [others 0 (by decide), others 3 (by decide)] at divided
      refine Computes.after [_] ?_ ?_ <;> rw [follow_single running]
      · exact balanced
      · exact divided
  | unlisted code => cases listed
  | _ =>
      rcases Flags.holds?_of_compare listed rfl (machine.register 0) (machine.register 3) with
        ⟨holds, test, result⟩
      rw [result]
      exact computes_condition running test

theorem computes_negate (running : machine.halted = false) :
    Computes (UnaryOp.negate.result? (machine.register 3))
      [.arithmetic .xor 0 (.register 0), .arithmetic .sub 0 (.register 3)] machine := by
  have same : machine.next (.arithmetic .xor 0 (.register 0)) =
      { machine.fetched _ with flags := _ }.setRegister 0
        (machine.register 0 ^^^ machine.register 0) := rfl
  rcases balanced_setRegister (by decide) running same with ⟨balanced, cleared, others⟩
  rw [UInt64.xor_self] at cleared
  refine Computes.after [_] ?_ ?_ <;> rw [follow_single running]
  · exact balanced
  · rw [UnaryOp.result?, <- cleared, <- others 3 (by decide)]
    exact computes_of_setRegister balanced.running rfl

theorem computes_not (running : machine.halted = false) :
    Computes (UnaryOp.not.result? (machine.register 0))
      [.arithmetic .xor 3 (.register 3), .arithmetic .cmp 0 (.register 3), .setByte 4 (.low 0),
        .zeroExtend 0 (.low 0)] machine := by
  have same : machine.next (.arithmetic .xor 3 (.register 3)) =
      { machine.fetched _ with flags := _ }.setRegister 3
        (machine.register 3 ^^^ machine.register 3) := rfl
  rcases balanced_setRegister (by decide) running same with ⟨balanced, cleared, others⟩
  rw [UInt64.xor_self] at cleared
  have result : UnaryOp.not.result? (machine.register 0) =
      BinaryOp.equal.result? (machine.register 0) 0 := rfl
  refine Computes.after [_] ?_ ?_ <;> rw [follow_single running]
  · exact balanced
  · rw [result, <- cleared, <- others 0 (by decide)]
    exact computes_inRegisters rfl balanced.running

end Registers

/-! ## Values on the stack -/

/-- A value comes back from the stack into a register, and the stack is as it was before the
value. -/
theorem Pushed.popped {machine : Machine} (ready : Ready machine) {operations : List Operation}
    {value : UInt64} (pushed : Pushed operations.length value machine (machine.follow operations))
    {number : RegisterNumber} (other : stackPointer ≠ number) :
    Balanced (operations ++ [Operation.pop number]).length machine
        (machine.follow (operations ++ [.pop number])) ∧
      (machine.follow (operations ++ [.pop number])).register number = value ∧
      forall untouched, untouched ≠ number -> untouched ≠ stackPointer ->
        (machine.follow (operations ++ [.pop number])).register untouched =
          (machine.follow operations).register untouched := by
  rw [follow_append, follow_single pushed.running, List.length_append]
  generalize machine.follow operations = full at pushed
  have after := ready.pushed pushed
  have lowered := pushed.lowered
  have inside : (full.register stackPointer).toNat + 8 ≤ full.memory.size := by
    have atMost := ready.inside
    rw [pushed.size]
    omega
  have raised : full.register stackPointer + 8 = machine.register stackPointer := by
    rw [pushed.top, UInt64.sub_add_cancel]
  have same : full.next (.pop number) =
      ((full.fetched (Operation.pop number).encode.length).setRegister stackPointer
        (machine.register stackPointer)).setRegister number value := by
    have popped : (full.fetched (Operation.pop number).encode.length).pop =
        .completed (some (quadword full.memory (full.register stackPointer).toNat))
          ((full.fetched (Operation.pop number).encode.length).setRegister stackPointer
            (full.register stackPointer + 8)) :=
      pop_inside inside after.addressable
    apply next_of_perform
    rw [perform, popped, raised, pushed.value]
    rfl
  have step : Progress 1 full (full.next (.pop number)) := by
    rw [same]
    exact ⟨after.running, rfl, rfl, rfl, rfl, rfl, fun _ _ => rfl⟩
  refine ⟨⟨pushed.toProgress.trans step (fun index least => by omega), ?_⟩, ?_, ?_⟩
  · rw [same, register_setRegister_of_ne _ other, register_setRegister_same]
  · rw [same, register_setRegister_same]
  · intro untouched different apart
    rw [same, register_setRegister_of_ne _ different, register_setRegister_of_ne _ apart]
    rfl

/-- Following some operations evaluates: they leave a value on the stack, or stop the machine. -/
def Evaluates (outcome : Except Expr.Stop UInt64) (operations : List Operation)
    (machine : Machine) :
    Prop :=
  match outcome with
  | .ok value => Pushed operations.length value machine (machine.follow operations)
  | .error stop => Stopped stop machine (machine.follow operations)

theorem evaluates_push {machine : Machine} (ready : Ready machine) :
    Evaluates (Expr.place machine.room (some (machine.register 0))) [.push 0] machine := by
  by_cases full : (machine.register stackPointer).toNat < machine.codeEnd + 8
  · have none : machine.room = 0 := by
      rw [room]
      omega
    have stopped : machine.next (.push 0) =
        (machine.fetched (Operation.push 0).encode.length).raise (.stackOverflow _) :=
      next_of_perform (push_overflow _ full)
    rw [none]
    change Stopped .overflow machine (machine.follow [.push 0])
    rw [follow_single ready.running, stopped]
    exact ⟨rfl, rfl, _, rfl⟩
  · have least := Nat.le_of_not_lt full
    have free : 0 < machine.room := by
      rw [room]
      omega
    have pushed : machine.next (.push 0) =
        { machine.fetched (Operation.push 0).encode.length with
          memory := withQuadword machine.memory ((machine.register stackPointer).toNat - 8)
            (machine.register 0)
        }.setRegister stackPointer (machine.register stackPointer - 8) :=
      next_of_perform (push_inside _ least ready.inside)
    have top : (machine.next (.push 0)).register stackPointer =
        machine.register stackPointer - 8 := by
      rw [pushed, register_setRegister_same]
    have memory : (machine.next (.push 0)).memory =
        withQuadword machine.memory ((machine.register stackPointer).toNat - 8)
          (machine.register 0) := by
      rw [pushed]
      rfl
    have inside := ready.inside
    rw [Expr.place, if_pos free]
    change Pushed 1 _ machine (machine.follow [.push 0])
    rw [follow_single ready.running]
    refine ⟨⟨?_, ?_, ?_, ?_, ?_, ?_, ?_⟩, top, least, ?_⟩
    · rw [pushed]
      exact ready.running
    · rw [pushed]
      rfl
    · rw [pushed]
      rfl
    · rw [memory, withQuadword_size]
    · rw [pushed]
      rfl
    · rw [pushed]
      rfl
    · intro index above
      rw [memory]
      exact getElem?_withQuadword_outside _ _ _ (Or.inr (by omega))
    · rw [top, memory, toNat_sub_eight (by omega)]
      exact quadword_withQuadword_same _ _ _ (by omega)

/-- What comes before an evaluation may do anything that leaves the stack alone. -/
theorem Evaluates.after {outcome : Except Expr.Stop UInt64} {before operations : List Operation}
    {machine : Machine} (balanced : Balanced before.length machine (machine.follow before))
    (evaluates : Evaluates outcome operations (machine.follow before)) :
    Evaluates outcome (before ++ operations) machine := by
  cases outcome with
  | error stop =>
      rw [Evaluates, follow_append]
      exact Stopped.of_progress balanced.toProgress evaluates
  | ok value =>
      rw [Evaluates, follow_append, List.length_append]
      exact balanced.pushed evaluates

/-- A computed value is pushed, if there is room for it. -/
theorem Computes.evaluates {value? : Option UInt64} {operations : List Operation}
    {machine : Machine} (computes : Computes value? operations machine) (ready : Ready machine) :
    Evaluates (Expr.place machine.room value?) (operations ++ [.push 0]) machine := by
  cases value? with
  | none =>
      change Stopped .undefined machine (machine.follow (operations ++ [.push 0]))
      rw [follow_append, follow_of_halted computes.halted]
      exact computes
  | some value =>
      rcases computes with ⟨balanced, result⟩
      have pushed := evaluates_push (ready.balanced balanced)
      rw [balanced.room_eq, result] at pushed
      exact Evaluates.after balanced pushed

section Operators

variable {machine : Machine} (ready : Ready machine)

include ready

theorem evaluates_unary {op : UnaryOp} (listed : op.idiom.toOption.isSome = true)
    {operand : List Operation} {value : UInt64}
    (pushed : Pushed operand.length value machine (machine.follow operand)) :
    Evaluates (Expr.place machine.room (op.result? value)) (operand ++ op.operations) machine := by
  cases op with
  | negate =>
      rcases pushed.popped ready (by decide : stackPointer ≠ 3) with ⟨balanced, result, -⟩
      have computes := computes_negate balanced.running
      rw [result] at computes
      have evaluates := (Computes.after _ balanced computes).evaluates ready
      rw [List.append_assoc, List.append_assoc] at evaluates
      exact evaluates
  | not =>
      rcases pushed.popped ready (by decide : stackPointer ≠ 0) with ⟨balanced, result, -⟩
      have computes := computes_not balanced.running
      rw [result] at computes
      have evaluates := (Computes.after _ balanced computes).evaluates ready
      rw [List.append_assoc, List.append_assoc] at evaluates
      exact evaluates
  | unlisted code => cases listed

/-- An operator on the two topmost values.  While the second one is popped the first one stays where
it is, which is why the second one was free to use the stack. -/
theorem evaluates_binary {op : BinaryOp} (listed : op.idiom.toOption.isSome = true)
    {left right : List Operation} {first second : UInt64}
    (pushedLeft : Pushed left.length first machine (machine.follow left))
    (pushedRight : Pushed right.length second (machine.follow left)
      ((machine.follow left).follow right)) :
    Evaluates (Expr.place machine.room (op.result? first second))
      (left ++ right ++ op.operations) machine := by
  rcases pushedRight.popped (ready.pushed pushedLeft) (by decide : stackPointer ≠ 3) with
    ⟨balancedRight, resultRight, -⟩
  have still := pushedLeft.balanced balancedRight ready.inside
  rw [<- List.length_append, <- follow_append] at still
  rcases still.popped ready (by decide : stackPointer ≠ 0) with ⟨balanced, resultLeft, others⟩
  have computes := computes_inRegisters listed balanced.running
  rw [resultLeft, others 3 (by decide) (by decide), follow_append left, resultRight] at computes
  have evaluates := (Computes.after _ balanced computes).evaluates ready
  rw [BinaryOp.operations]
  simp only [List.append_assoc, List.cons_append, List.nil_append] at evaluates ⊢
  exact evaluates

/-- An operator on two constants, computed in registers. -/
theorem evaluates_constants {op : BinaryOp} (listed : op.idiom.toOption.isSome = true)
    (first second : UInt64) :
    Evaluates (Expr.place machine.room (op.result? first second))
      ([.load 0 first, .load 3 second] ++ op.inRegisters ++ [.push 0]) machine := by
  have same : machine.next (.load 0 first) =
      { machine.fetched _ with flags := _ }.setRegister 0 first := rfl
  rcases balanced_setRegister (by decide) ready.running same with ⟨balancedFirst, loadedFirst, -⟩
  have same : (machine.next (.load 0 first)).next (.load 3 second) =
      { (machine.next (.load 0 first)).fetched _ with flags := _ }.setRegister 3 second := rfl
  rcases balanced_setRegister (by decide) balancedFirst.running same with
    ⟨balancedSecond, loadedSecond, others⟩
  have computes := computes_inRegisters listed balancedSecond.running
  rw [others 0 (by decide), loadedFirst, loadedSecond] at computes
  refine Computes.evaluates (Computes.after [_, _] ?_ ?_) ready <;>
    rw [follow_cons ready.running, follow_single balancedFirst.running]
  · exact balancedFirst.trans balancedSecond
  · exact computes

end Operators

/-- An evaluation that has stopped is not continued. -/
theorem Evaluates.stopped {stop : Expr.Stop} {operations : List Operation} {machine : Machine}
    (stopped : Evaluates (.error stop) operations machine) (rest : List Operation) :
    Evaluates (.error stop) (operations ++ rest) machine := by
  rw [Evaluates, follow_append, follow_of_halted stopped.halted]
  exact stopped

end Machine

/-! ## Whole expressions -/

namespace Expr

open Machine

theorem eval?_of_literalValue? {expr : Expr} {value : UInt32}
    (found : expr.literalValue? = some value) : expr.eval? = some value.toUInt64 := by
  induction expr with
  | literal constant =>
      change constant.value.toOption = some value at found
      rw [eval?, found]
      rfl
  | group inner ih => exact ih found
  | _ => cases found

/-- Following the operations of an expression does what evaluation within the room of the stack
says. -/
theorem evaluates_blocks (optimize : Bool) {expr : Expr} (lowerable : expr.isLowerable = true)
    {machine : Machine} (ready : Ready machine) :
    Evaluates (expr.evalWithin optimize machine.room) (expr.blocks optimize).flatten machine := by
  induction expr generalizing machine with
  | missing => cases lowerable
  | literal constant =>
      rcases value : constant.value with error | number
      · rw [isLowerable, value] at lowerable
        cases lowerable
      · have computes : Computes (some number.toUInt64) [.load 0 number.toUInt64] machine :=
          computes_of_setRegister ready.running rfl
        rw [evalWithin, blocks, value]
        exact computes.evaluates ready
  | group inner ih => exact ih lowerable ready
  | unary op right ih =>
      rw [isLowerable, Bool.and_eq_true] at lowerable
      have operand := ih lowerable.1 ready
      rw [evalWithin_unary, blocks, List.flatten_append, List.flatten_singleton]
      cases evaluated : right.evalWithin optimize machine.room with
      | error stop =>
          rw [evaluated] at operand
          exact operand.stopped op.operations
      | ok value =>
          rw [evaluated] at operand
          exact evaluates_unary ready lowerable.2 operand
  | binary op left right ihLeft ihRight =>
      rw [isLowerable, Bool.and_eq_true, Bool.and_eq_true] at lowerable
      cases stacked : isInRegisters optimize op left right with
      | true =>
          rcases exists_of_isInRegisters stacked with
            ⟨first, second, -, foundFirst, foundSecond, -, -⟩
          have known : (Expr.binary op left right).eval? =
              op.result? first.toUInt64 second.toUInt64 := by
            rw [eval?, eval?_of_literalValue? foundFirst, eval?_of_literalValue? foundSecond]
            rfl
          rw [evalWithin, if_pos stacked, known,
            blocks_of_isInRegisters stacked foundFirst foundSecond]
          exact evaluates_constants ready lowerable.2 first.toUInt64 second.toUInt64
      | false =>
          have before := ihLeft lowerable.1.1 ready
          rw [evalWithin_binary stacked, blocks_of_not_isInRegisters stacked, List.flatten_append,
            List.flatten_append, List.flatten_singleton]
          cases evaluatedLeft : left.evalWithin optimize machine.room with
          | error stop =>
              rw [evaluatedLeft] at before
              rw [List.append_assoc]
              exact before.stopped _
          | ok first =>
              rw [evaluatedLeft] at before
              have pushed :
                  Pushed _ first machine (machine.follow (left.blocks optimize).flatten) :=
                before
              have after := ihRight lowerable.1.2 (ready.pushed pushed)
              rw [pushed.room_eq] at after
              simp only
              cases evaluatedRight : right.evalWithin optimize (machine.room - 1) with
              | error stop =>
                  rw [evaluatedRight] at after
                  refine Evaluates.stopped ?_ op.operations
                  rw [Evaluates, follow_append]
                  exact Stopped.of_progress pushed.toProgress after
              | ok second =>
                  rw [evaluatedRight] at after
                  exact evaluates_binary ready lowerable.2 pushed after

end Expr

end LoxNative
