import Mathlib
import LoxNative.Proofs.CompilerCorrectness

namespace LoxNative

/-!
# Programs do not depend on what a machine did before

Loading a program sets the stack pointer and the position, and leaves all other registers, the flags
and most of memory as earlier programs left them.  A compiled program cannot tell: whatever it
reads, it has written itself before.

This is shown for two machines at once.  What a program has written is tracked along its operations,
and an operation is tracked only if it reads nothing else.  Two machines that agree on what has been
written agree on it after a tracked operation, or both stop with the same fault.  That the
operations of an expression are tracked from any beginning is a matter of their text alone.
-/

/-! ## What has been written -/

/-- What a program has written so far: some registers, perhaps the flags, and some slots on top of
the stack. -/
structure Known where
  registers : List RegisterNumber
  flags : Bool
  slots : Nat

namespace Known

/-- A program that has just been loaded has written nothing. -/
def nothing : Known :=
  ⟨[], false, 0⟩

/-- One more register is written. -/
def write (known : Known) (number : RegisterNumber) : Known :=
  { known with registers := number :: known.registers }

/-- One more register is written, and so are the flags. -/
def compute (known : Known) (number : RegisterNumber) : Known :=
  { known.write number with flags := true }

end Known

/-- An operation reads only what has been written, and this has been written behind it.  No
operation but a push and a pop moves the stack pointer.  A register is cleared by combining it with
itself, whatever it holds. -/
inductive Tracks (known : Known) : Operation -> Known -> Prop
  | push {source : RegisterNumber} :
      source ∈ known.registers ->
      Tracks known (.push source) { known with slots := known.slots + 1 }
  | pop {target : RegisterNumber} {slots : Nat} :
      stackPointer ≠ target -> known.slots = slots + 1 ->
      Tracks known (.pop target) { known.write target with slots }
  | load {target : RegisterNumber} {value : UInt64} :
      stackPointer ≠ target -> Tracks known (.load target value) (known.write target)
  | move {target source : RegisterNumber} :
      stackPointer ≠ target -> source ∈ known.registers ->
      Tracks known (.move target source) (known.write target)
  | clear {target : RegisterNumber} :
      stackPointer ≠ target ->
      Tracks known (.arithmetic .xor target (.register target)) (known.compute target)
  | arithmetic {operation : Arithmetic} {target source : RegisterNumber} :
      stackPointer ≠ target -> target ∈ known.registers -> source ∈ known.registers ->
      Tracks known (.arithmetic operation target (.register source)) (known.compute target)
  | multiply {target source : RegisterNumber} :
      stackPointer ≠ target -> target ∈ known.registers -> source ∈ known.registers ->
      Tracks known (.multiply target source) (known.write target)
  | divide {divisor : RegisterNumber} :
      0 ∈ known.registers -> 2 ∈ known.registers -> divisor ∈ known.registers ->
      Tracks known (.divide divisor) ((known.write 0).write 2)
  | zeroExtend {target source : RegisterNumber} :
      stackPointer ≠ target -> source ∈ known.registers ->
      Tracks known (.zeroExtend target (.low source)) (known.write target)
  | setByte {code : ConditionCode} {target : RegisterNumber} :
      stackPointer ≠ target -> target ∈ known.registers -> known.flags = true ->
      Tracks known (.setByte code (.low target)) (known.write target)

/-- Operations one behind the other, each of which reads only what has been written in front of
it. -/
inductive TracksAll : Known -> List Operation -> Known -> Prop
  | nil {known : Known} : TracksAll known [] known
  | cons {first second third : Known} {operation : Operation} {rest : List Operation} :
      Tracks first operation second -> TracksAll second rest third ->
      TracksAll first (operation :: rest) third

theorem TracksAll.append {first second third : Known} {before behind : List Operation}
    (tracksBefore : TracksAll first before second) (tracksBehind : TracksAll second behind third) :
    TracksAll first (before ++ behind) third := by
  induction tracksBefore with
  | nil => exact tracksBehind
  | cons step rest ih => exact .cons step (ih tracksBehind)

/-! ## Compiled programs read only what they have written -/

section Operators

variable {known : Known}

theorem tracks_inRegisters (op : BinaryOp) (first : 0 ∈ known.registers)
    (second : 3 ∈ known.registers) :
    exists last, TracksAll known op.inRegisters last ∧ 0 ∈ last.registers ∧
      last.slots = known.slots := by
  cases op with
  | add | subtract =>
      exact ⟨_, .cons (.arithmetic (by decide) first second) .nil, List.mem_cons_self, rfl⟩
  | multiply =>
      exact ⟨_, .cons (.multiply (by decide) first second) .nil, List.mem_cons_self, rfl⟩
  | divide =>
      refine ⟨_, .cons (.clear (by decide)) (.cons (.divide ?_ ?_ ?_) .nil), ?_, rfl⟩
      · exact List.mem_cons_of_mem _ first
      · exact List.mem_cons_self
      · exact List.mem_cons_of_mem _ second
      · exact List.mem_cons_of_mem _ List.mem_cons_self
  | unlisted code => exact ⟨known, .nil, first, rfl⟩
  | _ =>
      exact ⟨_, .cons (.arithmetic (by decide) first second)
        (.cons (.setByte (by decide) List.mem_cons_self rfl)
        (.cons (.zeroExtend (by decide) List.mem_cons_self) .nil)), List.mem_cons_self, rfl⟩

theorem tracks_unary (op : UnaryOp) {slots : Nat} (present : known.slots = slots + 1) :
    exists last, TracksAll known op.operations last ∧ last.slots = known.slots := by
  cases op with
  | negate =>
      refine ⟨_, .cons (.pop (by decide) present) (.cons (.clear (by decide))
        (.cons (.arithmetic (by decide) List.mem_cons_self ?_)
          (.cons (.push List.mem_cons_self) .nil))), present.symm⟩
      exact List.mem_cons_of_mem _ List.mem_cons_self
  | not =>
      refine ⟨_, .cons (.pop (by decide) present) (.cons (.clear (by decide))
        (.cons (.arithmetic (by decide) ?_ List.mem_cons_self)
          (.cons (.setByte (by decide) List.mem_cons_self rfl)
            (.cons (.zeroExtend (by decide) List.mem_cons_self)
              (.cons (.push List.mem_cons_self) .nil))))),
        present.symm⟩
      exact List.mem_cons_of_mem _ List.mem_cons_self
  | unlisted code => exact ⟨known, .nil, rfl⟩

theorem tracks_binary (op : BinaryOp) {slots : Nat} (present : known.slots = slots + 2) :
    exists last, TracksAll known op.operations last ∧ last.slots = slots + 1 := by
  let popped : Known := ⟨0 :: 3 :: known.registers, known.flags, slots⟩
  have pops : TracksAll known [.pop 3, .pop 0] popped :=
    .cons (.pop (by decide) present) (.cons (.pop (by decide) rfl) .nil)
  have first : 0 ∈ popped.registers := List.mem_cons_self
  have second : 3 ∈ popped.registers := List.mem_cons_of_mem _ List.mem_cons_self
  rcases tracks_inRegisters op first second with ⟨last, computes, result, same⟩
  refine ⟨_, (pops.append computes).append (.cons (.push result) .nil), ?_⟩
  change last.slots + 1 = slots + 1
  rw [same]

end Operators

namespace Expr

/-- The operations of an expression read only what they have written, whatever was written before,
and leave one more slot. -/
theorem tracks_blocks (optimize : Bool) {expr : Expr} (lowerable : expr.isLowerable = true)
    (known : Known) :
    exists last, TracksAll known (expr.blocks optimize).flatten last ∧
      last.slots = known.slots + 1 := by
  induction expr generalizing known with
  | missing => cases lowerable
  | literal constant =>
      rcases value : constant.value with error | number
      · rw [isLowerable, value] at lowerable
        cases lowerable
      · rw [blocks, value]
        exact ⟨_, .cons (.load (by decide)) (.cons (.push List.mem_cons_self) .nil), rfl⟩
  | group inner ih => exact ih lowerable known
  | unary op right ih =>
      rw [isLowerable, Bool.and_eq_true] at lowerable
      rcases ih lowerable.1 known with ⟨half, operand, slots⟩
      rcases tracks_unary op slots with ⟨last, operates, same⟩
      refine ⟨last, ?_, same.trans slots⟩
      rw [blocks, List.flatten_append, List.flatten_singleton]
      exact operand.append operates
  | binary op left right ihLeft ihRight =>
      rw [isLowerable, Bool.and_eq_true, Bool.and_eq_true] at lowerable
      cases stacked : isInRegisters optimize op left right with
      | true =>
          rcases exists_of_isInRegisters stacked with
            ⟨first, second, -, foundFirst, foundSecond, -, -⟩
          let loaded : Known := (known.write 0).write 3
          have loads : TracksAll known [.load 0 first.toUInt64, .load 3 second.toUInt64] loaded :=
            .cons (.load (by decide)) (.cons (.load (by decide)) .nil)
          have inFirst : 0 ∈ loaded.registers := List.mem_cons_of_mem _ List.mem_cons_self
          have inSecond : 3 ∈ loaded.registers := List.mem_cons_self
          rcases tracks_inRegisters op inFirst inSecond with ⟨last, computes, result, same⟩
          rw [blocks_of_isInRegisters stacked foundFirst foundSecond]
          refine ⟨_, (loads.append computes).append (.cons (.push result) .nil), ?_⟩
          exact congrArg Nat.succ same
      | false =>
          rcases ihLeft lowerable.1.1 known with ⟨first, leftOperand, firstSlots⟩
          rcases ihRight lowerable.1.2 first with ⟨second, rightOperand, secondSlots⟩
          rw [firstSlots] at secondSlots
          rcases tracks_binary op secondSlots with ⟨last, operates, slots⟩
          refine ⟨last, ?_, slots⟩
          rw [blocks_of_not_isInRegisters stacked, List.flatten_append, List.flatten_append,
            List.flatten_singleton]
          exact (leftOperand.append rightOperand).append operates

/-- A whole program reads only what it has written, and exits with a status that it has written. -/
theorem tracks_program (options : LoweringOptions) {expr : Expr}
    (lowerable : expr.isLowerable = true) :
    exists body last, (expr.program options).flatten = body ++ [.load 0 60, .systemCall] ∧
      TracksAll .nothing body last ∧ 7 ∈ last.registers := by
  rcases program_cases options lowerable with ⟨value, -, operations, -⟩ | ⟨operations, -⟩
  · rw [operations, Program.exitConstant]
    by_cases zero : value = 0
    · rw [if_pos zero]
      exact ⟨[_], _, rfl, .cons (.clear (by decide)) .nil, List.mem_cons_self⟩
    · rw [if_neg zero]
      exact ⟨[_], _, rfl, .cons (.load (by decide)) .nil, List.mem_cons_self⟩
  · rcases tracks_blocks options.optimize lowerable .nothing with ⟨half, evaluates, slots⟩
    have leaves : TracksAll half [.pop 0, .move 7 0] _ :=
      .cons (.pop (by decide) slots) (.cons (.move (by decide) List.mem_cons_self) .nil)
    refine ⟨_, _, ?_, evaluates.append leaves, List.mem_cons_self⟩
    rw [operations, List.flatten_append, List.append_assoc]
    rfl

end Expr

/-! ## Two machines in step -/

namespace Machine

/-- Two machines stand at the same place of the same code and agree on what the program has
written. -/
structure AgreeOn (known : Known) (first second : Machine) : Prop where
  running : first.halted = false ∧ second.halted = false
  sound : first.fault = none ∧ second.fault = none
  position : second.position = first.position
  codeEnd : second.codeEnd = first.codeEnd
  size : second.memory.size = first.memory.size
  addressable : first.memory.size < 0x10000000000000000
  top : second.register stackPointer = first.register stackPointer
  inside : (first.register stackPointer).toNat + 8 * known.slots ≤ first.memory.size
  registers : forall number, number ∈ known.registers ->
    second.register number = first.register number
  flags : known.flags = true -> second.flags = first.flags
  stack : forall index, (first.register stackPointer).toNat ≤ index ->
    index < (first.register stackPointer).toNat + 8 * known.slots ->
    second.memory[index]? = first.memory[index]?

/-- A machine counted some steps, and did nothing that shows outside. -/
structure Counts (count : Nat) (before after : Machine) : Prop where
  steps : after.steps = before.steps + UInt64.ofNat count
  output : after.output = before.output

/-- Two machines have stopped with the same fault. -/
def FaultAlike (first second : Machine) : Prop :=
  first.halted = true ∧ second.halted = true ∧
    exists fault, first.fault = some fault ∧ second.fault = some fault

/-- An operation keeps two machines in step: both count it, and they agree behind it or stop
alike. -/
structure InStep (after : Known) (operation : Operation) (first second : Machine) : Prop where
  left : Counts 1 first (first.next operation)
  right : Counts 1 second (second.next operation)
  alike : AgreeOn after (first.next operation) (second.next operation) ∨
    FaultAlike (first.next operation) (second.next operation)

theorem Counts.refl (machine : Machine) : Counts 0 machine machine :=
  ⟨(UInt64.add_zero _).symm, rfl⟩

theorem Counts.trans {first second third : Machine} {count more : Nat}
    (before : Counts count first second)
    (after : Counts more second third) : Counts (count + more) first third where
  steps := by rw [after.steps, before.steps, UInt64.ofNat_add, UInt64.add_assoc]
  output := after.output.trans before.output

section Steps

variable {known after : Known} {operation : Operation} {first second : Machine}

/-- Registers that agree still do when the same value is put into one of them. -/
theorem setRegister_agree {registers : List RegisterNumber}
    (agree : forall number, number ∈ registers -> second.register number = first.register number)
    (target : RegisterNumber) {firstValue secondValue : UInt64}
    (sameValue : secondValue = firstValue) :
    forall number, number ∈ target :: registers ->
      (second.setRegister target secondValue).register number =
        (first.setRegister target firstValue).register number := by
  intro number member
  by_cases same : number = target
  · rw [same, register_setRegister_same, register_setRegister_same, sameValue]
  · rw [register_setRegister_of_ne _ same, register_setRegister_of_ne _ same]
    exact agree number ((List.mem_cons.mp member).resolve_left same)

/-- An operation that changes nothing but registers, flags and memory keeps two machines in step if
it leaves both with the same stack pointer, and with agreement on what has been written. -/
theorem AgreeOn.change (agree : AgreeOn known first second)
    {firstRegisters secondRegisters : Vector UInt64 16} {firstFlags secondFlags : Flags}
    {firstMemory secondMemory : Array UInt8} {top : UInt64}
    (firstNext : first.next operation = { first.fetched operation.encode.length with
      registers := firstRegisters, flags := firstFlags, memory := firstMemory })
    (secondNext : second.next operation = { second.fetched operation.encode.length with
      registers := secondRegisters, flags := secondFlags, memory := secondMemory })
    (firstTop : firstRegisters.get stackPointer = top)
    (secondTop : secondRegisters.get stackPointer = top)
    (firstSize : firstMemory.size = first.memory.size)
    (secondSize : secondMemory.size = second.memory.size)
    (inside : top.toNat + 8 * after.slots ≤ first.memory.size)
    (registers : forall number, number ∈ after.registers ->
      secondRegisters.get number = firstRegisters.get number)
    (flags : after.flags = true -> secondFlags = firstFlags)
    (stack : forall index, top.toNat ≤ index -> index < top.toNat + 8 * after.slots ->
      secondMemory[index]? = firstMemory[index]?) : InStep after operation first second := by
  have firstPointer : (first.next operation).register stackPointer = top := by
    rw [firstNext]
    exact firstTop
  have firstBytes : (first.next operation).memory = firstMemory := by rw [firstNext]
  have secondBytes : (second.next operation).memory = secondMemory := by rw [secondNext]
  refine ⟨?_, ?_, Or.inl ⟨?_, ?_, ?_, ?_, ?_, ?_, ?_, ?_, ?_, ?_, ?_⟩⟩
  · rw [firstNext]
    exact ⟨rfl, rfl⟩
  · rw [secondNext]
    exact ⟨rfl, rfl⟩
  · rw [firstNext, secondNext]
    exact agree.running
  · rw [firstNext, secondNext]
    exact agree.sound
  · rw [firstNext, secondNext]
    change second.position + _ = first.position + _
    rw [agree.position]
  · rw [firstNext, secondNext]
    exact agree.codeEnd
  · rw [firstBytes, secondBytes, firstSize, secondSize]
    exact agree.size
  · rw [firstBytes, firstSize]
    exact agree.addressable
  · rw [firstPointer, secondNext]
    exact secondTop
  · rw [firstPointer, firstBytes, firstSize]
    exact inside
  · rw [firstNext, secondNext]
    exact registers
  · rw [firstNext, secondNext]
    exact flags
  · rw [firstPointer, firstBytes, secondBytes]
    exact stack

/-- An operation that changes nothing but registers and flags. -/
theorem AgreeOn.update (agree : AgreeOn known first second) (slots : after.slots = known.slots)
    {firstRegisters secondRegisters : Vector UInt64 16} {firstFlags secondFlags : Flags}
    (firstNext : first.next operation =
      { first.fetched operation.encode.length with
        registers := firstRegisters, flags := firstFlags }) (secondNext : second.next operation =
      { second.fetched operation.encode.length with
        registers := secondRegisters, flags := secondFlags })
    (firstTop : firstRegisters.get stackPointer = first.register stackPointer)
    (secondTop : secondRegisters.get stackPointer = second.register stackPointer)
    (registers : forall number, number ∈ after.registers ->
      secondRegisters.get number = firstRegisters.get number)
    (flags : after.flags = true -> secondFlags = firstFlags) :
    InStep after operation first second := by
  refine agree.change firstNext secondNext firstTop
    (secondTop.trans agree.top) rfl rfl ?_ registers flags ?_
  · rw [slots]
    exact agree.inside
  · rw [slots]
    exact agree.stack

/-- An operation that puts the same value into a register on both machines. -/
theorem AgreeOn.assign (agree : AgreeOn known first second) {target : RegisterNumber}
    (other : stackPointer ≠ target) {firstValue secondValue : UInt64}
    {firstFlags secondFlags : Flags} {flags : Bool}
    (firstNext : first.next operation =
      { first.fetched operation.encode.length with
        flags := firstFlags }.setRegister target firstValue) (secondNext : second.next operation =
      { second.fetched operation.encode.length with
        flags := secondFlags }.setRegister target secondValue)
    (sameValue : secondValue = firstValue) (sameFlags : flags = true -> secondFlags = firstFlags) :
    InStep { known.write target with flags } operation first second := by
  refine agree.update rfl firstNext secondNext ?_ ?_ ?_ sameFlags
  · exact register_setRegister_of_ne first other firstValue
  · exact register_setRegister_of_ne second other secondValue
  · exact setRegister_agree agree.registers target sameValue

/-- An operation that stops both machines with the same fault. -/
theorem inStep_of_raise {fault : Fault}
    (firstNext : first.next operation = (first.fetched operation.encode.length).raise fault)
    (secondNext : second.next operation = (second.fetched operation.encode.length).raise fault) :
    InStep after operation first second := by
  refine ⟨?_, ?_, Or.inr ?_⟩
  · rw [firstNext]
    exact ⟨rfl, rfl⟩
  · rw [secondNext]
    exact ⟨rfl, rfl⟩
  · rw [firstNext, secondNext]
    exact ⟨rfl, rfl, fault, rfl, rfl⟩

theorem next_clear (machine : Machine) (target : RegisterNumber) :
    machine.next (.arithmetic .xor target (.register target)) =
      { machine.fetched (Operation.arithmetic .xor target (.register target)).encode.length with
        flags := .ofResult 0 false false }.setRegister target 0 := by
  have same : machine.next (.arithmetic .xor target (.register target)) =
      { machine.fetched (Operation.arithmetic .xor target (.register target)).encode.length with
        flags := .ofResult (machine.register target ^^^ machine.register target) false false
      }.setRegister target (machine.register target ^^^ machine.register target) := rfl
  rw [UInt64.xor_self] at same
  exact same

theorem AgreeOn.arithmetic (agree : AgreeOn known first second) {arithmetic : Arithmetic}
    {target source : RegisterNumber} (other : stackPointer ≠ target)
    (left : target ∈ known.registers) (right : source ∈ known.registers) :
    InStep (known.compute target)
      (.arithmetic arithmetic target (.register source)) first second := by
  have sameLeft := agree.registers target left
  have same : Arithmetic.apply arithmetic (second.register target) (second.register source) =
      Arithmetic.apply arithmetic (first.register target) (first.register source) := by
    rw [sameLeft, agree.registers source right]
  cases arithmetic with
  | cmp =>
      refine agree.update rfl rfl rfl rfl rfl ?_ fun _ => congrArg Prod.snd same
      intro number member
      rcases List.mem_cons.mp member with rfl | present
      · exact sameLeft
      · exact agree.registers number present
  | add | sub | xor =>
      exact agree.assign other rfl rfl (congrArg Prod.fst same) fun _ => congrArg Prod.snd same

theorem AgreeOn.divide (agree : AgreeOn known first second) {divisor : RegisterNumber}
    (lower : 0 ∈ known.registers) (upper : 2 ∈ known.registers)
    (present : divisor ∈ known.registers) :
    InStep ((known.write 0).write 2) (.divide divisor) first second := by
  have sameLower := agree.registers 0 lower
  have sameUpper := agree.registers 2 upper
  have sameDivisor := agree.registers divisor present
  by_cases undefined : first.register divisor = 0 ∨ first.register divisor ≤ first.register 2
  · have stops : first.next (.divide divisor) =
        (first.fetched (Operation.divide divisor).encode.length).raise
          (.divideError first.position) :=
      next_of_perform (if_pos undefined)
    refine inStep_of_raise stops ?_
    rw [<- sameDivisor, <- sameUpper] at undefined
    rw [<- agree.position]
    exact next_of_perform (if_pos undefined)
  · have defined := undefined
    rw [<- sameDivisor, <- sameUpper] at defined
    refine agree.update rfl (next_of_perform (divide_tested undefined))
      (next_of_perform (divide_tested defined)) ?_ ?_ ?_ agree.flags
    · exact (register_setRegister_of_ne _ (by decide) _).trans
        (register_setRegister_of_ne _ (by decide) _)
    · exact (register_setRegister_of_ne _ (by decide) _).trans
        (register_setRegister_of_ne _ (by decide) _)
    · have sameDividend : second.dividend = first.dividend := by
        rw [dividend, dividend, sameLower, sameUpper]
      refine setRegister_agree (setRegister_agree agree.registers 0 ?_) 2 ?_
      · change UInt64.ofNat (second.dividend / (second.register divisor).toNat) = _
        rw [sameDividend, sameDivisor]
        rfl
      · change UInt64.ofNat (second.dividend % (second.register divisor).toNat) = _
        rw [sameDividend, sameDivisor]
        rfl

theorem AgreeOn.setByte (agree : AgreeOn known first second) {code : ConditionCode}
    {target : RegisterNumber} (other : stackPointer ≠ target) (present : target ∈ known.registers)
    (written : known.flags = true) :
    InStep (known.write target) (.setByte code (.low target)) first second := by
  have sameTarget := agree.registers target present
  have sameTest : second.flags.holds? code = first.flags.holds? code := by rw [agree.flags written]
  cases test : first.flags.holds? code with
  | none =>
      have next (machine : Machine) (untested : machine.flags.holds? code = none) :
          machine.next (.setByte code (.low target)) =
            ((machine.fetched (Operation.setByte code (.low target)).encode.length).raise
              (.unsupportedCondition code)).setByte (.low target) 0 := by
        have held : (machine.fetched
            (Operation.setByte code (.low target)).encode.length).flags.holds?
            code = none := untested
        exact next_of_perform (by rw [perform, held])
      refine ⟨?_, ?_, Or.inr ?_⟩
      · rw [next first test]
        exact ⟨rfl, rfl⟩
      · rw [next second (sameTest.trans test)]
        exact ⟨rfl, rfl⟩
      · rw [next first test, next second (sameTest.trans test)]
        exact ⟨rfl, rfl, _, rfl, rfl⟩
  | some holds =>
      have next (machine : Machine) (tested : machine.flags.holds? code = some holds) :
          machine.next (.setByte code (.low target)) =
            (machine.fetched (Operation.setByte code (.low target)).encode.length).setByte
              (.low target) (if holds then 1 else 0) := by
        have held : (machine.fetched
            (Operation.setByte code (.low target)).encode.length).flags.holds?
            code = some holds := tested
        exact next_of_perform (by rw [perform, held])
      refine agree.assign other (next first test) (next second (sameTest.trans test)) ?_ agree.flags
      change (second.register target &&& _) ||| _ = _
      rw [sameTarget]
      rfl

/-! ## The stack of two machines -/

theorem AgreeOn.push (agree : AgreeOn known first second) {source : RegisterNumber}
    (present : source ∈ known.registers) :
    InStep { known with slots := known.slots + 1 } (.push source) first second := by
  have sameTop := agree.top
  have position : (second.fetched (Operation.push source).encode.length).position =
      (first.fetched (Operation.push source).encode.length).position := by
    change second.position + _ = first.position + _
    rw [agree.position]
  by_cases full : (first.register stackPointer).toNat < first.codeEnd + 8
  · have fullSecond : (second.register stackPointer).toNat < second.codeEnd + 8 := by
      rw [sameTop, agree.codeEnd]
      exact full
    have stops : first.next (.push source) =
        (first.fetched (Operation.push source).encode.length).raise (.stackOverflow _) :=
      next_of_perform (push_overflow _ full)
    have stopsSecond : second.next (.push source) =
        (second.fetched (Operation.push source).encode.length).raise (.stackOverflow _) :=
      next_of_perform (push_overflow _ fullSecond)
    rw [position] at stopsSecond
    exact inStep_of_raise stops stopsSecond
  · have room := Nat.le_of_not_lt full
    have inside := agree.inside
    have next (machine : Machine)
        (same : machine.register stackPointer = first.register stackPointer)
        (codeEnd : machine.codeEnd = first.codeEnd)
          (size : machine.memory.size = first.memory.size) :
        machine.next (.push source) =
          { machine.fetched (Operation.push source).encode.length with
            memory := withQuadword machine.memory ((first.register stackPointer).toNat - 8)
              (machine.register source)
          }.setRegister stackPointer (first.register stackPointer - 8) := by
      have roomOwn : machine.codeEnd + 8 ≤ (machine.register stackPointer).toNat := by
        rw [codeEnd, same]
        exact room
      have insideOwn : (machine.register stackPointer).toNat ≤ machine.memory.size := by
        rw [size, same]
        omega
      rw [<- same]
      exact next_of_perform (push_inside _ roomOwn insideOwn)
    have lowered := toNat_sub_eight (by omega : 8 ≤ (first.register stackPointer).toNat)
    have nextSecond := next second sameTop agree.codeEnd agree.size
    rw [agree.registers source present] at nextSecond
    refine agree.change (next first rfl rfl rfl) nextSecond (register_setRegister_same _ _ _)
      (register_setRegister_same _ _ _) (withQuadword_size _ _ _)
        (withQuadword_size _ _ _) ?_ ?_ agree.flags ?_
    · change _ + 8 * (known.slots + 1) ≤ _
      omega
    · intro number member
      exact setRegister_agree agree.registers stackPointer rfl number
        (List.mem_cons_of_mem _ member)
    · intro index least less
      change index < _ + 8 * (known.slots + 1) at less
      rw [lowered] at least less
      -- The new slot holds the same word on both machines, and the slots above it are as before.
      by_cases below : index < (first.register stackPointer).toNat
      · rcases Nat.exists_eq_add_of_le least with ⟨offset, rfl⟩
        rw [getElem?_withQuadword_inside _ _ _ (by rw [agree.size]; omega) (by omega),
          getElem?_withQuadword_inside _ _ _ (by omega) (by omega)]
      · rw [getElem?_withQuadword_outside _ _ _ (Or.inr (by omega)),
          getElem?_withQuadword_outside _ _ _ (Or.inr (by omega))]
        exact agree.stack index (by omega) (by omega)

theorem AgreeOn.pop (agree : AgreeOn known first second) {target : RegisterNumber} {slots : Nat}
    (other : stackPointer ≠ target) (present : known.slots = slots + 1) :
    InStep { known.write target with slots } (.pop target) first second := by
  have inside := agree.inside
  have addressable := agree.addressable
  rw [present] at inside
  have sameWord : quadword second.memory (first.register stackPointer).toNat =
      quadword first.memory (first.register stackPointer).toNat := by
    refine quadword_congr (by rw [agree.size]; omega) (by omega) ?_
    intro index least less
    exact agree.stack index least (by rw [present]; omega)
  have next (machine : Machine) (same : machine.register stackPointer = first.register stackPointer)
      (size : machine.memory.size = first.memory.size) :
      machine.next (.pop target) =
        ((machine.fetched (Operation.pop target).encode.length).setRegister stackPointer
          (first.register stackPointer + 8)).setRegister target
            (quadword machine.memory (first.register stackPointer).toNat) := by
    have insideOwn : (machine.register stackPointer).toNat + 8 ≤ machine.memory.size := by
      rw [same, size]
      omega
    have popped : (machine.fetched (Operation.pop target).encode.length).pop =
        .completed (some (quadword machine.memory (machine.register stackPointer).toNat))
          ((machine.fetched (Operation.pop target).encode.length).setRegister stackPointer
            (machine.register stackPointer + 8)) :=
      pop_inside insideOwn (by rw [<- size] at addressable; exact addressable)
    rw [Machine.next, perform, popped, same]
    rfl
  have nextSecond := next second agree.top agree.size
  rw [sameWord] at nextSecond
  have raised :
      (first.register stackPointer + 8).toNat = (first.register stackPointer).toNat + 8 := by
    rw [UInt64.toNat_add]
    exact Nat.mod_eq_of_lt (by change _ + 8 < 0x10000000000000000; omega)
  refine agree.change (next first rfl rfl) nextSecond
    ((register_setRegister_of_ne _ other _).trans (register_setRegister_same _ _ _))
    ((register_setRegister_of_ne _ other _).trans (register_setRegister_same _ _ _)) rfl rfl ?_ ?_
      agree.flags ?_
  · change _ + 8 * slots ≤ _
    omega
  · refine setRegister_agree ?_ target rfl
    intro number member
    exact setRegister_agree agree.registers stackPointer rfl number (List.mem_cons_of_mem _ member)
  · intro index least less
    change index < _ + 8 * slots at less
    exact agree.stack index (by omega) (by rw [present]; omega)

/-! ## Whole runs -/

/-- A tracked operation keeps two machines in step that agree on what has been written. -/
theorem AgreeOn.step (agree : AgreeOn known first second) (tracks : Tracks known operation after) :
    InStep after operation first second := by
  cases tracks with
  | push present => exact agree.push present
  | pop other present => exact agree.pop other present
  | load other => exact agree.assign other rfl rfl rfl agree.flags
  | @move target source other present =>
      exact agree.assign other rfl rfl (agree.registers source present) agree.flags
  | @clear target other =>
      exact agree.assign other (next_clear first target) (next_clear second target) rfl fun _ => rfl
  | arithmetic other left right => exact agree.arithmetic other left right
  | @multiply target source other left right =>
      rcases signedProduct?_eq_some (first.register target).toInt64
        (first.register source).toInt64 with ⟨lost, product⟩
      have sameLeft := agree.registers target left
      have sameRight := agree.registers source right
      have productSecond := product
      rw [<- sameLeft, <- sameRight] at productSecond
      refine agree.assign other (next_multiply product) (next_multiply productSecond) ?_ ?_
      · rw [sameLeft, sameRight]
      · intro written
        rw [agree.flags written]
  | divide lower upper present => exact agree.divide lower upper present
  | @zeroExtend target source other present =>
      refine agree.assign other rfl rfl ?_ agree.flags
      exact congrArg (fun word : UInt64 => word.toUInt8.toUInt64) (agree.registers source present)
  | setByte other present written => exact agree.setByte other present written

/-- Tracked operations keep two machines in step until one of them stops both.  The induction is on
the operations; what carries it is that the machines agree on all that has been written so far. -/
theorem AgreeOn.follow {last : Known} {operations : List Operation}
    (agree : AgreeOn known first second) (tracks : TracksAll known operations last) :
    exists count, count ≤ operations.length ∧ Counts count first (first.follow operations) ∧
      Counts count second (second.follow operations) ∧
      (AgreeOn last (first.follow operations) (second.follow operations) ∨
        FaultAlike (first.follow operations) (second.follow operations)) := by
  induction tracks generalizing first second with
  | nil => exact ⟨0, Nat.le_refl 0, .refl first, .refl second, Or.inl agree⟩
  | @cons before between behind operation rest step others ih =>
      rcases agree.step step with ⟨left, right, agreeNext | stopped⟩
      · rcases ih agreeNext with ⟨count, fewer, leftRest, rightRest, ends⟩
        rw [follow_cons agree.running.1, follow_cons agree.running.2]
        refine ⟨1 + count, ?_, left.trans leftRest, right.trans rightRest, ends⟩
        rw [List.length_cons]
        omega
      · rw [follow_cons agree.running.1, follow_cons agree.running.2, follow_of_halted stopped.1,
          follow_of_halted stopped.2.1]
        exact ⟨1, Nat.succ_le_succ (Nat.zero_le _), left, right, Or.inr stopped⟩

end Steps

/-- Two machines have ended alike: both exited with the same status, or both stopped with the same
fault. -/
def EndAlike (first second : Machine) : Prop :=
  (first.halted = true ∧ second.halted = true ∧ first.fault = none ∧ second.fault = none ∧
    second.exitStatus = first.exitStatus) ∨ FaultAlike first second

theorem Exited.counts {count : Nat} {value : UInt64} {before after : Machine}
    (exited : Exited count value before after) : Counts count before after :=
  ⟨exited.steps, exited.output⟩

/-- Two machines that agree on the status both exit with it. -/
theorem AgreeOn.exit {last : Known} {first second : Machine} (agree : AgreeOn last first second)
    (status : 7 ∈ last.registers) :
    Counts 2 first (first.follow [.load 0 60, .systemCall]) ∧
      Counts 2 second (second.follow [.load 0 60, .systemCall]) ∧
      EndAlike (first.follow [.load 0 60, .systemCall])
        (second.follow [.load 0 60, .systemCall]) := by
  have left : Exited 2 _ first _ := ends_exit agree.running.1
  have right : Exited 2 _ second _ := ends_exit agree.running.2
  refine ⟨left.counts, right.counts, Or.inl ⟨left.halted, right.halted, ?_, ?_, ?_⟩⟩
  · rw [left.fault, agree.sound.1]
  · rw [right.fault, agree.sound.2]
  · rw [left.exitStatus, right.exitStatus, agree.registers 7 status]

/-- Two machines into which the same code is loaded agree on what has been written, which is
nothing. -/
theorem agreeOn_loaded {first second : Machine} (size : second.memory.size = first.memory.size)
    (addressable : first.memory.size < 0x10000000000000000) (code : List UInt8) :
    AgreeOn .nothing (first.loaded code) (second.loaded code) where
  running := ⟨rfl, rfl⟩
  sound := ⟨rfl, rfl⟩
  position := rfl
  codeEnd := rfl
  size := by rw [size_loaded, size_loaded, size]
  addressable := by
    rw [size_loaded]
    exact addressable
  top := by rw [register_stackPointer_loaded, register_stackPointer_loaded, size]
  inside := by
    rw [toNat_stackPointer_loaded addressable, size_loaded]
    exact Nat.le_refl _
  registers number member := absurd member List.not_mem_nil
  flags written := nomatch written
  stack index least less := by
    change index < _ + 8 * 0 at less
    omega

/-- Loading succeeds only if there is code and it fits. -/
theorem eq_loaded_of_load {machine result : Machine} {code : List UInt8}
    (loads : machine.load code 0 = .ok result) :
    code.length ≤ machine.memory.size ∧ result = machine.loaded code := by
  rw [load] at loads
  split at loads
  · cases loads
  · rename_i fits
    split at loads
    · cases loads
    · exact ⟨Nat.le_of_not_lt fits, (Except.ok.inj loads).symm⟩

end Machine

namespace Expr

open Machine

/-- The program of an expression, followed on two machines that agree on nothing, ends alike on
both. -/
theorem follow_program_alike (options : LoweringOptions) {expr : Expr}
    (lowerable : expr.isLowerable = true)
    {first second : Machine} (agree : AgreeOn .nothing first second) :
    exists count, count ≤ (expr.program options).flatten.length ∧
      Counts count first (first.follow (expr.program options).flatten) ∧
      Counts count second (second.follow (expr.program options).flatten) ∧
      EndAlike (first.follow (expr.program options).flatten)
        (second.follow (expr.program options).flatten) := by
  rcases tracks_program options lowerable with ⟨body, last, split, tracks, status⟩
  rcases agree.follow tracks with ⟨count, fewer, left, right, agreeLast | stopped⟩
  · rcases agreeLast.exit status with ⟨leftExit, rightExit, alike⟩
    rw [split, follow_append, follow_append, List.length_append]
    exact ⟨count + 2, Nat.add_le_add_right fewer 2, left.trans leftExit,
      right.trans rightExit, alike⟩
  · rw [split, follow_append, follow_append, follow_of_halted stopped.1,
      follow_of_halted stopped.2.1, List.length_append]
    exact ⟨count, Nat.le_add_right_of_le fewer, left, right, Or.inr stopped⟩

/-- The exit alone takes a quadword of code, so whatever holds a program holds a stack slot. -/
theorem eight_le_length_code (options : LoweringOptions) {expr : Expr}
    (lowerable : expr.isLowerable = true) : 8 ≤ (expr.code options).length := by
  have exit : ([Operation.load 0 60, .systemCall].flatMap Operation.encode).length = 9 := by decide
  rcases tracks_program options lowerable with ⟨body, last, split, -⟩
  rw [code, split, List.flatMap_append, List.length_append, exit]
  omega

theorem length_instructions {options : LoweringOptions} {expr : Expr} {program : Program}
    (lowered : Program.ofExpr options expr = .ok program) :
    program.instructions.length = (expr.program options).flatten.length := by
  rcases ofExpr_of_isLowerable options (isLowerable_of_ofExpr lowered) with
    ⟨idioms, found, assembles⟩
  cases lowered.symm.trans found
  rw [<- length_flatten_of_assembles assembles]
  change (idioms.flatten ++ []).length = _
  rw [List.append_nil]

/-- Running a loaded program follows its operations, whatever the machine did before. -/
theorem attemptRun_loaded_program (options : LoweringOptions) {expr : Expr}
    (lowerable : expr.isLowerable = true)
    {machine : Machine} (addressable : machine.memory.size < 0x10000000000000000)
    (fits : (expr.code options).length ≤ machine.memory.size) :
    (machine.loaded (expr.code options)).attemptRun (machine.loaded (expr.code options)).limit =
      .completed ()
        ((machine.loaded (expr.code options)).follow (expr.program options).flatten) := by
  rcases ofExpr_of_isLowerable options lowerable with ⟨idioms, -, assembles⟩
  have ready : Ready (machine.loaded (expr.code options)) := ready_loaded addressable
  exact attemptRun_loaded (expressible_of_assembles assembles) (keepsCode_program options expr)
    (Nat.le_trans (eight_le_length_code options lowerable) fits) addressable fits
    (ends_program options lowerable ready).halted

end Expr

open Machine

/-- A reused machine does not influence a compiled program.  Load the code of a program into two
machines with memories of the same size and anything else left over from before, and run both: they
exit with the same status, or stop with the same fault, after the same number of steps.  Neither
writes any output, and neither crashes. -/
theorem reused_machine_ends_alike {options : LoweringOptions} {expr : Expr} {program : Program}
    {assembly : Assembly} (lowered : Program.ofExpr options expr = .ok program)
    (assembled : Assembly.ofText (Text.glyphs program.render) = .ok assembly)
    {first second firstLoaded secondLoaded : Machine}
    (size : second.memory.size = first.memory.size)
    (addressable : first.memory.size < 0x10000000000000000)
    (loadsFirst : first.load assembly.code 0 = .ok firstLoaded)
    (loadsSecond : second.load assembly.code 0 = .ok secondLoaded) :
    firstLoaded.attemptRun firstLoaded.limit = .completed () firstLoaded.run ∧
      secondLoaded.attemptRun secondLoaded.limit = .completed () secondLoaded.run ∧
      EndAlike firstLoaded.run secondLoaded.run ∧
      exists count, count ≤ program.instructions.length ∧ Counts count first firstLoaded.run ∧
        Counts count second secondLoaded.run := by
  have lowerable := Expr.isLowerable_of_ofExpr lowered
  rw [Expr.code_of_assembled lowered assembled] at loadsFirst loadsSecond
  rcases eq_loaded_of_load loadsFirst with ⟨fitsFirst, rfl⟩
  rcases eq_loaded_of_load loadsSecond with ⟨fitsSecond, rfl⟩
  have addressableSecond : second.memory.size < 0x10000000000000000 := by
    rw [size]
    exact addressable
  have ranFirst := Expr.attemptRun_loaded_program options lowerable addressable fitsFirst
  have ranSecond := Expr.attemptRun_loaded_program options lowerable addressableSecond fitsSecond
  rw [run, runFor, run, runFor, ranFirst, ranSecond, Expr.length_instructions lowered]
  have agree := agreeOn_loaded size addressable (expr.code options)
  rcases Expr.follow_program_alike options lowerable agree with ⟨count, fewer, left, right, alike⟩
  exact ⟨rfl, rfl, alike, count, fewer, ⟨left.steps, left.output⟩, ⟨right.steps, right.output⟩⟩

theorem reused_machine_ends_alike_quotient :
    let expr : Expr := .binary .divide (.literal ⟨.number, "7", 1⟩) (.literal ⟨.number, "2", 1⟩)
    let fresh := { initial with memory := Array.replicate 96 0 }
    let used : Machine :=
      { initial with
        registers := Vector.replicate 16 5
        flags := ⟨true, true, true, true⟩
        memory := Array.replicate 96 0xFF
        halted := true
        fault := some (.divideError 8)
        steps := 11 }
    exists program assembly freshLoaded usedLoaded, Program.ofExpr ⟨false⟩ expr = .ok program ∧
      Assembly.ofText (Text.glyphs program.render) = .ok assembly ∧
      fresh.load assembly.code 0 = .ok freshLoaded ∧ used.load assembly.code 0 = .ok usedLoaded ∧
      freshLoaded.attemptRun freshLoaded.limit = .completed () freshLoaded.run ∧
      usedLoaded.attemptRun usedLoaded.limit = .completed () usedLoaded.run ∧
      EndAlike freshLoaded.run usedLoaded.run ∧
      exists count, count ≤ program.instructions.length ∧ Counts count fresh freshLoaded.run ∧
        Counts count used usedLoaded.run := by
  intro expr fresh used
  have lowerable : expr.isLowerable = true := by decide +kernel
  have nonempty : 0 < (expr.code ⟨false⟩).length := by decide +kernel
  have fits : (expr.code ⟨false⟩).length ≤ 96 := by decide +kernel
  have size : used.memory.size = fresh.memory.size := by decide
  have addressable : fresh.memory.size < 0x10000000000000000 := by decide
  rcases Expr.execute_program ⟨false⟩ lowerable with ⟨idioms, sourceMap, lowered, -, assembled, -⟩
  have loadsFresh : fresh.load (expr.code ⟨false⟩) 0 = .ok _ := load_eq nonempty fits
  have loadsUsed : used.load (expr.code ⟨false⟩) 0 = .ok _ := load_eq nonempty fits
  exact ⟨_, _, _, _, lowered, assembled, loadsFresh, loadsUsed,
    reused_machine_ends_alike lowered assembled size addressable loadsFresh loadsUsed⟩

end LoxNative
