import Mathlib
import LoxNative.Machine.Execution
import LoxNative.Proofs.Memory

namespace LoxNative

/-!
# What an operation can do

Performing an operation comes to one of six changes.  It computes, which sets registers and flags.
It stores a quadword.  It hands bytes to a file.  It exits.  It stops with a fault.  Or it clears a
byte and then stops, which only a test on parity does.

The main theorem says this for every operation, and with it which of the changes are permitted:
which registers the operation may set, where it may store, and which faults it may stop with.  It
also says that performing an operation never crashes, so every test in front of an access lets
through only what memory has, and every division has a divisor and a quotient.  Whatever else is
proved about an arbitrary operation follows from the permitted changes, and does not look at the
operations again.
-/

/-- The faults that deny that some bytes are an instruction of the machine. -/
def Fault.refusesEncoding : Fault -> Bool
  | .ranPastEnd _ | .truncated _ | .unknownOpcode _ _ | .unknownSecondOpcode _ _ | .narrowOperand _
  | .memoryOperand _ _ | .indexedAddress _ _ | .relativeAddress _ | .unsupportedArithmetic _ _
  | .unsupportedGroup _ | .unsupportedCondition _ => true
  | .divideError _ | .stackOverflow _ | .stackUnderflow _ | .readOutOfBounds _ | .writeOutOfBounds _
  | .bufferOutOfBounds _ _ | .unsupportedSystemCall _ _ => false

/-- The registers with a second byte are the first four. -/
theorem ByteRegister.high_le : 4 ≤ 16 := by decide

/-- The register that a byte register is a part of. -/
def ByteRegister.whole : ByteRegister -> RegisterNumber
  | .low number => number
  | .high number => number.castLE ByteRegister.high_le

/-- A word in which the byte of a byte register is replaced. -/
def ByteRegister.replace (word : UInt64) (byte : UInt8) : ByteRegister -> UInt64
  | .low _ => (word &&& (~~~0xFF : UInt64)) ||| byte.toUInt64
  | .high _ => (word &&& (~~~0xFF00 : UInt64)) ||| (byte.toUInt64 <<< 8)

namespace Operation

/-- The registers that an operation may change. -/
def changes : Operation -> List RegisterNumber
  | .push _ => [stackPointer]
  | .pop register => [stackPointer, register]
  | .load destination _ | .move destination _ | .read destination _ | .multiply destination _
  | .zeroExtend destination _ => [destination]
  | .arithmetic operation destination _ => if operation.keepsResult then [destination] else []
  | .divide _ => [0, 2]
  | .setByte _ target => [target.whole]
  | .extendSign => [2]
  | .systemCall => [0]
  | .write _ _ | .writeConstant _ _ | .nothing => []

/-- Whether an operation sets flags. -/
def setsFlags : Operation -> Bool
  | .arithmetic _ _ _ | .multiply _ _ => true
  | _ => false

/-- Whether an operation is a product, which has no say in the flags that tell of its value. -/
def isProduct : Operation -> Bool
  | .multiply _ _ => true
  | _ => false

/-- Whether an operation writes a quadword to a place that its operand names. -/
def isStore : Operation -> Bool
  | .write _ _ | .writeConstant _ _ => true
  | _ => false

end Operation

namespace Machine

/-- The place of the quadword that an operation may store. -/
def storePlace? (machine : Machine) : Operation -> Option Nat
  | .push _ => some ((machine.register stackPointer).toNat - 8)
  | .write address _ | .writeConstant address _ => some (machine.effectiveAddress address).toNat
  | _ => none

/-- The byte that an operation sets by a test on parity. -/
def parityTarget? : Operation -> Option ByteRegister
  | .setByte condition target => if condition ∈ [0xA, 0xB] then some target else none
  | _ => none

/-- A machine that remembers another fault, or none. -/
def remembering (machine : Machine) (earlier : Option Fault) : Machine :=
  { machine with fault := earlier }

/-! ## Changes -/

/-- What performing an operation comes to. -/
inductive Change
  | compute (registers : Vector UInt64 16) (flags : Flags)
  | store (place : Nat) (value : UInt64) (registers : Vector UInt64 16)
  | emit (written : Array UInt8) (registers : Vector UInt64 16)
  | exit (status : UInt64)
  | stop (fault : Fault)
  | clear (target : ByteRegister) (fault : Fault)

/-- The machine after a change. -/
def Change.apply (machine : Machine) : Change -> Machine
  | compute registers flags => { machine with registers, flags }
  | store place value registers =>
      { machine with memory := withQuadword machine.memory place value, registers }
  | emit written registers => { machine with output := machine.output ++ written, registers }
  | exit status => { machine with exitStatus := status, halted := true }
  | stop fault => machine.raise fault
  | clear target fault => (machine.raise fault).setByte target 0

/-- Registers that differ from those of a machine only where an operation may change them. -/
def KeepsRegisters (machine : Machine) (operation : Operation) (registers : Vector UInt64 16) :
    Prop :=
  forall number, number ∉ operation.changes -> registers.get number = machine.register number

/-- The changes that an operation is permitted to make. -/
inductive Permits (machine : Machine) (operation : Operation) : Change -> Prop
  | compute {registers : Vector UInt64 16} {flags : Flags}
      (kept : machine.KeepsRegisters operation registers)
      (flagged : operation.setsFlags = false -> flags = machine.flags)
      (product : operation.isProduct = true ->
        flags.zero = machine.flags.zero ∧ flags.sign = machine.flags.sign) :
      Permits machine operation (.compute registers flags)
  | store {place : Nat} {value : UInt64} {registers : Vector UInt64 16}
      (kept : machine.KeepsRegisters operation registers)
      (named : machine.storePlace? operation = some place)
      (inside : place + 8 ≤ machine.memory.size)
      (above : operation.isStore = false -> machine.codeEnd ≤ place) :
      Permits machine operation (.store place value registers)
  | emit {written : Array UInt8} {registers : Vector UInt64 16}
      (kept : machine.KeepsRegisters operation registers) (called : operation = .systemCall) :
      Permits machine operation (.emit written registers)
  | exit {status : UInt64} (called : operation = .systemCall) :
      Permits machine operation (.exit status)
  | stop {fault : Fault} (proper : fault.refusesEncoding = false)
      (other : parityTarget? operation = none) : Permits machine operation (.stop fault)
  | clear {target : ByteRegister} {fault : Fault} (parity : parityTarget? operation = some target) :
      Permits machine operation (.clear target fault)

/-- Performing an operation makes a permitted change.  Which one does not depend on a fault that was
recorded before. -/
def Changes (machine : Machine) (start : UInt64) (operation : Operation) : Prop :=
  exists change, Permits machine operation change ∧ forall earlier,
    (machine.remembering earlier).perform start operation =
      .completed () (change.apply (machine.remembering earlier))

section Registers

variable {machine : Machine} {start : UInt64} {operation : Operation} {registers : Vector UInt64 16}

theorem KeepsRegisters.refl (machine : Machine) (operation : Operation) :
    machine.KeepsRegisters operation machine.registers :=
  fun _ _ => rfl

theorem KeepsRegisters.set (kept : machine.KeepsRegisters operation registers)
    {number : RegisterNumber} (allowed : number ∈ operation.changes) (value : UInt64) :
    machine.KeepsRegisters operation (registers.set number value number.isLt) := by
  intro other unlisted
  have apart : number.val ≠ other.val :=
    fun same => unlisted (Fin.ext same ▸ allowed)
  rw [Vector.get_eq_getElem, Vector.getElem_set_ne _ _ apart, <- Vector.get_eq_getElem]
  exact kept other unlisted

/-- Setting registers without a word on flags. -/
theorem Permits.of_registers (kept : machine.KeepsRegisters operation registers) :
    Permits machine operation (.compute registers machine.flags) :=
  .compute kept (fun _ => rfl) fun _ => ⟨rfl, rfl⟩

theorem Changes.of_setRegister (number : RegisterNumber) (value : UInt64)
    (allowed : number ∈ operation.changes)
    (same : forall earlier, (machine.remembering earlier).perform start operation =
      .completed () ((machine.remembering earlier).setRegister number value)) :
    Changes machine start operation :=
  ⟨_, .of_registers ((KeepsRegisters.refl machine operation).set allowed value), same⟩

theorem Changes.of_raise (fault : Fault) (proper : fault.refusesEncoding = false)
    (other : parityTarget? operation = none)
    (same : forall earlier, (machine.remembering earlier).perform start operation =
      .completed () (machine.raise fault)) :
    Changes machine start operation :=
  ⟨.stop fault, .stop proper other, same⟩

end Registers

/-! ## The stack and memory -/

section Accesses

variable {machine : Machine} {start : UInt64}

theorem changes_push (register : RegisterNumber) (roomy : 8 ≤ machine.memory.size) :
    Changes machine start (.push register) := by
  by_cases full : (machine.register stackPointer).toNat < machine.codeEnd + 8
  · apply Changes.of_raise (.stackOverflow machine.position) rfl rfl
    intro earlier
    exact push_overflow _ full
  · have room := Nat.not_lt.mp full
    by_cases inside : (machine.register stackPointer).toNat ≤ machine.memory.size
    · have lowered := (KeepsRegisters.refl machine (.push register)).set
        (List.mem_singleton.mpr rfl) (machine.register stackPointer - 8)
      refine ⟨.store _ (machine.register register) _,
        .store lowered rfl (by omega) fun _ => by omega, fun earlier => ?_⟩
      exact push_inside (machine.register register) room inside
    · apply Changes.of_raise (.writeOutOfBounds (machine.register stackPointer - 8)) rfl rfl
      intro earlier
      exact push_outside _ roomy room (Nat.not_le.mp inside)

/-- Reading a quadword finds it and leaves everything alone, or stops the machine and does nothing
else. -/
theorem readQword_cases (address : UInt64) (roomy : 8 ≤ machine.memory.size) :
    (exists value, forall earlier, (machine.remembering earlier).readQword address =
      .completed (some value) (machine.remembering earlier)) ∨
    (forall earlier, (machine.remembering earlier).readQword address =
      .completed none (machine.raise (.readOutOfBounds address))) := by
  by_cases inside : address.toNat + 8 ≤ machine.memory.size
  · exact Or.inl ⟨quadword machine.memory address.toNat, fun earlier => readQword_inside inside⟩
  · exact Or.inr fun earlier => readQword_outside roomy (Nat.not_le.mp inside)

/-- A pop looks at the new top of the stack first, and then at the quadword below it. -/
theorem changes_pop (register : RegisterNumber) (roomy : 8 ≤ machine.memory.size) :
    Changes machine start (.pop register) := by
  have pop (earlier : Option Fault) : (machine.remembering earlier).pop =
      if machine.memory.size < (machine.register stackPointer + 8).toNat then
        .completed none (machine.raise (.stackUnderflow machine.position))
      else
        ((machine.remembering earlier).readQword (machine.register stackPointer)).andThen
          fun found machine' => .completed found (if found.isSome then
            machine'.setRegister stackPointer (machine.register stackPointer + 8) else machine') :=
              rfl
  by_cases under : machine.memory.size < (machine.register stackPointer + 8).toNat
  · apply Changes.of_raise (.stackUnderflow machine.position) rfl rfl
    intro earlier
    rw [perform, pop, if_pos under]
    rfl
  · rcases readQword_cases (machine.register stackPointer) roomy with ⟨value, found⟩ | stopped
    · have raised := (KeepsRegisters.refl machine (.pop register)).set List.mem_cons_self
        (machine.register stackPointer + 8)
      refine ⟨_, .of_registers (raised.set (List.mem_cons_of_mem _ List.mem_cons_self) value),
        fun earlier => ?_⟩
      rw [perform, pop, if_neg under, found]
      rfl
    · apply Changes.of_raise (.readOutOfBounds (machine.register stackPointer)) rfl rfl
      intro earlier
      rw [perform, pop, if_neg under, stopped]
      rfl

theorem changes_read (destination : RegisterNumber) (address : Address)
    (roomy : 8 ≤ machine.memory.size) : Changes machine start (.read destination address) := by
  have read (earlier : Option Fault) :
      (machine.remembering earlier).perform start (.read destination address) =
        ((machine.remembering earlier).readQword (machine.effectiveAddress address)).andThen
          fun found after => .completed () (after.keep destination found) := rfl
  rcases readQword_cases (machine.effectiveAddress address) roomy with ⟨value, found⟩ | stopped
  · apply Changes.of_setRegister destination value (List.mem_singleton.mpr rfl)
    intro earlier
    rw [read, found]
    rfl
  · apply Changes.of_raise (.readOutOfBounds (machine.effectiveAddress address)) rfl rfl
    intro earlier
    rw [read, stopped]
    rfl

theorem changes_write {operation : Operation} (address value : UInt64)
    (roomy : 8 ≤ machine.memory.size) (store : operation.isStore = true)
    (named : machine.storePlace? operation = some address.toNat)
    (writes : forall earlier, (machine.remembering earlier).perform start operation =
      ((machine.remembering earlier).writeQword address value).andThen
        fun _ after => .completed () after) :
    Changes machine start operation := by
  by_cases inside : address.toNat + 8 ≤ machine.memory.size
  · refine ⟨.store _ value _, .store (KeepsRegisters.refl machine operation) named inside ?_, ?_⟩
    · intro denied
      exact absurd (denied.symm.trans store) Bool.false_ne_true
    · intro earlier
      have written : (machine.remembering earlier).writeQword address value = _ :=
        writeQword_inside inside
      rw [writes, written]
      rfl
  · have other : parityTarget? operation = none := by
      cases operation <;> first | rfl | cases store
    apply Changes.of_raise (.writeOutOfBounds address) rfl other
    intro earlier
    have refused : (machine.remembering earlier).writeQword address value = _ :=
      writeQword_outside roomy (Nat.not_le.mp inside)
    rw [writes, refused]
    rfl

end Accesses

/-! ## Products and quotients -/

/-- The divisor of the division by which a product is tested is never zero. -/
theorem signedProduct?_eq_some (left right : Int64) :
    exists lost, signedProduct? left right = some (left * right, lost) := by
  unfold signedProduct? signedQuotient?
  by_cases zero : left = 0
  · rw [if_pos zero]
    exact ⟨false, rfl⟩
  · rw [if_neg zero, if_neg zero]
    exact ⟨_, rfl⟩

/-- The test before a division compares the divisor with the upper word only.  This is enough, since
the lower word is less than 2^64. -/
theorem noQuotient_iff (upper lower divisor : UInt64) :
    divisor = 0 ∨ divisor ≤ upper <->
      divisor.toNat = 0 ∨
        0x10000000000000000 ≤
          (upper.toNat * 0x10000000000000000 + lower.toNat) / divisor.toNat := by
  have small := lower.toNat_lt
  rw [<- UInt64.toNat_inj, UInt64.toNat_zero, UInt64.le_iff_toNat_le]
  refine or_congr_right' fun nonzero => ?_
  rw [Nat.le_div_iff_mul_le (Nat.pos_of_ne_zero nonzero)]
  omega

/-- The double word that a division divides. -/
def dividend (machine : Machine) : Nat :=
  (machine.register 2).toNat * 0x10000000000000000 + (machine.register 0).toNat

section Arithmetic

variable {machine : Machine} {start : UInt64}

/-- Whatever passes the test before a division has a quotient. -/
theorem divide_tested {divisor : UInt64} (tested : ¬ (divisor = 0 ∨ divisor ≤ machine.register 2)) :
    machine.divide start divisor =
      .completed ()
        ((machine.setRegister 0 (UInt64.ofNat (machine.dividend / divisor.toNat))).setRegister 2
          (UInt64.ofNat (machine.dividend % divisor.toNat))) := by
  have fits : ¬ (divisor = 0 ∨ 0x10000000000000000 ≤ machine.dividend / divisor.toNat) := by
    rw [<- UInt64.toNat_inj]
    exact mt (noQuotient_iff (machine.register 2) (machine.register 0) divisor).mpr tested
  have divided : doubleQuotient? (machine.register 2) (machine.register 0) divisor =
      some (UInt64.ofNat (machine.dividend / divisor.toNat),
        UInt64.ofNat (machine.dividend % divisor.toNat)) := if_neg fits
  simp only [divide, if_neg tested, divided]

theorem changes_arithmetic (operation : Arithmetic) (destination : RegisterNumber)
    (source : Source) :
    Changes machine start (.arithmetic operation destination source) := by
  have flagged {registers : Vector UInt64 16} (flags : Flags)
      (kept : machine.KeepsRegisters (.arithmetic operation destination source) registers) :
      Permits machine (.arithmetic operation destination source) (.compute registers flags) :=
    .compute kept (fun denied => nomatch denied) fun product => nomatch product
  have unchanged := KeepsRegisters.refl machine (.arithmetic operation destination source)
  rcases applied : operation.apply (machine.register destination) (machine.operandValue source) with
    ⟨result, flags⟩
  have same (earlier : Option Fault) :
      operation.apply ((machine.remembering earlier).register destination)
        ((machine.remembering earlier).operandValue source) = (result, flags) := applied
  cases keeps : operation.keepsResult with
  | true =>
      have allowed : destination ∈ (Operation.arithmetic operation destination source).changes := by
        rw [Operation.changes, if_pos keeps]
        exact List.mem_singleton.mpr rfl
      refine ⟨_, flagged flags (unchanged.set allowed result), fun earlier => ?_⟩
      rw [perform, same]
      exact congrArg (Attempt.completed ()) (if_pos keeps)
  | false =>
      refine ⟨_, flagged flags unchanged, fun earlier => ?_⟩
      rw [perform, same]
      exact congrArg (Attempt.completed ()) (if_neg (Bool.eq_false_iff.mp keeps))

theorem changes_multiply (destination source : RegisterNumber) :
    Changes machine start (.multiply destination source) := by
  rcases signedProduct?_eq_some (machine.register destination).toInt64
    (machine.register source).toInt64 with ⟨lost, product⟩
  have multiplied := (KeepsRegisters.refl machine (.multiply destination source)).set
    (List.mem_singleton.mpr rfl)
    ((machine.register destination).toInt64 * (machine.register source).toInt64).toUInt64
  refine ⟨.compute _ { machine.flags with carry := lost, overflow := lost },
    .compute multiplied (fun denied => nomatch denied) fun _ => ⟨rfl, rfl⟩, fun earlier => ?_⟩
  have same : signedProduct? ((machine.remembering earlier).register destination).toInt64
      ((machine.remembering earlier).register source).toInt64 = _ := product
  rw [perform, same]
  rfl

theorem changes_divide (divisor : RegisterNumber) : Changes machine start (.divide divisor) := by
  by_cases undefined : machine.register divisor = 0 ∨ machine.register divisor ≤ machine.register 2
  · apply Changes.of_raise (.divideError start) rfl rfl
    intro earlier
    exact if_pos undefined
  · have quotient := (KeepsRegisters.refl machine (.divide divisor)).set List.mem_cons_self
      (UInt64.ofNat (machine.dividend / (machine.register divisor).toNat))
    have remainder := quotient.set (List.mem_cons_of_mem _ List.mem_cons_self)
      (UInt64.ofNat (machine.dividend % (machine.register divisor).toNat))
    refine ⟨_, .of_registers remainder, fun earlier => ?_⟩
    exact divide_tested undefined

/-- A buffer that passes the test of a system call is inside memory. -/
theorem systemCall_tested (writes : machine.register 0 = 1)
    (inside : ¬ (machine.memory.size < (machine.register 6).toNat ∨
      machine.memory.size - (machine.register 6).toNat < (machine.register 2).toNat))
    (opened : machine.register 7 = 1 ∨ machine.register 7 = 2) :
    machine.systemCall =
      .completed () { machine.setRegister 0 (machine.register 2) with
        output := machine.output ++ machine.memory.extract (machine.register 6).toNat
          ((machine.register 6).toNat + (machine.register 2).toNat) } := by
  have other : ¬ machine.register 0 = 60 := by
    rw [writes]
    decide
  have written := slice?_inside
    (Nat.le_add_right (machine.register 6).toNat (machine.register 2).toNat)
    (by omega : _ ≤ machine.memory.size)
  simp only [systemCall, if_neg other, if_pos writes, if_neg inside, if_pos opened, written]

theorem changes_systemCall : Changes machine start .systemCall := by
  by_cases exits : machine.register 0 = 60
  · exact ⟨.exit (machine.register 7), .exit rfl, fun earlier => if_pos exits⟩
  · by_cases writes : machine.register 0 = 1
    · by_cases outside : machine.memory.size < (machine.register 6).toNat ∨
          machine.memory.size - (machine.register 6).toNat < (machine.register 2).toNat
      · apply Changes.of_raise
          (.bufferOutOfBounds (machine.register 6) (machine.register 2)) rfl rfl
        intro earlier
        exact (if_neg exits).trans ((if_pos writes).trans (if_pos outside))
      · by_cases opened : machine.register 7 = 1 ∨ machine.register 7 = 2
        · have answered := (KeepsRegisters.refl machine .systemCall).set
            (List.mem_singleton.mpr rfl) (machine.register 2)
          refine ⟨.emit (machine.memory.extract (machine.register 6).toNat
            ((machine.register 6).toNat + (machine.register 2).toNat)) _,
            .emit answered rfl, fun earlier => ?_⟩
          exact systemCall_tested writes outside opened
        · apply Changes.of_setRegister 0 badFile (List.mem_singleton.mpr rfl)
          intro earlier
          exact (if_neg exits).trans
            ((if_pos writes).trans ((if_neg outside).trans (if_neg opened)))
    · apply Changes.of_raise
        (.unsupportedSystemCall (machine.register 0) machine.position) rfl rfl
      intro earlier
      exact (if_neg exits).trans (if_neg writes)

/-- Exactly the two tests on parity have no flag to look at. -/
theorem holds?_eq_none {flags : Flags} {condition : ConditionCode} :
    flags.holds? condition = none <-> condition ∈ [0xA, 0xB] := by
  rcases flags with ⟨zero, sign, carry, overflow⟩
  revert zero sign carry overflow condition
  decide

/-- Setting a byte sets the register around it. -/
theorem setByte_eq (machine : Machine) (target : ByteRegister) (byte : UInt8) :
    machine.setByte target byte =
      machine.setRegister target.whole (target.replace (machine.register target.whole) byte) := by
  cases target <;> rfl

theorem changes_setByte (condition : ConditionCode) (target : ByteRegister) :
    Changes machine start (.setByte condition target) := by
  cases tested : machine.flags.holds? condition with
  | some holds =>
      apply Changes.of_setRegister target.whole
        (target.replace (machine.register target.whole) (if holds then 1 else 0))
        (List.mem_singleton.mpr rfl)
      intro earlier
      have held : (machine.remembering earlier).flags.holds? condition = _ := tested
      rw [perform, held]
      exact congrArg (Attempt.completed ()) (setByte_eq _ target _)
  | none =>
      refine ⟨.clear target (.unsupportedCondition condition),
        .clear (if_pos (holds?_eq_none.mp tested)), fun earlier => ?_⟩
      have held : (machine.remembering earlier).flags.holds? condition = _ := tested
      rw [perform, held]
      rfl

end Arithmetic

/-! ## Every operation -/

/-- Performing an operation makes a permitted change, and so does not crash. -/
theorem changes_perform (machine : Machine) (start : UInt64) (operation : Operation)
    (roomy : 8 ≤ machine.memory.size) : Changes machine start operation := by
  cases operation with
  | push register => exact changes_push register roomy
  | pop register => exact changes_pop register roomy
  | read destination address => exact changes_read destination address roomy
  | write address source =>
      exact changes_write (machine.effectiveAddress address) (machine.register source) roomy rfl rfl
        fun _ => rfl
  | writeConstant address bits =>
      exact changes_write (machine.effectiveAddress address) (signExtended bits) roomy rfl rfl
        fun _ => rfl
  | arithmetic operation destination source => exact changes_arithmetic operation destination source
  | multiply destination source => exact changes_multiply destination source
  | divide divisor => exact changes_divide divisor
  | setByte condition target => exact changes_setByte condition target
  | load destination value =>
      exact .of_setRegister destination value (List.mem_singleton.mpr rfl) fun _ => rfl
  | move destination source =>
      exact .of_setRegister destination (machine.register source) (List.mem_singleton.mpr rfl)
        fun _ => rfl
  | zeroExtend destination source =>
      exact .of_setRegister destination (machine.byte source).toUInt64 (List.mem_singleton.mpr rfl)
        fun _ => rfl
  | extendSign =>
      exact .of_setRegister 2 (if Flags.topBit (machine.register 0) then ~~~0 else 0)
        (List.mem_singleton.mpr rfl) fun _ => rfl
  | nothing => exact ⟨_, .of_registers (KeepsRegisters.refl machine _), fun _ => rfl⟩
  | systemCall => exact changes_systemCall

/-- The same of one machine, whatever fault it has. -/
theorem exists_permitted (machine : Machine) (start : UInt64) (operation : Operation)
    (roomy : 8 ≤ machine.memory.size) :
    exists change, Permits machine operation change ∧
      machine.perform start operation = .completed () (change.apply machine) := by
  rcases changes_perform machine start operation roomy with ⟨change, permitted, performed⟩
  exact ⟨change, permitted, performed machine.fault⟩

/-! ## What every change keeps -/

/-- A machine differs from an earlier one only as performing an operation can make it: it stands
where it stood, what was written before stays in front, and with a new fault it has halted. -/
structure Keeps (before after : Machine) : Prop where
  size : after.memory.size = before.memory.size
  codeEnd : after.codeEnd = before.codeEnd
  position : after.position = before.position
  steps : after.steps = before.steps
  output : exists written, after.output = before.output ++ written
  halted : before.halted = true -> after.halted = true
  fault : after.fault = before.fault ∨ after.halted = true

/-- What is written behind a part of the output is written behind what was there before it. -/
theorem output_trans {before middle after : Machine}
    (first : exists written, middle.output = before.output ++ written)
    (second : exists written, after.output = middle.output ++ written) :
    exists written, after.output = before.output ++ written := by
  rcases first with ⟨earlier, written⟩
  rcases second with ⟨later, writtenToo⟩
  exact ⟨earlier ++ later, by rw [writtenToo, written, Array.append_assoc]⟩

namespace Keeps

variable {before middle after : Machine}

theorem refl (machine : Machine) : Keeps machine machine where
  size := rfl
  codeEnd := rfl
  position := rfl
  steps := rfl
  output := ⟨#[], by rw [Array.append_empty]⟩
  halted := id
  fault := Or.inl rfl

theorem trans (first : Keeps before middle) (second : Keeps middle after) : Keeps before after where
  size := second.size.trans first.size
  codeEnd := second.codeEnd.trans first.codeEnd
  position := second.position.trans first.position
  steps := second.steps.trans first.steps
  output := output_trans first.output second.output
  halted stopped := second.halted (first.halted stopped)
  fault := by
    rcases second.fault with same | stopped
    · rw [same]
      exact first.fault.imp_right second.halted
    · exact Or.inr stopped

theorem raise (keeps : Keeps before after) (fault : Fault) : Keeps before (after.raise fault) :=
  { keeps with
    halted := fun _ => rfl
    fault := Or.inr rfl }

end Keeps

section Permitted

variable {machine : Machine} {operation : Operation} {change : Change}

theorem Permits.keeps (permitted : Permits machine operation change) :
    Keeps machine (change.apply machine) := by
  have kept := Keeps.refl machine
  cases permitted with
  | compute => exact { kept with }
  | store => exact { kept with size := withQuadword_size _ _ _ }
  | emit => exact { kept with output := ⟨_, rfl⟩ }
  | exit =>
      exact { kept with
        halted := fun _ => rfl
        fault := Or.inr rfl }
  | stop => exact kept.raise _
  | clear parity =>
      rw [Change.apply, setByte_eq]
      exact { kept.raise _ with }

/-- Memory stays, or one quadword of it changes.  This lies above the code, unless the operation
names its place. -/
theorem Permits.memory_cases (permitted : Permits machine operation change) :
    (change.apply machine).memory = machine.memory ∨
      exists place value, machine.storePlace? operation = some place ∧
        (change.apply machine).memory = withQuadword machine.memory place value ∧
        (operation.isStore = false -> machine.codeEnd ≤ place) := by
  cases permitted with
  | store kept named inside above => exact Or.inr ⟨_, _, named, rfl, above⟩
  | compute | emit | exit | stop => exact Or.inl rfl
  | clear parity =>
      rw [Change.apply, setByte_eq]
      exact Or.inl rfl

end Permitted

end Machine
end LoxNative
