import Mathlib
import LoxNative.Proofs.InstructionEffect
import LoxNative.Proofs.StepOutcome

namespace LoxNative
namespace Machine

/-!
# Faults are precise, with one exception

An instruction that stops the machine with a fault should have done nothing else: whoever looks at
the stopped machine finds registers, flags and memory as they were before the instruction.  Each
operation has its own reasons to stop, and nearly all of them are noticed before anything is
changed.

The exception is a byte that is set by a test on parity.  There is no such test, so the machine
stops, but the byte is cleared all the same.  A fault is therefore precise exactly if the
instruction was not such a test, or the byte was zero already.

Instructions that run past the end of the code are left out.  They are performed with zeros in the
place of the missing bytes, so they stop the machine and change it as well.
-/

/-! ## What a fault should leave alone -/

/-- Two machines differ at most in what a fault may change: where the machine stands, how many
instructions it has executed, that it has halted, and why. -/
structure Spares (before after : Machine) : Prop where
  registers : after.registers = before.registers
  flags : after.flags = before.flags
  memory : after.memory = before.memory
  codeEnd : after.codeEnd = before.codeEnd
  exitStatus : after.exitStatus = before.exitStatus
  output : after.output = before.output

/-- Whether the next step records a fault.  One that was there before does not count, even if the
new one is the same. -/
def recordsFault (machine : Machine) : Bool :=
  (machine.remembering none).step.fault.isSome

/-- The next step fetches nothing from behind the end of the code.  A step that starts there fetches
nothing at all. -/
def FetchesInside (machine : Machine) : Prop :=
  machine.position.toNat < machine.codeEnd -> machine.fetch.2.overrun = false

/-- The operation that the next step performs, if it gets as far as performing one. -/
def upcoming? (machine : Machine) : Option Operation :=
  if machine.halted ∨ machine.codeEnd ≤ machine.position.toNat ∨ machine.fetch.2.crashed then none
  else machine.fetch.1.toOption

/-! ## How a step ends -/

/-- The byte that the next step sets by a test on parity. -/
def clears? (machine : Machine) : Option ByteRegister :=
  machine.upcoming?.bind parityTarget?

section Steps

variable {machine : Machine}

theorem Spares.refl (machine : Machine) : Spares machine machine :=
  ⟨rfl, rfl, rfl, rfl, rfl, rfl⟩

theorem Spares.trans {first second third : Machine} (before : Spares first second)
    (after : Spares second third) : Spares first third where
  registers := after.registers.trans before.registers
  flags := after.flags.trans before.flags
  memory := after.memory.trans before.memory
  codeEnd := after.codeEnd.trans before.codeEnd
  exitStatus := after.exitStatus.trans before.exitStatus
  output := after.output.trans before.output

theorem Spares.symm {first second : Machine} (spares : Spares first second) : Spares second first :=
  ⟨spares.registers.symm, spares.flags.symm, spares.memory.symm, spares.codeEnd.symm,
    spares.exitStatus.symm, spares.output.symm⟩

/-- Fetching a whole instruction changes nothing that a fault should leave alone. -/
theorem spares_advance {place : Fetching} (complete : place.overrun = false) :
    Spares machine (machine.advance place) := by
  rw [advance_of_complete complete]
  exact ⟨rfl, rfl, rfl, rfl, rfl, rfl⟩

theorem Spares.setByte {before after : Machine} (spares : Spares before after)
    (target : ByteRegister)
    (value : UInt8) : Spares (before.setByte target value) (after.setByte target value) := by
  have register (number : RegisterNumber) : after.register number = before.register number := by
    rw [Machine.register, spares.registers]
    rfl
  cases target with
  | low number =>
      simp only [Machine.setByte, register]
      exact { spares with registers := by rw [setRegister, setRegister, spares.registers] }
  | high number =>
      simp only [Machine.setByte, register]
      exact { spares with registers := by rw [setRegister, setRegister, spares.registers] }

theorem advance_remembering {place : Fetching} (complete : place.overrun = false)
    (earlier : Option Fault) :
    (machine.remembering earlier).advance place = (machine.advance place).remembering earlier := by
  rw [advance_of_complete complete, advance_of_complete complete]
  rfl

theorem fault_setByte (target : ByteRegister) (value : UInt8) :
    (machine.setByte target value).fault = machine.fault := by
  rw [setByte_eq]
  rfl

theorem halted_setByte (target : ByteRegister) (value : UInt8) :
    (machine.setByte target value).halted = machine.halted := by
  rw [setByte_eq]
  rfl

/-- What a fault should leave behind: the machine has stopped with it, and nothing but a byte that
was tested for parity has changed. -/
def StopsPrecisely (machine after : Machine) : Prop :=
  (exists fault, after.fault = some fault) ∧ after.halted = true ∧
    match machine.clears? with
    | none => Spares machine after
    | some target => Spares (machine.setByte target 0) after

/-- An operation records no fault, or it stops the machine and does nothing else, apart from
clearing a byte that it sets by a test on parity. -/
theorem stopsPrecisely_change {operation : Operation} {change : Change} {place : Fetching}
    (complete : place.overrun = false) (upcoming : machine.upcoming? = some operation)
    (permitted : Permits (machine.advance place) operation change)
    (faulted : (change.apply ((machine.advance place).remembering none)).fault.isSome = true) :
    StopsPrecisely machine (change.apply (machine.advance place)) := by
  have cleared : machine.clears? = parityTarget? operation := by
    rw [clears?, upcoming]
    rfl
  have spares : Spares machine (machine.advance place) := spares_advance complete
  cases permitted with
  | compute | store | emit | exit => cases faulted
  | @stop fault proper other =>
      rw [StopsPrecisely, cleared, other]
      exact ⟨⟨fault, rfl⟩, rfl, { spares with }⟩
  | @clear target fault parity =>
      rw [StopsPrecisely, cleared, parity]
      have raised : Spares machine ((machine.advance place).raise fault) := { spares with }
      exact ⟨⟨fault, fault_setByte target 0⟩, halted_setByte target 0, raised.setByte target 0⟩

/-- A step that records a fault stops the machine.  It leaves everything else alone, unless it sets
a byte by a test on parity; then it clears that byte and leaves the rest alone. -/
theorem step_of_recordsFault (running : machine.halted = false) (roomy : 8 ≤ machine.memory.size)
    (inside : machine.FetchesInside) (faulted : machine.recordsFault = true) :
    StopsPrecisely machine machine.step := by
  by_cases before : machine.position.toNat < machine.codeEnd
  · rcases fetched : machine.fetch with ⟨found, place⟩
    have complete : place.overrun = false := by
      have whole := inside before
      rw [fetched] at whole
      exact whole
    cases intact : place.crashed with
    | true =>
        have stepped : (machine.remembering none).attemptStep =
            .crashed ((machine.remembering none).advance place) :=
          attemptStep_of_missing running before fetched intact
        rw [recordsFault, step, stepped, advance_remembering complete] at faulted
        cases faulted
    | false =>
        have proceeds : ¬ (machine.halted ∨ machine.codeEnd ≤ machine.position.toNat ∨
            machine.fetch.2.crashed) := by
          rw [running, fetched, intact]
          simp [before]
        cases found with
        | error fault =>
            have spared : machine.clears? = none := by
              rw [clears?, upcoming?, if_neg proceeds, fetched]
              rfl
            rw [StopsPrecisely, spared, step, attemptStep_of_refusal running before fetched intact]
            exact ⟨⟨fault, rfl⟩, rfl, { spares_advance complete with }⟩
        | ok operation =>
            have upcoming : machine.upcoming? = some operation := by
              rw [upcoming?, if_neg proceeds, fetched]
              rfl
            have running' : (machine.remembering none).halted = false := running
            have forgetful := attemptStep_of_fetch running' before fetched intact
            have roomyBehind : 8 ≤ (machine.advance place).memory.size := by
              rw [memory_advance]
              exact roomy
            rcases changes_perform (machine.advance place) machine.position operation roomyBehind
              with ⟨change, permitted, performed⟩
            have done : (machine.advance place).perform machine.position operation =
                .completed () (change.apply (machine.advance place)) :=
              performed (machine.advance place).fault
            rw [recordsFault, step, forgetful, advance_remembering complete] at faulted
            change ((machine.advance place).remembering none |>.perform machine.position
              operation).machine.fault.isSome = true at faulted
            rw [performed] at faulted
            rw [step, attemptStep_of_fetch running before fetched intact, done]
            exact stopsPrecisely_change complete upcoming permitted faulted
  · have behind := Nat.not_lt.mp before
    have spared : machine.clears? = none := by
      rw [clears?, upcoming?, if_pos (Or.inr (Or.inl behind))]
      rfl
    rw [StopsPrecisely, spared, step, attemptStep_of_behind running behind]
    exact ⟨⟨_, rfl⟩, rfl, { Spares.refl machine with }⟩

theorem registers_setRegister_eq {number : RegisterNumber} {value : UInt64} :
    (machine.setRegister number value).registers = machine.registers <->
      value = machine.register number := by
  constructor
  · intro same
    have read := congrArg (fun registers => registers.get number) same
    have written : (machine.setRegister number value).register number = value :=
      register_setRegister_same machine number value
    exact written.symm.trans read
  · rintro rfl
    rw [setRegister, register, Vector.get_eq_getElem]
    exact Vector.set_getElem_self _

theorem ofNat_sub_eq_iff {word : UInt64} {digit : Nat} (small : digit ≤ word.toNat) :
    UInt64.ofNat (word.toNat - digit) = word <-> digit = 0 := by
  have bounded := word.toNat_lt
  rw [<- UInt64.toNat_inj, UInt64.toNat_ofNat', Nat.mod_eq_of_lt (by omega)]
  omega

/-- Clearing a byte changes nothing exactly if the byte is zero. -/
theorem spares_clear_iff (target : ByteRegister) :
    Spares machine (machine.setByte target 0) <-> machine.byte target = 0 := by
  have registers : Spares machine (machine.setByte target 0) <->
      (machine.setByte target 0).registers = machine.registers := by
    refine ⟨Spares.registers, fun same => ?_⟩
    cases target <;> exact { Spares.refl machine with registers := same }
  rw [registers]
  cases target with
  | low number =>
      have cleared : (machine.register number &&& (~~~0xFF : UInt64)) ||| (0 : UInt8).toUInt64 =
          UInt64.ofNat ((machine.register number).toNat - (machine.register number).toNat % 256) :=
        and_not_or_low (machine.register number) false
      rw [setByte, registers_setRegister_eq, cleared, ofNat_sub_eq_iff (Nat.mod_le _ _), byte,
        <- UInt8.toNat_inj, UInt64.toNat_toUInt8]
      rfl
  | high number =>
      generalize numbered : number.castLE ByteRegister.high_le = whole
      have cleared :
          (machine.register whole &&& (~~~0xFF00 : UInt64)) ||| ((0 : UInt8).toUInt64 <<< 8) =
            UInt64.ofNat
              ((machine.register whole).toNat - (machine.register whole).toNat / 256 % 256 * 256) :=
        and_not_or_high (machine.register whole) false
      have shifted :
          (machine.register whole >>> 8).toNat = (machine.register whole).toNat / 256 := by
        rw [UInt64.toNat_shiftRight, Nat.shiftRight_eq_div_pow]
        rfl
      simp only [setByte, byte, numbered]
      rw [registers_setRegister_eq, cleared, ofNat_sub_eq_iff (by omega), <- UInt8.toNat_inj,
        UInt64.toNat_toUInt8, shifted]
      change _ <-> _ = 0
      omega

/-- A step that records a fault stops the machine.  It leaves registers, flags, memory, exit status
and output alone, unless it sets a byte by a test on parity; then it clears that byte, and leaves
all else alone.  So the fault is precise exactly if there is no such byte, or the byte was zero. -/
theorem fault_is_precise_iff (machine : Machine) (running : machine.halted = false)
    (roomy : 8 ≤ machine.memory.size) (inside : machine.FetchesInside)
    (faulted : machine.recordsFault = true) :
    (exists fault, machine.step.fault = some fault) ∧ machine.step.halted = true ∧
      (forall target, machine.clears? = some target ->
        Spares (machine.setByte target 0) machine.step) ∧
      (Spares machine machine.step <->
        forall target, machine.clears? = some target -> machine.byte target = 0) := by
  rcases step_of_recordsFault running roomy inside faulted with ⟨recorded, halted, outcome⟩
  refine ⟨recorded, halted, ?_, ?_⟩
  · intro target cleared
    rw [cleared] at outcome
    exact outcome
  · cases cleared : machine.clears? with
    | none =>
        rw [cleared] at outcome
        exact ⟨fun _ target found => (nomatch found), fun _ => outcome⟩
    | some target =>
        rw [cleared] at outcome
        constructor
        · rintro spared other same
          cases same
          exact (spares_clear_iff target).mp (spared.trans outcome.symm)
        · intro zero
          exact ((spares_clear_iff target).mpr (zero target rfl)).trans outcome

end Steps

/-- A division by zero leaves everything as it was. -/
theorem fault_is_precise_iff_division :
    let machine : Machine :=
      { Machine.initial with
        registers := #v[7, 0, 0, 0, 16, 0, 0, 0, 0, 0, 0, 0, 0, 0, 0, 0]
        memory := #[0x48, 0xF7, 0xF3, 0, 0, 0, 0, 0, 0, 0, 0, 0, 0, 0, 0, 0]
        codeEnd := 3 }
    machine.halted = false ∧ 8 ≤ machine.memory.size ∧ machine.FetchesInside ∧
      machine.recordsFault = true ∧ machine.clears? = none ∧ Spares machine machine.step := by
  intro machine
  have inside : machine.FetchesInside := fun _ => by decide
  have spared : machine.clears? = none := by decide
  have faulted : machine.recordsFault = true := by decide
  have precise := fault_is_precise_iff machine rfl (by decide) inside faulted
  refine ⟨rfl, by decide, inside, faulted, spared, precise.2.2.2.mpr ?_⟩
  intro target found
  cases spared.symm.trans found

/-- A test on parity stops the machine, but not before the byte is cleared. -/
theorem parity_fault_clears_byte :
    let machine : Machine :=
      { Machine.initial with
        registers := #v[255, 0, 0, 0, 16, 0, 0, 0, 0, 0, 0, 0, 0, 0, 0, 0]
        memory := #[0x0F, 0x9A, 0xC0, 0, 0, 0, 0, 0, 0, 0, 0, 0, 0, 0, 0, 0]
        codeEnd := 3 }
    machine.halted = false ∧ 8 ≤ machine.memory.size ∧ machine.FetchesInside ∧
      machine.recordsFault = true ∧ machine.step.fault = some (.unsupportedCondition 0xA) ∧
      machine.register 0 = 255 ∧ machine.step.register 0 = 0 ∧ ¬ Spares machine machine.step := by
  intro machine
  have before : machine.register 0 = 255 := rfl
  have after : machine.step.register 0 = 0 := by decide
  refine ⟨rfl, by decide, fun _ => by decide, by decide, by decide, before, after, fun spares => ?_⟩
  have same : machine.step.register 0 = machine.register 0 :=
    congrArg (fun registers => registers.get 0) spares.registers
  rw [after, before] at same
  exact absurd same (by decide)

end Machine
end LoxNative
