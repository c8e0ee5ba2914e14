import Mathlib
import LoxNative.Proofs.FetchedBytes

namespace LoxNative

/-!
# The stack does not reach the code

Code and stack share one memory, and the stack pointer can be any word.  A push compares it with the
end of the code before it writes, so what is pushed lies above the code and inside memory, and the
next pop finds it.

The rest follows from one statement on what a step can do to memory: nothing, or one quadword, which
lies above the code unless the instruction is a move to memory.  Nothing jumps, so where
instructions start can be told from the code alone.  If no move to memory starts there, the code
that is executed is the code that was loaded, to the end of the run.
-/

namespace Machine

/-! ## Pushing and popping -/

/-- What a push does that succeeds. -/
structure Pushes (value : UInt64) (before after : Machine) : Prop where
  /-- The eight bytes below the top of the stack lie above the code. -/
  above : before.codeEnd + 8 ≤ (before.register stackPointer).toNat
  /-- No other byte changes. -/
  bytes : forall index, after.memory[index]? ≠ before.memory[index]? ->
    (before.register stackPointer).toNat ≤ index + 8 ∧ index < (before.register stackPointer).toNat
  rest : after =
    { before with memory := after.memory }.setRegister stackPointer
      (before.register stackPointer - 8)
  /-- A pop gives the value back, and then only memory tells that there was a push. -/
  popped : after.pop = .completed (some value) { before with memory := after.memory }

section Stack

variable {machine : Machine} {value : UInt64}

theorem setRegister_setRegister (number : RegisterNumber) (first second : UInt64) :
    (machine.setRegister number first).setRegister number second =
      machine.setRegister number second := by
  simp only [setRegister, Vector.set_set]

theorem setRegister_register (machine : Machine) (number : RegisterNumber) :
    machine.setRegister number (machine.register number) = machine := by
  have same :=
    registers_setRegister_eq.mpr (rfl : machine.register number = machine.register number)
  exact congrArg (fun registers => { machine with registers }) same

/-- The stack pointer goes down by eight and up again, and neither wraps around. -/
theorem pushes_of_room (room : machine.codeEnd + 8 ≤ (machine.register stackPointer).toNat)
    (inside : (machine.register stackPointer).toNat ≤ machine.memory.size) :
    exists pushed, machine.push value = .completed () pushed ∧ Pushes value machine pushed := by
  refine ⟨_, push_inside value room inside, room, fun index changed => ?_, rfl, ?_⟩
  · by_contra untouched
    exact changed (getElem?_withQuadword_outside _ _ _ (by omega))
  · have lowered := toNat_sub_eight (by omega : 8 ≤ (machine.register stackPointer).toNat)
    have fits : (machine.register stackPointer).toNat - 8 + 8 ≤ machine.memory.size := by omega
    generalize stored :
      withQuadword machine.memory ((machine.register stackPointer).toNat - 8) value =
      memory
    have size : memory.size = machine.memory.size := by rw [<- stored, withQuadword_size]
    let pushed : Machine :=
      { machine with memory }.setRegister stackPointer (machine.register stackPointer - 8)
    have top : pushed.register stackPointer = machine.register stackPointer - 8 :=
      register_setRegister_same _ _ _
    have found : pushed.readQword (machine.register stackPointer - 8) =
        .completed (some value) pushed := by
      have read : pushed.readQword (machine.register stackPointer - 8) = _ :=
        readQword_inside (by rw [lowered]; exact size ▸ fits)
      have back : quadword memory ((machine.register stackPointer).toNat - 8) = value := by
        rw [<- stored, quadword_withQuadword_same _ _ _ fits]
      rw [read, lowered]
      exact congrArg (fun word => Attempt.completed (some word) pushed) back
    have raised : machine.register stackPointer - 8 + 8 = machine.register stackPointer :=
      UInt64.sub_add_cancel _ _
    change pushed.pop = _
    have above : ¬ pushed.memory.size < (machine.register stackPointer).toNat := by
      change ¬ memory.size < _
      rw [size]
      exact Nat.not_lt.mpr inside
    rw [pop, top, raised, if_neg above, found]
    refine congrArg (Attempt.completed (some value)) ?_
    change pushed.setRegister stackPointer (machine.register stackPointer) = _
    rw [setRegister_setRegister]
    exact setRegister_register { machine with memory } stackPointer

theorem push_faults (roomy : 8 ≤ machine.memory.size)
    (refused : ¬ (machine.codeEnd + 8 ≤ (machine.register stackPointer).toNat ∧
      (machine.register stackPointer).toNat ≤ machine.memory.size)) :
    exists fault, machine.push value = .completed () (machine.raise fault) := by
  by_cases full : (machine.register stackPointer).toNat < machine.codeEnd + 8
  · exact ⟨_, push_overflow value full⟩
  · exact ⟨_, push_outside value roomy (by omega) (by omega)⟩

end Stack

/-! ## What a step can do to memory -/

/-- Memory has not changed, or in one quadword only.  This lies above the code, unless there is a
reason. -/
def WritesOnce (reason : Prop) (before after : Machine) : Prop :=
  after.memory = before.memory ∨
    exists place value, after.memory = withQuadword before.memory place value ∧
      (before.codeEnd ≤ place ∨ reason)

namespace WritesOnce

variable {reason : Prop} {before after : Machine}

theorem window (writes : WritesOnce reason before after) :
    exists window, forall index, index < window ∨ window + 8 ≤ index ->
      after.memory[index]? = before.memory[index]? := by
  rcases writes with same | ⟨place, value, written, -⟩
  · exact ⟨0, fun index _ => by rw [same]⟩
  · refine ⟨place, fun index outside => ?_⟩
    rw [written, getElem?_withQuadword_outside _ _ _ outside]

theorem code (writes : WritesOnce reason before after) (without : ¬ reason) {index : Nat}
    (inCode : index < before.codeEnd) : after.memory[index]? = before.memory[index]? := by
  rcases writes with same | ⟨place, value, written, above | given⟩
  · rw [same]
  · rw [written, getElem?_withQuadword_outside _ _ _ (Or.inl (Nat.lt_of_lt_of_le inCode above))]
  · exact absurd given without

theorem size (writes : WritesOnce reason before after) :
    after.memory.size = before.memory.size := by
  rcases writes with same | ⟨place, value, written, -⟩
  · rw [same]
  · rw [written, withQuadword_size]

end WritesOnce

section Steps

variable {machine : Machine}

/-- A step finds no operation, and then memory is as before, or it makes a change that is permitted
to the operation that was found. -/
theorem memory_step (roomy : 8 ≤ machine.memory.size) :
    machine.step.memory = machine.memory ∨
      exists operation change, machine.upcoming? = some operation ∧
        Permits (machine.advance machine.fetch.2) operation change ∧
        machine.step = change.apply (machine.advance machine.fetch.2) := by
  have outcome := stepsTo_attemptStep roomy
  unfold step
  generalize machine.attemptStep = attempt at outcome
  cases outcome with
  | idle | ended => exact Or.inl rfl
  | crashed | refused => exact Or.inl (memory_advance machine machine.fetch.2)
  | performed running before intact fetched permitted =>
      refine Or.inr ⟨_, _, upcoming?_eq_some.mpr ⟨running, before, intact, ?_⟩, permitted, rfl⟩
      exact Prod.ext fetched rfl

/-- Only a step that performs an operation can write, and only a move to memory can write into the
code. -/
theorem writesOnce_step (roomy : 8 ≤ machine.memory.size) :
    WritesOnce (machine.halted = false ∧ machine.position.toNat < machine.codeEnd ∧
      machine.code.movesToMemory machine.position = true) machine machine.step := by
  rcases memory_step roomy with same | ⟨operation, change, upcoming, permitted, stepped⟩
  · exact Or.inl same
  · rcases upcoming?_eq_some.mp upcoming with ⟨running, before, -, fetched⟩
    have explained := Decoder.explains_operation machine.code machine.position _ _ fetched
    have memory := memory_advance machine machine.fetch.2
    have codeEnd : (machine.advance machine.fetch.2).codeEnd = machine.codeEnd :=
      (keeps_advance machine machine.fetch.2).codeEnd
    rw [WritesOnce, stepped, <- memory]
    refine permitted.memory_cases.imp_right ?_
    rintro ⟨place, value, -, written, above⟩
    refine ⟨place, value, written, ?_⟩
    cases store : operation.isStore with
    | false => exact Or.inl (codeEnd ▸ above store)
    | true => exact Or.inr ⟨running, before, explained.2 store⟩

/-- A step that leaves the machine running has gone on to where fetching stopped. -/
theorem position_step (roomy : 8 ≤ machine.memory.size) (runs : machine.step.halted = false) :
    machine.halted = false ∧ machine.step.position = machine.fetch.2.position := by
  have outcome := stepsTo_attemptStep roomy
  unfold step at runs ⊢
  generalize machine.attemptStep = attempt at outcome runs
  have position : (machine.advance machine.fetch.2).position = machine.fetch.2.position :=
    (keeps_advance machine machine.fetch.2).position
  cases outcome with
  | idle halted => exact absurd (runs.symm.trans halted) Bool.false_ne_true
  | ended => cases runs
  | crashed running => exact ⟨running, position⟩
  | refused => cases runs
  | performed running before intact fetched permitted =>
      exact ⟨running, permitted.keeps.position.trans position⟩

end Steps

end Machine

/-! ## Code that stays as it was -/

namespace Code

/-- The places at which instructions start when code is executed from an entry on, as far as they
can be told from the code alone. -/
inductive Begins (code : Code) (entry : UInt64) : UInt64 -> Prop
  | entry : Begins code entry entry
  | next {place : UInt64} :
      Begins code entry place ->
      Begins code entry (Decoder.operation code { position := place }).2.position

/-- Two codes with the same bytes up to the same end.  What stands behind the end may differ. -/
structure Agrees (code other : Code) : Prop where
  ending : other.ending = code.ending
  bytes : forall index, index < code.ending -> other.memory[index]? = code.memory[index]?

namespace Agrees

variable {code other : Code}

theorem byte?_eq (agrees : code.Agrees other) (place : UInt64) :
    other.byte? place = code.byte? place := by
  rw [byte?, byte?, agrees.ending]
  split
  · rfl
  · rename_i before
    exact agrees.bytes _ (Nat.lt_of_not_le before)

theorem movesToMemory_eq (agrees : code.Agrees other) :
    other.movesToMemory = code.movesToMemory := by
  have bytes : other.byteAt = code.byteAt := by
    funext place
    rw [byteAt, agrees.byte?_eq, byteAt]
  unfold movesToMemory opcodePlace
  rw [bytes]

theorem fetchByte_eq (agrees : code.Agrees other) :
    Decoder.fetchByte other = Decoder.fetchByte code := by
  funext place
  unfold Decoder.fetchByte
  rw [agrees.ending]
  split
  · rfl
  · rename_i before
    rw [agrees.bytes _ (Nat.lt_of_not_le before)]

theorem fetchBytes_eq (agrees : code.Agrees other) (count : Nat) :
    Decoder.fetchBytes other count = Decoder.fetchBytes code count := by
  induction count with
  | zero => rfl
  | succ count ih => rw [Decoder.fetchBytes, Decoder.fetchBytes, agrees.fetchByte_eq, ih]

/-- Decoding looks at nothing but the bytes that fetching finds. -/
theorem operation_eq (agrees : code.Agrees other) :
    Decoder.operation other = Decoder.operation code := by
  simp only [Decoder.operation, Decoder.firstTable, Decoder.secondTable, Decoder.fetchAddress,
    Decoder.fetchRegisters, Decoder.fetchOperand, Decoder.fetchDword, Decoder.fetchQword,
    agrees.fetchByte_eq, agrees.fetchBytes_eq]

end Agrees

end Code

namespace Machine

/-- A machine that executes code from an entry on, and has the bytes of the code in its memory. -/
structure Follows (code : Code) (entry : UInt64) (machine : Machine) : Prop where
  roomy : 8 ≤ machine.memory.size
  agrees : code.Agrees machine.code
  begins : machine.halted = false -> code.Begins entry machine.position

section Runs

variable {machine : Machine} {code : Code} {entry : UInt64}

theorem Follows.step (follows : machine.Follows code entry)
    (without : forall place, code.Begins entry place -> code.movesToMemory place = false) :
    machine.step.Follows code entry := by
  have writes := writesOnce_step follows.roomy
  have harmless : ¬ (machine.halted = false ∧ machine.position.toNat < machine.codeEnd ∧
      machine.code.movesToMemory machine.position = true) := by
    rintro ⟨running, -, moves⟩
    rw [follows.agrees.movesToMemory_eq, without _ (follows.begins running)] at moves
    exact Bool.false_ne_true moves
  refine ⟨by rw [writes.size]; exact follows.roomy, ⟨?_, fun index inCode => ?_⟩, fun runs => ?_⟩
  · exact (codeEnd_step follows.roomy).trans follows.agrees.ending
  · have ending : machine.codeEnd = code.ending := follows.agrees.ending
    exact (writes.code harmless (by rw [ending]; exact inCode)).trans
      (follows.agrees.bytes index inCode)
  · rcases position_step follows.roomy runs with ⟨running, position⟩
    rw [position]
    have next := (follows.begins running).next
    rw [<- follows.agrees.operation_eq] at next
    exact next

theorem Follows.runFor (follows : machine.Follows code entry)
    (without : forall place, code.Begins entry place -> code.movesToMemory place = false)
    (count : Nat) :
    (machine.runFor count).Follows code entry :=
  runFor_preserves (fun _ reached => reached.step without) count follows

end Runs

/-- A push stops the machine and does nothing else, or it writes the eight bytes below the top of
the stack, which lie above the code, and a pop takes the push back.  Which of the two depends on the
stack pointer alone.  A step changes memory in one quadword at most, and the code only if the
instruction is a move to memory.  So a run of code in which no such move starts never changes the
code. -/
theorem stack_spares_code (machine : Machine) (roomy : 8 ≤ machine.memory.size) :
    (forall value,
      let top := (machine.register stackPointer).toNat
      if machine.codeEnd + 8 ≤ top ∧ top ≤ machine.memory.size then
        exists pushed, machine.push value = .completed () pushed ∧ Pushes value machine pushed
      else
        exists fault, machine.push value = .completed () (machine.raise fault)) ∧
      (exists window, forall index, index < window ∨ window + 8 ≤ index ->
        machine.step.memory[index]? = machine.memory[index]?) ∧
      (forall index, index < machine.codeEnd ->
        machine.step.memory[index]? ≠ machine.memory[index]? ->
        machine.halted = false ∧ machine.position.toNat < machine.codeEnd ∧
          machine.code.movesToMemory machine.position = true) ∧
      ((forall place, machine.code.Begins machine.position place ->
          machine.code.movesToMemory place = false) ->
        forall count index, index < machine.codeEnd ->
          (machine.runFor count).memory[index]? = machine.memory[index]?) := by
  have writes := writesOnce_step roomy
  refine ⟨fun value => ?_, writes.window, fun index inCode changed => ?_,
    fun without count index inCode => ?_⟩
  · intro top
    split
    · rename_i room
      exact pushes_of_room room.1 room.2
    · rename_i refused
      exact push_faults roomy refused
  · by_contra harmless
    exact changed (writes.code harmless inCode)
  · have follows : machine.Follows machine.code machine.position :=
      ⟨roomy, ⟨rfl, fun _ _ => rfl⟩, fun _ => .entry⟩
    exact (follows.runFor without count).agrees.bytes index inCode

/-- Code that puts a constant into `rax` and pushes it, with room for this push only.  The constant
has the bytes of a move to memory, but no instruction starts there. -/
theorem stack_spares_code_constant :
    let machine : Machine :=
      { Machine.initial with
        registers := #v[0, 0, 0, 0, 14, 0, 0, 0, 0, 0, 0, 0, 0, 0, 0, 0]
        memory := #[0xB8, 0x89, 0, 0, 0, 0x50, 0, 0, 0, 0, 0, 0, 0, 0, 0, 0]
        codeEnd := 6 }
    8 ≤ machine.memory.size ∧
      (exists pushed, machine.push 0x89 = .completed () pushed ∧ Pushes 0x89 machine pushed) ∧
      machine.code.movesToMemory 1 = true ∧
      forall count index, index < 6 ->
        (machine.runFor count).memory[index]? = machine.memory[index]? := by
  intro machine
  have spares := stack_spares_code machine (by decide)
  have starts : forall place, machine.code.Begins 0 place -> place ∈ [(0 : UInt64), 5, 6] := by
    intro place begins
    induction begins with
    | entry => decide
    | next _ ih =>
        simp only [List.mem_cons, List.not_mem_nil, or_false] at ih
        rcases ih with rfl | rfl | rfl <;> decide
  refine ⟨by decide, spares.1 0x89, by decide, spares.2.2.2 fun place begins => ?_⟩
  have listed := starts place begins
  simp only [List.mem_cons, List.not_mem_nil, or_false] at listed
  rcases listed with rfl | rfl | rfl <;> decide

end Machine

end LoxNative
