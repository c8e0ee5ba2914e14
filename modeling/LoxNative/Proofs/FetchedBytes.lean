import Mathlib
import LoxNative.Proofs.PreciseFaults
import LoxNative.Proofs.StepOutcome

namespace LoxNative

/-!
# The bytes behind an operation

Decoding leads from bytes to an operation.  This module leads back, from the operation that was
found to what the bytes must have been.  Two facts are wanted.  A move to memory was found only
because there is the opcode of such a move, with an operand that is not a register.  And most
operations were fetched as a whole: the last byte of their encoding is never zero, but a byte that
is missing counts as zero.

Both are proved along the decoder, by rules that say what holds of a value that was found and of the
place where fetching stopped.
-/

/-! ## Bytes of code -/

namespace Code

/-- The byte of the code at a place, if there is one. -/
def byte? (code : Code) (place : UInt64) : Option UInt8 :=
  if code.ending ≤ place.toNat then none else code.memory[place.toNat]?

/-- The byte that fetching finds at a place.  A missing byte counts as zero. -/
def byteAt (code : Code) (place : UInt64) : UInt8 :=
  (code.byte? place).getD 0

/-- The place of the opcode in the instruction that starts at a place: behind an extension byte, if
there is one. -/
def opcodePlace (code : Code) (start : UInt64) : UInt64 :=
  if code.byteAt start &&& 0xF0 = 0x40 then start + 1 else start

/-- Whether the instruction that starts at a place is a move to memory: it has one of the two
opcodes for moves to an operand, and the operand byte names no register. -/
def movesToMemory (code : Code) (start : UInt64) : Bool :=
  let place := code.opcodePlace start
  code.byteAt place ∈ [0x89, 0xC7] ∧ code.byteAt (place + 1) >>> 6 ≠ 3

end Code

namespace Operation

/-- Whether the encoding of an operation may end in a byte that is zero.  It does so only in a
constant, in a distance, or in an operand byte for memory. -/
def endsOpen : Operation -> Bool
  | .load _ _ | .read _ _ | .write _ _ | .writeConstant _ _ | .arithmetic _ _ (.constant _) => true
  | _ => false

end Operation

/-! ## Rules for what a decoder finds -/

/-- Nothing was missing so far. -/
structure Fetching.IsComplete (place : Fetching) : Prop where
  overrun : place.overrun = false
  crashed : place.crashed = false

/-- If something was missing so far, then it is missing still: fetching never goes past a missing
byte. -/
def Fetching.IsFaithful (code : Code) (place : Fetching) : Prop :=
  place.IsComplete ∨ code.byte? place.position = none

namespace Decoder

/-- If a decoder finds a value at a place, the outcome holds of the value and of the place behind
it. -/
def Ensures {Value : Type} (decoder : Decoder Value) (place : Fetching)
    (outcome : Value -> Fetching -> Prop) : Prop :=
  forall value after, decoder place = (.ok value, after) -> outcome value after

namespace Ensures

variable {Value Result : Type} {place : Fetching} {outcome : Value -> Fetching -> Prop}

theorem pure {value : Value} (holds : outcome value place) :
    Ensures (Pure.pure value : Decoder Value) place outcome := by
  intro other after found
  cases found
  exact holds

theorem throw (fault : Fault) :
    Ensures (MonadExcept.throw fault : Decoder Value) place outcome := by
  intro value after found
  cases found

theorem bind {decoder : Decoder Result} {next : Result -> Decoder Value}
    (first : Ensures decoder place fun value after => Ensures (next value) after outcome) :
    Ensures (decoder >>= next) place outcome := by
  intro value after found
  rw [bind_eq] at found
  rcases fetched : decoder place with ⟨fault | middle, behind⟩
  · rw [fetched] at found
    cases found
  · rw [fetched] at found
    exact first middle behind fetched value after found

/-- What the first decoder finds does not matter. -/
theorem behind {decoder : Decoder Result} {next : Result -> Decoder Value}
    (second : forall value after, Ensures (next value) after outcome) :
    Ensures (decoder >>= next) place outcome :=
  bind fun value after _ => second value after

theorem ite {condition : Prop} [Decidable condition] {first second : Decoder Value}
    (holds : condition -> Ensures first place outcome)
    (fails : ¬ condition -> Ensures second place outcome) :
    Ensures (if condition then first else second) place outcome := by
  split
  · rename_i decided
    exact holds decided
  · rename_i decided
    exact fails decided

theorem position {next : UInt64 -> Decoder Value}
    (second : Ensures (next place.position) place outcome) :
    Ensures (Decoder.position >>= next) place outcome :=
  second

theorem mono {stronger : Value -> Fetching -> Prop} {decoder : Decoder Value}
    (ensures : Ensures decoder place stronger)
    (weaken : forall value after, stronger value after -> outcome value after) :
    Ensures decoder place outcome :=
  fun value after found => weaken value after (ensures value after found)

end Ensures

section Fetches

variable {code : Code} {place : Fetching}

/-- A fetch finds the byte and moves on, or finds none and stays. -/
theorem fetchByte_cases (code : Code) (place : Fetching) :
    (exists byte, code.byte? place.position = some byte ∧
      fetchByte code place = (.ok byte, { place with position := place.position + 1 })) ∨
    (code.byte? place.position = none ∧ exists after, fetchByte code place = (.ok 0, after) ∧
      after.position = place.position) := by
  unfold fetchByte Code.byte?
  by_cases behind : code.ending ≤ place.position.toNat
  · rw [if_pos behind, if_pos behind]
    exact Or.inr ⟨rfl, _, rfl, rfl⟩
  · rw [if_neg behind, if_neg behind]
    cases code.memory[place.position.toNat]? with
    | some byte => exact Or.inl ⟨byte, rfl, rfl⟩
    | none => exact Or.inr ⟨rfl, _, rfl, rfl⟩

/-- A byte other than zero is really there, and so was everything before it. -/
theorem ensures_fetchByte (faithful : place.IsFaithful code) :
    Ensures (fetchByte code) place fun byte after =>
      byte = code.byteAt place.position ∧ after.IsFaithful code ∧
        (byte ≠ 0 -> after.IsComplete ∧ after.position = place.position + 1) := by
  intro byte after found
  rcases fetchByte_cases code place with
    ⟨there, isThere, fetched⟩ | ⟨missing, stopped, fetched, stays⟩
  · cases fetched.symm.trans found
    have complete : place.IsComplete := by
      rcases faithful with complete | missing
      · exact complete
      · cases missing.symm.trans isThere
    have behind : Fetching.IsComplete { place with position := place.position + 1 } :=
      ⟨complete.overrun, complete.crashed⟩
    exact ⟨by rw [Code.byteAt, isThere]; rfl, Or.inl behind, fun _ => ⟨behind, rfl⟩⟩
  · cases fetched.symm.trans found
    refine ⟨by rw [Code.byteAt, missing]; rfl, Or.inr ?_, fun other => absurd rfl other⟩
    rw [stays]
    exact missing

theorem ensures_fetchOperand (extension : Extension) (faithful : place.IsFaithful code) :
    Ensures (fetchOperand code extension) place fun operand after =>
      operand.mode = code.byteAt place.position >>> 6 ∧ (operand.mode = 3 -> after.IsComplete) := by
  refine Ensures.bind ((ensures_fetchByte faithful).mono ?_)
  rintro byte after ⟨read, -, complete⟩
  refine Ensures.pure ⟨by rw [read], fun mode => (complete ?_).1⟩
  rintro rfl
  exact absurd (show (0 : UInt8) >>> 6 = 3 from mode) (by decide)

theorem ensures_fetchRegisters (extension : Extension) (fault : Fault)
    (faithful : place.IsFaithful code) :
    Ensures (fetchRegisters code extension fault) place fun _ after => after.IsComplete := by
  refine Ensures.bind ((ensures_fetchOperand extension faithful).mono ?_)
  rintro operand after ⟨-, complete⟩
  exact Ensures.ite (fun mode => Ensures.pure (complete mode)) fun _ => Ensures.throw fault

end Fetches

/-! ## The tables of opcodes -/

/-- What an operation of the first table tells about its opcode, about the byte behind the opcode,
and about the place where fetching stopped. -/
structure Explains (code : Code) (opcode : UInt8) (operand : UInt64) (operation : Operation)
    (after : Fetching) : Prop where
  complete : operation.endsOpen = false -> after.IsComplete
  store : operation.isStore = true -> opcode ∈ [0x89, 0xC7] ∧ code.byteAt operand >>> 6 ≠ 3

namespace Explains

variable {code : Code} {opcode : UInt8} {operand : UInt64} {operation : Operation}
  {after : Fetching}

theorem of_complete (complete : after.IsComplete) (other : operation.isStore = false) :
    Explains code opcode operand operation after :=
  ⟨fun _ => complete, fun store => absurd (other.symm.trans store) Bool.false_ne_true⟩

theorem of_open (endsOpen : operation.endsOpen = true) (other : operation.isStore = false) :
    Explains code opcode operand operation after :=
  ⟨fun closed => absurd (closed.symm.trans endsOpen) Bool.false_ne_true,
    fun store => absurd (other.symm.trans store) Bool.false_ne_true⟩

theorem of_store (endsOpen : operation.endsOpen = true) (listed : opcode ∈ [0x89, 0xC7])
    (mode : code.byteAt operand >>> 6 ≠ 3) : Explains code opcode operand operation after :=
  ⟨fun closed => absurd (closed.symm.trans endsOpen) Bool.false_ne_true, fun _ => ⟨listed, mode⟩⟩

end Explains

section Tables

variable {code : Code} {place : Fetching}

theorem explains_secondTable (start : UInt64) (extension : Extension) (opcode : UInt8)
    (operand : UInt64) (faithful : place.IsFaithful code) :
    Ensures (secondTable code start extension) place (Explains code opcode operand) := by
  have registers {next : OperandByte -> Operation} (instruction : RegisterOnly) {after : Fetching}
      (faithful : after.IsFaithful code) (other : forall fields, (next fields).isStore = false) :
      Ensures (do return next (<- fetchRegisters code extension (.memoryOperand instruction start)))
        after (Explains code opcode operand) := by
    refine Ensures.bind
      ((ensures_fetchRegisters extension _ faithful).mono fun fields behind complete => ?_)
    exact Ensures.pure (.of_complete complete (other fields))
  refine Ensures.bind ((ensures_fetchByte faithful).mono ?_)
  rintro second after ⟨-, faithful, read⟩
  refine Ensures.ite (fun call => Ensures.pure (.of_complete (read ?_).1 rfl)) fun _ =>
    Ensures.ite (fun _ => registers .multiply faithful fun _ => rfl) fun _ =>
      Ensures.ite (fun _ => registers .zeroExtend faithful fun _ => rfl) fun _ =>
        Ensures.ite (fun _ => registers .setByte faithful fun _ => rfl) fun _ => Ensures.throw _
  rw [call]
  decide

theorem explains_firstTable (start : UInt64) (extension : Extension) (opcode : UInt8)
    (faithful : place.IsFaithful code) (read : opcode ≠ 0 -> place.IsComplete) :
    Ensures (firstTable code start extension opcode) place
      (Explains code opcode place.position) := by
  have registers := ensures_fetchRegisters extension (.memoryOperand .arithmetic start) faithful
  have operand := ensures_fetchOperand extension faithful
  -- An opcode that a test has singled out is not zero.
  have single {operation : Operation} {wanted : UInt8} (same : opcode = wanted) (other : wanted ≠ 0)
      (plain : operation.isStore = false) :
      Ensures (return operation) place (Explains code opcode place.position) :=
    Ensures.pure (.of_complete (read (same ▸ other)) plain)
  have range {operation : Operation} {least greatest : UInt8}
      (within : least ≤ opcode ∧ opcode < greatest)
      (positive : 0 < least) (plain : operation.isStore = false) :
      Ensures (return operation) place (Explains code opcode place.position) := by
    refine Ensures.pure (.of_complete (read ?_) plain)
    rintro rfl
    exact absurd (UInt8.lt_of_lt_of_le positive within.1) (by decide)
  unfold firstTable
  refine Ensures.ite (fun push => range push (by decide) rfl) fun _ =>
    Ensures.ite (fun pop => range pop (by decide) rfl) fun _ =>
      Ensures.ite (fun _ => ?load) fun _ => ?rest
  case load =>
    exact Ensures.ite (fun _ => Ensures.behind fun _ _ => Ensures.pure (.of_open rfl rfl)) fun _ =>
      Ensures.behind fun _ _ => Ensures.pure (.of_open rfl rfl)
  case rest =>
    cases Arithmetic.ofOpcode? opcode with
    | some operation =>
        refine Ensures.ite
          (fun _ => Ensures.bind (registers.mono fun fields after complete => ?_)) fun _ =>
          Ensures.throw _
        exact Ensures.pure (.of_complete complete rfl)
    | none =>
        refine Ensures.ite
          (fun _ => Ensures.ite (fun _ => ?constant) fun _ => Ensures.throw _) fun _ =>
          Ensures.ite (fun move => ?store) fun _ => Ensures.ite (fun _ => ?read) fun _ =>
            Ensures.ite (fun move => ?storeConstant) fun _ =>
              Ensures.ite (fun nothing => single nothing (by decide) rfl) fun _ =>
                Ensures.ite (fun sign => single sign (by decide) rfl) fun _ =>
                  Ensures.ite (fun _ => ?group) fun _ =>
                    Ensures.ite (fun _ => explains_secondTable start extension _ _ faithful)
                      fun _ => Ensures.throw _
        case constant =>
          refine Ensures.behind fun fields _ => Ensures.behind fun bits _ => ?_
          cases Arithmetic.ofExtension? fields.field with
          | some operation => exact Ensures.pure (.of_open rfl rfl)
          | none => exact Ensures.behind fun _ _ => Ensures.throw _
        case store =>
          refine Ensures.bind (operand.mono ?_)
          rintro fields after ⟨mode, complete⟩
          refine Ensures.ite
            (fun register => Ensures.pure (.of_complete (complete register) rfl)) fun memory =>
            Ensures.behind fun _ _ => Ensures.pure (.of_store rfl ?_ (mode ▸ memory))
          rw [move]
          decide
        case read =>
          refine Ensures.bind (operand.mono ?_)
          rintro fields after ⟨-, complete⟩
          exact Ensures.ite
            (fun register => Ensures.pure (.of_complete (complete register) rfl)) fun _ =>
            Ensures.behind fun _ _ => Ensures.pure (.of_open rfl rfl)
        case storeConstant =>
          refine Ensures.bind (operand.mono ?_)
          rintro fields after ⟨mode, -⟩
          refine Ensures.ite
            (fun _ => Ensures.behind fun _ _ => Ensures.pure (.of_open rfl rfl)) fun memory =>
            Ensures.behind fun _ _ => Ensures.behind fun _ _ =>
              Ensures.pure (.of_store rfl ?_ (mode ▸ memory))
          rw [move]
          decide
        case group =>
          refine Ensures.bind (operand.mono ?_)
          rintro fields after ⟨-, complete⟩
          exact Ensures.ite
            (fun register => Ensures.pure (.of_complete (complete register.1) rfl)) fun _ =>
            Ensures.throw _

/-- The extension byte is not zero, so behind it fetching goes on with the next byte. -/
theorem explains_operation (code : Code) (start : UInt64) :
    Ensures (Decoder.operation code) { position := start } fun operation after =>
      (operation.endsOpen = false -> after.IsComplete) ∧
        (operation.isStore = true -> code.movesToMemory start = true) := by
  have faithful : Fetching.IsFaithful code { position := start } := Or.inl ⟨rfl, rfl⟩
  -- Both ways of reaching the opcode end alike.
  have table (extension : Extension) {opcode : UInt8} {after : Fetching}
      (faithful : after.IsFaithful code)
      (found : opcode = code.byteAt (code.opcodePlace start))
      (read : opcode ≠ 0 -> after.IsComplete ∧ after.position = code.opcodePlace start + 1) :
      Ensures (firstTable code start extension opcode) after fun operation after =>
        (operation.endsOpen = false -> after.IsComplete) ∧
          (operation.isStore = true -> code.movesToMemory start = true) := by
    refine (explains_firstTable start extension opcode faithful fun other => (read other).1).mono ?_
    refine fun operation behind explains => ⟨explains.complete, fun store => ?_⟩
    rcases explains.store store with ⟨listed, mode⟩
    have other : opcode ≠ 0 := by
      rintro rfl
      exact absurd listed (by decide)
    rw [(read other).2] at mode
    rw [found] at listed
    exact decide_eq_true ⟨listed, mode⟩
  refine Ensures.position (Ensures.bind ((ensures_fetchByte faithful).mono ?_))
  rintro first after ⟨isFirst, faithful, read⟩
  refine Ensures.ite (fun extended => ?_) fun plain => ?_
  · have place : code.opcodePlace start = start + 1 := if_pos (isFirst ▸ extended)
    have other : first ≠ 0 := by
      rintro rfl
      exact absurd extended (by decide)
    have next : after.position = code.opcodePlace start := (read other).2.trans place.symm
    refine Ensures.bind ((ensures_fetchByte faithful).mono ?_)
    rintro opcode behind ⟨isOpcode, faithful, readOpcode⟩
    rw [next] at isOpcode readOpcode
    exact table ⟨first⟩ faithful isOpcode readOpcode
  · have place : code.opcodePlace start = start := if_neg (isFirst ▸ plain)
    exact table ⟨0⟩ faithful (by rw [place]; exact isFirst) (by rw [place]; exact read)

end Tables

end Decoder

/-! ## The next step -/

namespace Machine

variable {machine : Machine} {operation : Operation}

theorem upcoming?_eq_some :
    machine.upcoming? = some operation <->
      machine.halted = false ∧ machine.position.toNat < machine.codeEnd ∧
        machine.fetch.2.crashed = false ∧ machine.fetch = (.ok operation, machine.fetch.2) := by
  unfold upcoming?
  rcases fetched : machine.fetch with ⟨fault | found, place⟩ <;>
    simp [Except.toOption, not_or, and_assoc]

/-- A step performs the operation that was found, and it does nothing else if nothing of the
instruction can be missing. -/
theorem attemptStep_of_upcoming (upcoming : machine.upcoming? = some operation)
    (closed : operation.endsOpen = false) :
    machine.attemptStep = (machine.moved machine.fetch.2).perform machine.position operation := by
  rcases upcoming?_eq_some.mp upcoming with ⟨running, before, intact, fetched⟩
  have explained :=
    Decoder.explains_operation machine.code machine.position operation machine.fetch.2 fetched
  have complete : machine.fetch.2.IsComplete := explained.1 closed
  rw [attemptStep_of_fetch running before fetched intact, advance_of_complete complete.overrun]

end Machine

end LoxNative
