import Mathlib
import LoxNative.Assembly
import LoxNative.Proofs.OperationChange
import LoxNative.Proofs.Step

namespace LoxNative

/-!
# What an instruction does to the operands it names

A line of assembly names an operation and operands.  This module says what the operation does to
these operands, in terms of the registers, bytes and quadwords that they name, and without
mentioning an encoding.  The main theorem says that the machine, stepping over the bytes that the
assembler wrote for a line, does exactly this.

Words are described here by ordinary arithmetic: a byte register is a digit of its register in base
256, and an address is a sum that wraps around.  The machine computes with masks and shifts, and the
theorems of the first section show that it computes the same.
-/

namespace AssemblyOperand

/-- The register that an operand is, or is a part of. -/
def registerOf? : AssemblyOperand -> Option RegisterNumber
  | .register (.qword number) | .register (.dword number) => some number
  | .register (.word number) | .register (.low number) => some number
  | .register (.high number) => some (number.castLE ByteRegister.high_le)
  | .immediate _ | .memory _ => none

end AssemblyOperand

namespace Machine

/-! ## Operands and their contents -/

/-- The address of a memory operand: its base plus its signed distance, modulo 2^64. -/
def addressOf? (machine : Machine) (place : MemoryOperand) : Option UInt64 :=
  match place.base with
  | .qword base => some (UInt64.ofInt ((machine.register base).toNat + place.offset.toInt))
  | _ => none

/-- The address of an operand that is a quadword not wholly inside memory. -/
def outside? (machine : Machine) : AssemblyOperand -> Option UInt64
  | .memory place =>
      (machine.addressOf? place).filter fun address => machine.memory.size < address.toNat + 8
  | _ => none

/-- The word that an operand denotes.  A byte register denotes one of the two lowest digits of its
register in base 256. -/
def contents? (machine : Machine) : AssemblyOperand -> Option UInt64
  | .register (.qword number) => some (machine.register number)
  | .register (.low number) => some (UInt64.ofNat ((machine.register number).toNat % 256))
  | .register (.high number) =>
      some (UInt64.ofNat
        ((machine.register (number.castLE ByteRegister.high_le)).toNat / 256 % 256))
  | .register _ => none
  | .immediate value => some value
  | .memory place =>
      (machine.addressOf? place).bind fun address =>
        if address.toNat + 8 ≤ machine.memory.size then
          some (quadword machine.memory address.toNat)
        else
          none

/-- The machine after an operand was given a value.  A byte register takes the value as its digit,
and the other digits of its register stay. -/
def assign? (machine : Machine) (value : UInt64) : AssemblyOperand -> Option Machine
  | .register (.qword number) => some (machine.setRegister number value)
  | .register (.low number) =>
      let before := (machine.register number).toNat
      some (machine.setRegister number (UInt64.ofNat (before - before % 256 + value.toNat % 256)))
  | .register (.high number) =>
      let before := (machine.register (number.castLE ByteRegister.high_le)).toNat
      some (machine.setRegister (number.castLE ByteRegister.high_le)
        (UInt64.ofNat (before - before / 256 % 256 * 256 + value.toNat % 256 * 256)))
  | .register _ => none
  | .immediate _ => none
  | .memory place =>
      (machine.addressOf? place).bind fun address =>
        if address.toNat + 8 ≤ machine.memory.size then
          some { machine with memory := withQuadword machine.memory address.toNat value }
        else
          none

/-- The machine after an attempt, unless it crashed. -/
def completed? {α : Type} : Attempt α -> Option Machine
  | .completed _ machine => some machine
  | .crashed _ => none

/-- What an operation does to the operands it is given, for an instruction that started at `start`
and has been fetched.  There is no result where the operation has no such form, or crashes. -/
def effect? (machine : Machine) (start : UInt64) : Verb -> List AssemblyOperand -> Option Machine
  | .plain .nothing, [] => some machine
  | .plain .extendSign, [] =>
      some (machine.setRegister 2
        (if 0x8000000000000000 ≤ (machine.register 0).toNat then 0xFFFFFFFFFFFFFFFF else 0))
  | .plain .systemCall, [] => completed? machine.systemCall
  | .push, [source] => do completed? (machine.push (<- machine.contents? source))
  | .pop, [.register destination] =>
      match machine.pop with
      | .completed (some value) machine => machine.assign? value (.register destination)
      | .completed none machine => some machine
      | .crashed _ => none
  | .arithmetic operation, [.register destination, source] => do
      let left <- machine.contents? (.register destination)
      let right <- machine.contents? source
      let machine := { machine with flags := (operation.apply left right).2 }
      if operation.keepsResult then
        machine.assign? (operation.apply left right).1 (.register destination)
      else
        some machine
  | .multiply, [.register destination, source] => do
      let left <- machine.contents? (.register destination)
      let right <- machine.contents? source
      let (product, lost) <- signedProduct? left.toInt64 right.toInt64
      let flags := { machine.flags with carry := lost, overflow := lost }
      { machine with flags }.assign? product.toUInt64 (.register destination)
  | .divide, [divisor] => do completed? (machine.divide start (<- machine.contents? divisor))
  | .zeroExtend, [.register destination, source] => do
      machine.assign? (<- machine.contents? source) (.register destination)
  | .setByte condition, [.register destination] => do
      let holds <- machine.flags.holds? condition
      machine.assign? (if holds then 1 else 0) (.register destination)
  | .move, [destination, source] =>
      match machine.outside? source, machine.outside? destination with
      | some address, _ => some (machine.raise (.readOutOfBounds address))
      | none, some address => some (machine.raise (.writeOutOfBounds address))
      | none, none => (machine.contents? source).bind (machine.assign? · destination)
  | _, _ => none

/-! ## Masks and shifts are ordinary arithmetic -/

theorem toNat_toUInt64 (number : Int64) :
    (number.toUInt64.toNat : Int) = number.toInt % 0x10000000000000000 := by
  change (number.toBitVec.toNat : Int) = number.toBitVec.toInt % _
  rw [BitVec.toInt_eq_toNat_cond]
  have bounded := number.toBitVec.isLt
  split <;> omega

theorem effectiveAddress_eq (machine : Machine) (address : Address) :
    machine.effectiveAddress address =
      UInt64.ofInt ((machine.register address.base).toNat + address.displacement.toInt) := by
  apply UInt64.toNat_inj.mp
  have wrapped := toNat_toUInt64 address.displacement.toInt64
  rw [Int32.toInt_toInt64] at wrapped
  rw [effectiveAddress, UInt64.ofInt, UInt64.toNat_ofNat', UInt64.toNat_add]
  omega

theorem topBit_eq (word : UInt64) :
    Flags.topBit word = decide (0x8000000000000000 ≤ word.toNat) := by
  have shifted : (word >>> 63).toNat = word.toNat / 0x8000000000000000 := by
    rw [UInt64.toNat_shiftRight, Nat.shiftRight_eq_div_pow]
    rfl
  have bounded := word.toNat_lt
  rw [Flags.topBit, Bool.eq_iff_iff, bne_iff_ne, decide_eq_true_iff, ne_eq, <- UInt64.toNat_inj,
    shifted]
  change ¬ _ = 0 <-> _
  omega

theorem toUInt8_toUInt64 (word : UInt64) :
    word.toUInt8.toUInt64 = UInt64.ofNat (word.toNat % 256) := by
  apply UInt64.toNat_inj.mp
  have small := Nat.mod_lt word.toNat (by decide : 0 < 256)
  rw [UInt8.toNat_toUInt64, UInt64.toNat_toUInt8, UInt64.toNat_ofNat']
  omega

theorem and_not_add_and (word mask : UInt64) : (word &&& ~~~mask) + (word &&& mask) = word := by
  apply UInt64.toBitVec_inj.mp
  have apart :
      (word.toBitVec &&& ~~~mask.toBitVec) &&& (word.toBitVec &&& mask.toBitVec) = 0#64 := by
    ext index
    grind
  change (word.toBitVec &&& ~~~mask.toBitVec) + (word.toBitVec &&& mask.toBitVec) = word.toBitVec
  rw [BitVec.add_eq_or_of_and_eq_zero _ _ apart]
  ext index
  grind

/-- Replacing the bits under a mask takes away what stood there and adds the new bits. -/
theorem and_not_or (word mask digit : UInt64) (inside : digit &&& ~~~mask = 0) :
    (word &&& ~~~mask) ||| digit = word - (word &&& mask) + digit := by
  have apart : (word &&& ~~~mask) &&& digit = 0 := by
    rw [UInt64.and_assoc, UInt64.and_comm (~~~mask), inside, UInt64.and_zero]
  have joined : (word &&& ~~~mask) + digit = (word &&& ~~~mask) ||| digit :=
    UInt64.toBitVec_inj.mp (BitVec.add_eq_or_of_and_eq_zero _ _ (UInt64.toBitVec_inj.mpr apart))
  have remaining : word - (word &&& mask) = word &&& ~~~mask := by
    nth_rewrite 1 [<- and_not_add_and word mask]
    exact UInt64.add_sub_cancel _ _
  rw [<- joined, remaining]

theorem toNat_and_low (word : UInt64) : (word &&& 0xFF).toNat = word.toNat % 256 := by
  rw [UInt64.toNat_and]
  exact Nat.and_two_pow_sub_one_eq_mod word.toNat 8

theorem toNat_and_high (word : UInt64) :
    (word &&& 0xFF00).toNat = word.toNat / 256 % 256 * 256 := by
  have digit := Nat.and_two_pow_sub_one_eq_mod (word.toNat >>> 8) 8
  rw [Nat.shiftRight_eq_div_pow] at digit
  calc
    (word &&& 0xFF00).toNat = word.toNat &&& (255 <<< 8) := UInt64.toNat_and word 0xFF00
    _ = (word.toNat / 2 ^ 8 &&& 2 ^ 8 - 1) <<< 8 := by
        apply Nat.eq_of_testBit_eq
        intro index
        simp only [Nat.testBit_and, Nat.testBit_shiftLeft, Nat.testBit_div_two_pow, ge_iff_le]
        by_cases high : 8 ≤ index <;> simp [high]
    _ = word.toNat / 256 % 256 * 256 := by rw [digit, Nat.shiftLeft_eq]

theorem and_not_or_low (word : UInt64) (holds : Bool) :
    (word &&& (~~~0xFF : UInt64)) ||| (if holds then 1 else 0 : UInt8).toUInt64 =
      UInt64.ofNat
        (word.toNat - word.toNat % 256 + (if holds then 1 else 0 : UInt64).toNat % 256) := by
  have small : (word &&& 0xFF) ≤ word := by
    rw [UInt64.le_iff_toNat_le, toNat_and_low]
    exact Nat.mod_le _ _
  rw [and_not_or word 0xFF _ (by cases holds <;> decide)]
  apply UInt64.toNat_inj.mp
  rw [UInt64.toNat_add, UInt64.toNat_sub_of_le _ _ small, toNat_and_low, UInt64.toNat_ofNat']
  cases holds <;> rfl

theorem and_not_or_high (word : UInt64) (holds : Bool) :
    (word &&& (~~~0xFF00 : UInt64)) ||| ((if holds then 1 else 0 : UInt8).toUInt64 <<< 8) =
      UInt64.ofNat (word.toNat - word.toNat / 256 % 256 * 256 +
        (if holds then 1 else 0 : UInt64).toNat % 256 * 256) := by
  have small : (word &&& 0xFF00) ≤ word := by
    rw [UInt64.le_iff_toNat_le, toNat_and_high]
    omega
  rw [and_not_or word 0xFF00 _ (by cases holds <;> decide)]
  apply UInt64.toNat_inj.mp
  rw [UInt64.toNat_add, UInt64.toNat_sub_of_le _ _ small, toNat_and_high, UInt64.toNat_ofNat']
  cases holds <;> rfl

end Machine

/-! ## What the selection of an operation accepts -/

theorem exists_of_bind_eq_ok {ε α β : Type} {action : Except ε α} {next : α -> Except ε β}
    {result : β} (succeeded : action >>= next = .ok result) :
    exists value, action = .ok value ∧ next value = .ok result := by
  cases action with
  | error fault => cases succeeded
  | ok value => exact ⟨value, rfl, succeeded⟩

theorem exists_of_map_eq_ok {ε α β : Type} {action : Except ε α} {function : α -> β} {result : β}
    (succeeded : action.map function = .ok result) :
    exists value, action = .ok value ∧ function value = result := by
  cases action with
  | error fault => cases succeeded
  | ok value => exact ⟨value, rfl, Except.ok.inj succeeded⟩

theorem eq_of_qwordRegister {mnemonic : String} {operand : AssemblyOperand}
    {number : RegisterNumber} (accepted : operand.qwordRegister mnemonic = .ok number) :
    operand = .register (.qword number) := by
  cases operand with
  | register which => cases which <;> cases accepted; rfl
  | immediate value => cases accepted
  | memory place => cases accepted

/-- The name of a byte register among all registers. -/
def ByteRegister.asRegister : ByteRegister -> Register
  | .low number => .low number
  | .high number => .high number

theorem eq_of_byteRegister {mnemonic : String} {operand : AssemblyOperand} {register : ByteRegister}
    (accepted : operand.byteRegister mnemonic = .ok register) :
    operand = .register register.asRegister := by
  cases operand with
  | register which => cases which <;> cases accepted <;> rfl
  | immediate value => cases accepted
  | memory place => cases accepted

theorem eq_of_signedConstant {value : UInt64} {bits : UInt32}
    (accepted : Operation.signedConstant value = .ok bits) : signExtended bits = value := by
  unfold Operation.signedConstant at accepted
  split at accepted
  · rename_i small
    cases accepted
    exact Decoder.signExtended_toUInt32 value small
  · cases accepted

/-- Whether a verb can stand for a mnemonic: there are three plain operations, and no test on
parity. -/
def Verb.isListed : Verb -> Bool
  | .plain operation => operation ∈ [.systemCall, .nothing, .extendSign]
  | .setByte condition => condition.val / 2 != 5
  | _ => true

theorem Verb.isListed_of_lookup {mnemonic : String} {verb : Verb}
    (found : Verb.all.lookup mnemonic = some verb) : verb.isListed = true := by
  have listed : forall entry, entry ∈ Verb.all -> entry.2.isListed = true := by decide
  rw [List.lookup_eq_some_iff] at found
  rcases found with ⟨before, after, split, -⟩
  exact listed (mnemonic, verb) (by rw [split]; simp)

namespace Machine

section Effect

variable {machine : Machine} {start : UInt64}

theorem addressOf?_of_quadwordAddress {place : MemoryOperand} {address : Address}
    (accepted : place.quadwordAddress = .ok address) :
    machine.addressOf? place = some (machine.effectiveAddress address) := by
  unfold MemoryOperand.quadwordAddress at accepted
  split at accepted
  · cases accepted
  · split at accepted
    · rename_i base named
      cases accepted
      rw [addressOf?, named, effectiveAddress_eq]
    · cases accepted

theorem assign?_byte (register : ByteRegister) (holds : Bool) :
    machine.assign? (if holds then 1 else 0) (.register register.asRegister) =
      some (machine.setByte register (if holds then 1 else 0)) := by
  cases register with
  | low number => rw [setByte, and_not_or_low]; rfl
  | high number => simp only [setByte, and_not_or_high]; rfl

section Place

variable {place : MemoryOperand} {address : UInt64}

theorem contents?_inside (found : machine.addressOf? place = some address)
    (inside : address.toNat + 8 ≤ machine.memory.size) :
    machine.contents? (.memory place) = some (quadword machine.memory address.toNat) := by
  rw [contents?, found, Option.bind_some, if_pos inside]

theorem outside?_eq_some (found : machine.addressOf? place = some address)
    (without : machine.memory.size < address.toNat + 8) :
    machine.outside? (.memory place) = some address := by
  rw [outside?, found, Option.filter_some, if_pos (decide_eq_true without)]

theorem outside?_eq_none_of_contents? {operand : AssemblyOperand} {value : UInt64}
    (known : machine.contents? operand = some value) : machine.outside? operand = none := by
  cases operand with
  | register which => rfl
  | immediate value => rfl
  | memory place =>
      rw [contents?, Option.bind_eq_some_iff] at known
      rcases known with ⟨address, found, read⟩
      split at read
      · rename_i inside
        rw [outside?, found, Option.filter_some, if_neg]
        rw [decide_eq_true_iff]
        exact Nat.not_lt.mpr inside
      · cases read

theorem effect_read (destination : RegisterNumber) (roomy : 8 ≤ machine.memory.size)
    (found : machine.addressOf? place = some address) :
    machine.effect? start .move [.register (.qword destination), .memory place] =
      completed? ((machine.readQword address).andThen fun found after =>
        .completed () (after.keep destination found)) := by
  by_cases inside : address.toNat + 8 ≤ machine.memory.size
  · have known := contents?_inside found inside
    simp only [effect?, outside?_eq_none_of_contents? known, known, readQword_inside inside]
    rfl
  · have without : machine.memory.size < address.toNat + 8 := by omega
    simp only [effect?, outside?_eq_some found without, readQword_outside roomy without]
    rfl

theorem effect_write {source : AssemblyOperand} {value : UInt64} (roomy : 8 ≤ machine.memory.size)
    (found : machine.addressOf? place = some address)
    (known : machine.contents? source = some value) :
    machine.effect? start .move [.memory place, source] =
      completed? ((machine.writeQword address value).andThen fun _ after =>
        .completed () after) := by
  have readable := outside?_eq_none_of_contents? known
  by_cases inside : address.toNat + 8 ≤ machine.memory.size
  · have writable := outside?_eq_none_of_contents? (contents?_inside found inside)
    simp only [effect?, readable, writable, known, Option.bind_some, assign?, found, if_pos inside,
      writeQword_inside inside]
    rfl
  · have without : machine.memory.size < address.toNat + 8 := by omega
    simp only [effect?, readable, outside?_eq_some found without, writeQword_outside roomy without]
    rfl

end Place

end Effect

end Machine

/-! ## What an instruction leaves alone -/

/-- The registers that an instruction may change. -/
def Verb.changes : Verb -> List AssemblyOperand -> List RegisterNumber
  | .plain .extendSign, _ => [2]
  | .plain .systemCall, _ => [0]
  | .push, _ => [stackPointer]
  | .pop, operands => stackPointer :: (operands.head?.bind AssemblyOperand.registerOf?).toList
  | .arithmetic .cmp, _ => []
  | .divide, _ => [0, 2]
  | .arithmetic _, operands | .setByte _, operands | .move, operands | .multiply, operands
  | .zeroExtend, operands => (operands.head?.bind AssemblyOperand.registerOf?).toList
  | .plain _, _ => []

/-- Whether an instruction sets flags. -/
def Verb.setsFlags : Verb -> Bool
  | .arithmetic _ | .multiply => true
  | _ => false

namespace Machine

/-- The place of the quadword that an instruction may write.  Among the instructions only pushes and
moves do. -/
def stores? (machine : Machine) : Verb -> List AssemblyOperand -> Option Nat
  | .push, _ => some ((machine.register stackPointer).toNat - 8)
  | .move, .memory place :: _ => (machine.addressOf? place).map UInt64.toNat
  | _, _ => none

/-- A machine differs from an earlier one only in what an instruction may change. -/
structure Confined (verb : Verb) (operands : List AssemblyOperand) (before after : Machine) :
    Prop where
  registers : forall number, number ∉ verb.changes operands ->
    after.register number = before.register number
  flags : verb.setsFlags = false -> after.flags = before.flags
  /-- A product has no say in the flags that tell of its value. -/
  productFlags : verb = .multiply ->
    after.flags.zero = before.flags.zero ∧ after.flags.sign = before.flags.sign
  memory : forall index, (forall place, before.stores? verb operands = some place ->
      index < place ∨ place + 8 ≤ index) -> after.memory[index]? = before.memory[index]?
  size : after.memory.size = before.memory.size
  codeEnd : after.codeEnd = before.codeEnd
  position : after.position = before.position
  steps : after.steps = before.steps
  output : verb ≠ .plain .systemCall ->
    after.output = before.output ∧ after.exitStatus = before.exitStatus
  /-- The machine goes on as before, or it exits, or it stops with a fault that is not about the
  encoding. -/
  outcome : (after.halted = before.halted ∧ after.fault = before.fault) ∨
    (after.halted = true ∧ after.fault = before.fault ∧ verb = .plain .systemCall) ∨
    exists fault, after.halted = true ∧ after.fault = some fault ∧ fault.refusesEncoding = false

theorem stores?_move {machine : Machine} {place : MemoryOperand} {address : Address}
    {source : AssemblyOperand} (accepted : place.quadwordAddress = .ok address) :
    machine.stores? .move [.memory place, source] =
      some (machine.effectiveAddress address).toNat := by
  rw [stores?, addressOf?_of_quadwordAddress accepted]
  rfl

end Machine

/-- An operation may change no more than a verb on some operands. -/
structure Operation.Obeys (operation : Operation) (verb : Verb) (operands : List AssemblyOperand) :
    Prop where
  changes : operation.changes = verb.changes operands
  setsFlags : operation.setsFlags = verb.setsFlags
  isProduct : verb = .multiply -> operation.isProduct = true
  stores : forall machine : Machine, machine.storePlace? operation = machine.stores? verb operands
  called : operation = .systemCall -> verb = .plain .systemCall
  tested : Machine.parityTarget? operation = none

/-- A permitted change of an operation stays within what its verb may change. -/
theorem Machine.Permits.confined {machine : Machine} {operation : Operation} {change : Change}
    {verb : Verb} {operands : List AssemblyOperand} (permitted : Permits machine operation change)
    (obeys : operation.Obeys verb operands) :
    Confined verb operands machine (change.apply machine) := by
  have unchanged : Confined verb operands machine machine :=
    { registers := fun _ _ => rfl
      flags := fun _ => rfl
      productFlags := fun _ => ⟨rfl, rfl⟩
      memory := fun _ _ => rfl
      size := rfl
      codeEnd := rfl
      position := rfl
      steps := rfl
      output := fun _ => ⟨rfl, rfl⟩
      outcome := Or.inl ⟨rfl, rfl⟩ }
  have registers {registers : Vector UInt64 16} (kept : machine.KeepsRegisters operation registers)
      (number : RegisterNumber) (unlisted : number ∉ verb.changes operands) :
      registers.get number = machine.register number :=
    kept number (by rw [obeys.changes]; exact unlisted)
  cases permitted with
  | compute kept flagged product =>
      exact { unchanged with
        registers := registers kept
        flags := fun denied => flagged (obeys.setsFlags.trans denied)
        productFlags := fun multiplies => product (obeys.isProduct multiplies) }
  | @store place value _ kept named inside above =>
      exact { unchanged with
        registers := registers kept
        memory := fun index outside => getElem?_withQuadword_outside machine.memory place value
          (outside place ((obeys.stores machine).symm.trans named))
        size := withQuadword_size machine.memory place value }
  | emit kept called =>
      exact { unchanged with
        registers := registers kept
        output := fun other => absurd (obeys.called called) other }
  | exit called =>
      exact { unchanged with
        output := fun other => absurd (obeys.called called) other
        outcome := Or.inr (Or.inl ⟨rfl, rfl, obeys.called called⟩) }
  | @stop fault proper other =>
      exact { unchanged with outcome := Or.inr (Or.inr ⟨fault, rfl, rfl, proper⟩) }
  | clear parity => exact absurd (obeys.tested.symm.trans parity) (Option.some_ne_none _).symm

/-! ## The selected operation has the effect that its name asks for -/

/-- An operation does what a verb asks for on some operands, on every machine whose memory holds a
quadword. -/
structure Operation.Performs (operation : Operation) (verb : Verb)
    (operands : List AssemblyOperand) :
    Prop extends operation.Obeys verb operands where
  expressible : operation.IsExpressible
  effect : forall (machine : Machine) (start : UInt64), 8 ≤ machine.memory.size ->
    machine.effect? start verb operands = Machine.completed? (machine.perform start operation)

namespace Operation.Performs

open Machine

variable {mnemonic : String} {operation : Operation} {destination source : AssemblyOperand}

theorem of_move (selected : Operation.ofMove mnemonic destination source = .ok operation) :
    operation.Performs .move [destination, source] := by
  unfold Operation.ofMove at selected
  split at selected
  · rcases exists_of_bind_eq_ok selected with ⟨target, isTarget, selected⟩
    rcases exists_of_bind_eq_ok selected with ⟨origin, isOrigin, selected⟩
    cases selected
    rw [eq_of_qwordRegister isTarget, eq_of_qwordRegister isOrigin]
    exact ⟨⟨rfl, rfl, nofun, fun _ => rfl, nofun, rfl⟩, trivial, fun machine start roomy => rfl⟩
  · rcases exists_of_bind_eq_ok selected with ⟨target, isTarget, selected⟩
    rw [eq_of_qwordRegister isTarget]
    split at selected
    · cases selected
      exact ⟨⟨rfl, rfl, nofun, fun _ => rfl, nofun, rfl⟩, trivial, fun machine start roomy => rfl⟩
    · cases selected
  · rcases exists_of_bind_eq_ok selected with ⟨target, isTarget, selected⟩
    rcases exists_of_bind_eq_ok selected with ⟨address, accepted, selected⟩
    cases selected
    rw [eq_of_qwordRegister isTarget]
    exact ⟨⟨rfl, rfl, nofun, fun _ => rfl, nofun, rfl⟩, trivial, fun machine start roomy =>
      effect_read target roomy (addressOf?_of_quadwordAddress accepted)⟩
  · rcases exists_of_bind_eq_ok selected with ⟨origin, isOrigin, selected⟩
    rcases exists_of_bind_eq_ok selected with ⟨address, accepted, selected⟩
    cases selected
    rw [eq_of_qwordRegister isOrigin]
    exact ⟨⟨rfl, rfl, nofun, fun _ => (stores?_move accepted).symm, nofun, rfl⟩, trivial,
      fun machine start roomy =>
      effect_write roomy (addressOf?_of_quadwordAddress accepted) rfl⟩
  · split at selected
    · rcases exists_of_bind_eq_ok selected with ⟨bits, constant, selected⟩
      rcases exists_of_bind_eq_ok selected with ⟨address, accepted, selected⟩
      cases selected
      refine ⟨⟨rfl, rfl, nofun, fun _ => (stores?_move accepted).symm, nofun, rfl⟩, trivial,
        fun machine start roomy => ?_⟩
      rw [effect_write roomy (addressOf?_of_quadwordAddress accepted) rfl, perform,
        eq_of_signedConstant constant]
    · cases selected
  · cases selected

theorem of_arithmetic {arithmetic : Arithmetic}
    (selected : Operation.ofArithmetic mnemonic arithmetic destination source = .ok operation) :
    operation.Performs (.arithmetic arithmetic) [destination, source] := by
  rcases exists_of_bind_eq_ok selected with ⟨target, isTarget, selected⟩
  rw [eq_of_qwordRegister isTarget]
  have changes (second : Source) (operand : AssemblyOperand) :
      (Operation.arithmetic arithmetic target second).changes =
        (Verb.arithmetic arithmetic).changes [.register (.qword target), operand] := by
    cases arithmetic <;> rfl
  split at selected
  · rcases exists_of_bind_eq_ok selected with ⟨origin, isOrigin, selected⟩
    cases selected
    rw [eq_of_qwordRegister isOrigin]
    refine ⟨⟨changes _ _, rfl, nofun, fun _ => rfl, nofun, rfl⟩, trivial,
      fun machine start roomy => ?_⟩
    cases arithmetic <;> rfl
  · rcases exists_of_bind_eq_ok selected with ⟨bits, constant, selected⟩
    cases selected
    rw [<- eq_of_signedConstant constant]
    refine ⟨⟨changes _ _, rfl, nofun, fun _ => rfl, nofun, rfl⟩, trivial,
      fun machine start roomy => ?_⟩
    cases arithmetic <;> rfl
  · cases selected

theorem of_zeroExtend
    (selected : Operation.ofZeroExtend mnemonic destination source = .ok operation) :
    operation.Performs .zeroExtend [destination, source] := by
  rcases exists_of_bind_eq_ok selected with ⟨target, isTarget, selected⟩
  rcases exists_of_bind_eq_ok selected with ⟨origin, isOrigin, selected⟩
  rw [eq_of_qwordRegister isTarget, eq_of_byteRegister isOrigin]
  cases origin with
  | low number =>
      cases selected
      refine ⟨⟨rfl, rfl, nofun, fun _ => rfl, nofun, rfl⟩, trivial, fun machine start roomy => ?_⟩
      rw [perform, byte, toUInt8_toUInt64]
      rfl
  | high number => cases selected

theorem of_setByte {condition : ConditionCode} {register : ByteRegister}
    (listed : (Verb.setByte condition).isListed = true) :
    (Operation.setByte condition register).Performs (.setByte condition)
      [.register register.asRegister] := by
  have other : forall condition, (Verb.setByte condition).isListed = true ->
      condition ∉ ([0xA, 0xB] : List ConditionCode) := by
    decide
  have changes : (Operation.setByte condition register).changes =
      (Verb.setByte condition).changes [.register register.asRegister] := by
    cases register <;> rfl
  refine ⟨⟨changes, rfl, nofun, fun _ => rfl, nofun, if_neg (other condition listed)⟩, trivial,
    fun machine start roomy => ?_⟩
  have tested : exists holds, machine.flags.holds? condition = some holds :=
    Option.ne_none_iff_exists'.mp (mt holds?_eq_none.mp (other condition listed))
  rcases tested with ⟨holds, tested⟩
  simp only [effect?, perform, tested]
  exact assign?_byte register holds

theorem of_pop (number : RegisterNumber) :
    (Operation.pop number).Performs .pop [.register (.qword number)] := by
  refine ⟨⟨rfl, rfl, nofun, fun _ => rfl, nofun, rfl⟩, trivial, fun machine start roomy => ?_⟩
  rcases popped : machine.pop with ⟨value | value, after⟩ | after
  · simp only [effect?, perform, popped]
    rfl
  · simp only [effect?, perform, popped]
    rfl
  · simp only [effect?, perform, popped]
    rfl

theorem of_multiply (destination source : RegisterNumber) :
    (Operation.multiply destination source).Performs .multiply
      [.register (.qword destination), .register (.qword source)] := by
  refine ⟨⟨rfl, rfl, fun _ => rfl, fun _ => rfl, nofun, rfl⟩, trivial,
    fun machine start roomy => ?_⟩
  rcases product : signedProduct? (machine.register destination).toInt64
    (machine.register source).toInt64 with _ | ⟨product, lost⟩
  · simp only [effect?, perform, contents?, Option.bind_eq_bind, Option.bind_some, product]
    rfl
  · simp only [effect?, perform, contents?, Option.bind_eq_bind, Option.bind_some, product]
    rfl

theorem of_plain (listed : (Verb.plain operation).isListed = true) :
    operation.Performs (.plain operation) [] := by
  have three : operation = .systemCall ∨ operation = .nothing ∨ operation = .extendSign := by
    simpa [Verb.isListed] using listed
  rcases three with same | same | same <;> subst same
  · exact ⟨⟨rfl, rfl, nofun, fun _ => rfl, fun _ => rfl, rfl⟩, trivial,
      fun machine start roomy => rfl⟩
  · exact ⟨⟨rfl, rfl, nofun, fun _ => rfl, nofun, rfl⟩, trivial, fun machine start roomy => rfl⟩
  · refine ⟨⟨rfl, rfl, nofun, fun _ => rfl, nofun, rfl⟩, trivial, fun machine start roomy => ?_⟩
    simp only [effect?, perform, topBit_eq, decide_eq_true_iff]
    rfl

theorem of_select {operands : List AssemblyOperand}
    (selected : Operation.select mnemonic operands = .ok operation) :
    exists verb, Verb.all.lookup mnemonic = some verb ∧ operation.Performs verb operands := by
  unfold Operation.select at selected
  split at selected
  · cases selected
  · rename_i verb found
    refine ⟨verb, found, ?_⟩
    have listed := Verb.isListed_of_lookup found
    split at selected
    · cases selected
      exact of_plain listed
    · cases selected
    · rcases exists_of_map_eq_ok selected with ⟨number, accepted, same⟩
      rw [eq_of_qwordRegister accepted, <- same]
      exact ⟨⟨rfl, rfl, nofun, fun _ => rfl, nofun, rfl⟩, trivial, fun machine start roomy => rfl⟩
    · cases selected
    · rcases exists_of_map_eq_ok selected with ⟨number, accepted, same⟩
      rw [eq_of_qwordRegister accepted, <- same]
      exact of_pop number
    · cases selected
    · exact of_arithmetic selected
    · cases selected
    · rcases exists_of_map_eq_ok selected with ⟨register, accepted, same⟩
      rw [eq_of_byteRegister accepted, <- same]
      exact of_setByte listed
    · cases selected
    · exact of_move selected
    · cases selected
    · rcases exists_of_bind_eq_ok selected with ⟨target, isTarget, selected⟩
      rcases exists_of_bind_eq_ok selected with ⟨origin, isOrigin, selected⟩
      cases selected
      rw [eq_of_qwordRegister isTarget, eq_of_qwordRegister isOrigin]
      exact of_multiply target origin
    · cases selected
    · rcases exists_of_map_eq_ok selected with ⟨number, accepted, same⟩
      rw [eq_of_qwordRegister accepted, <- same]
      exact ⟨⟨rfl, rfl, nofun, fun _ => rfl, nofun, rfl⟩, trivial, fun machine start roomy => rfl⟩
    · cases selected
    · exact of_zeroExtend selected
    · cases selected

end Operation.Performs

/-! ## The machine does what the line says -/

/-- Where the bytes of a line that the assembler accepts stand at the current position, one step
fetches exactly these bytes and does to the operands of the line what its mnemonic says.  Everything
else stays as it is, and the step never fails to recognize what the assembler wrote. -/
theorem Statement.step_of_encode (machine : Machine) (labels : LabelTable) (pass : Pass)
    (statement : Statement) (bytes : List UInt8)
    (accepted : statement.encode labels pass = .ok bytes) (running : machine.halted = false)
    (roomy : 8 ≤ machine.memory.size) (holds : machine.code.Holds machine.position bytes) :
    exists verb operands,
      Verb.all.lookup statement.mnemonic = some verb ∧
      statement.operands.mapM (AssemblyOperand.parse labels pass) = .ok operands ∧
      (machine.fetched bytes.length).effect? machine.position verb operands = some machine.step ∧
      machine.attemptStep = .completed () machine.step ∧
      (machine.fetched bytes.length).Confined verb operands machine.step ∧
      machine.step.position = machine.position + UInt64.ofNat bytes.length ∧
      machine.step.steps = machine.steps + 1 := by
  rcases exists_of_bind_eq_ok accepted with ⟨operands, parsed, accepted⟩
  rcases exists_of_bind_eq_ok accepted with ⟨operation, selected, encoded⟩
  obtain rfl : operation.encode = bytes := Except.ok.inj encoded
  rcases Operation.Performs.of_select selected with ⟨verb, found, performs⟩
  rcases Machine.exists_permitted
    (machine.fetched operation.encode.length) machine.position operation
    roomy with ⟨change, permitted, performed⟩
  have done := performs.effect (machine.fetched operation.encode.length) machine.position roomy
  have stepped :=
    (Machine.attemptStep_of_encoded performs.expressible running holds).trans performed
  have confined := permitted.confined performs.toObeys
  rw [performed] at done
  rw [Machine.step, stepped]
  exact ⟨verb, operands, found, parsed, done, rfl, confined, confined.position, confined.steps⟩

/-- A store through a base that takes an extension byte and cannot go without a distance. -/
theorem Statement.step_of_encode_store :
    let statement : Statement := ⟨"MOV", [Text.glyphs "[r13-8]", Text.glyphs "rax"]⟩
    let machine : Machine :=
      { Machine.initial with
        registers := #v[7, 0, 0, 0, 16, 0, 0, 0, 0, 0, 0, 0, 0, 16, 0, 0]
        memory := #[0x49, 0x89, 0x45, 0xF8, 0, 0, 0, 0, 0, 0, 0, 0, 0, 0, 0, 0]
        codeEnd := 4 }
    statement.encode [] .emitting = .ok [0x49, 0x89, 0x45, 0xF8] ∧
      exists verb operands,
        Verb.all.lookup statement.mnemonic = some verb ∧
        statement.operands.mapM (AssemblyOperand.parse [] .emitting) = .ok operands ∧
        (machine.fetched 4).effect? machine.position verb operands = some machine.step ∧
        machine.attemptStep = .completed () machine.step ∧
        (machine.fetched 4).Confined verb operands machine.step ∧
        machine.step.position = machine.position + UInt64.ofNat 4 ∧
        machine.step.steps = machine.steps + 1 := by
  intro statement machine
  have accepted : statement.encode [] .emitting = .ok [0x49, 0x89, 0x45, 0xF8] := by cbv
  refine ⟨accepted,
    Statement.step_of_encode machine [] .emitting statement _ accepted rfl (by decide) ?_⟩
  exact
    { below := by decide
      inside := by decide
      addressable := by decide
      listed := by decide }

end LoxNative
