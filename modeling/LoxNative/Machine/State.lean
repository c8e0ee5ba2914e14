import LoxNative.LittleEndian
import LoxNative.Machine.Fault
import LoxNative.Machine.Flags

namespace LoxNative

/-!
# The state of a machine

Sixteen registers, four flags and one flat memory.  Code is loaded at address zero and the stack
grows down from the top.

A quadword of memory is reachable when all its eight bytes are inside.  The greatest reachable
address is computed modulo 2^64, so a memory of fewer than eight bytes reaches almost every address.
An access that is let through, but asks for bytes that memory does not have, breaks off whatever the
machine was doing.  This is a crash.  It is no fault: the machine does not halt, records nothing and
stays as it stands.
-/

/-- The number of the stack pointer. -/
def stackPointer : RegisterNumber := 4

/-- The state of a machine. -/
structure Machine where
  registers : Vector UInt64 16
  /-- The address of the next instruction. -/
  position : UInt64
  flags : Flags
  memory : Array UInt8
  /-- One past the last byte of the loaded code. -/
  codeEnd : Nat
  halted : Bool
  /-- Why the machine halted, when it was not by exiting. -/
  fault : Option Fault
  /-- The value with which the program exited. -/
  exitStatus : UInt64
  /-- The number of instructions executed so far. -/
  steps : UInt64
  /-- Everything written so far. -/
  output : Array UInt8

/-- What a machine was made to do is done, with a result, or it crashed.  Either way a machine is
left. -/
inductive Attempt (α : Type)
  | completed (result : α) (machine : Machine)
  | crashed (machine : Machine)

namespace Attempt

/-- The machine that an attempt leaves. -/
def machine {α : Type} : Attempt α -> Machine
  | completed _ machine | crashed machine => machine

/-- Whether an attempt crashed. -/
def isCrashed {α : Type} : Attempt α -> Bool
  | completed _ _ => false
  | crashed _ => true

/-- Go on with the result of an attempt, unless it crashed. -/
def andThen {α β : Type} (attempt : Attempt α) (next : α -> Machine -> Attempt β) : Attempt β :=
  match attempt with
  | completed result machine => next result machine
  | crashed machine => crashed machine

end Attempt

/-- Why a program cannot be loaded. -/
inductive LoadError
  | tooLarge (length size : Nat)
  | entryOutside (entry : UInt32) (length : Nat)
deriving DecidableEq, Inhabited

namespace LoadError

/-- The wording of an error. -/
def message : LoadError -> String
  | tooLarge length size => s!"program too large for memory: {length} bytes > {size} bytes"
  | entryOutside entry length =>
      s!"entry point 0x{Text.hexCapitals entry.toNat} outside program of {length} bytes"

end LoadError

namespace Machine

/-- The size of memory unless another is chosen. -/
def defaultSize : Nat := 65536

/-- A machine without a program. -/
def initial : Machine where
  registers :=
    (Vector.replicate 16 0).set stackPointer (UInt64.ofNat defaultSize) stackPointer.bound
  position := 0
  flags := {}
  memory := Array.replicate defaultSize 0
  codeEnd := 0
  halted := false
  fault := none
  exitStatus := 0
  steps := 0
  output := #[]

/-- The contents of a register. -/
def register (machine : Machine) (number : RegisterNumber) : UInt64 :=
  machine.registers.get number

/-- Change the contents of a register. -/
def setRegister (machine : Machine) (number : RegisterNumber) (value : UInt64) : Machine :=
  { machine with registers := machine.registers.set number value number.bound }

/-- Stop with a fault.  A later fault replaces an earlier one. -/
def raise (machine : Machine) (fault : Fault) : Machine :=
  { machine with fault := some fault, halted := true }

/-- The low byte of the exit status, which is all that another process sees. -/
def exitCode (machine : Machine) : Nat :=
  machine.exitStatus.toNat % 256

/-- The contents of a byte register. -/
def byte (machine : Machine) : ByteRegister -> UInt8
  | .low number => (machine.register number).toUInt8
  | .high number => (machine.register (number.castLE (by decide)) >>> 8).toUInt8

/-- Change the contents of a byte register, and nothing else of the register around it. -/
def setByte (machine : Machine) (target : ByteRegister) (value : UInt8) : Machine :=
  match target with
  | .low number =>
      machine.setRegister number
        ((machine.register number &&& (~~~0xFF : UInt64)) ||| value.toUInt64)
  | .high number =>
      let number : RegisterNumber := number.castLE (by decide)
      machine.setRegister number
        ((machine.register number &&& (~~~0xFF00 : UInt64)) ||| (value.toUInt64 <<< 8))

/-- Memory with bytes written from a place on.  Bytes that fall outside are dropped. -/
def writeBytes (memory : Array UInt8) (place : Nat) : List UInt8 -> Array UInt8
  | [] => memory
  | byte :: rest => writeBytes (memory.setIfInBounds place byte) (place + 1) rest

/-- The bytes of memory from a place on. -/
def readBytes (memory : Array UInt8) (place count : Nat) : List UInt8 :=
  (memory.extract place (place + count)).toList

/-- The bytes of memory between two places, if the places are in order and memory goes that far. -/
def slice? (memory : Array UInt8) (first last : Nat) : Option (Array UInt8) :=
  if first ≤ last ∧ last ≤ memory.size then some (memory.extract first last) else none

/-- The greatest address at which a quadword is let through, computed modulo 2^64. -/
def reach (size : Nat) : Nat :=
  if 8 ≤ size then size - 8 else 0x10000000000000000 + size - 8

/-- Read a quadword of memory.  Without one the address was out of reach, and the machine has
stopped. -/
def readQword (machine : Machine) (address : UInt64) : Attempt (Option UInt64) :=
  if reach machine.memory.size < address.toNat then
    .completed none (machine.raise (.readOutOfBounds address))
  else
    match slice? machine.memory address.toNat (address.toNat + 8) with
    | some bytes => .completed (some (UInt64.ofNat (LittleEndian.value bytes.toList))) machine
    | none => .crashed machine

/-- Write a quadword of memory, and tell whether its address was within reach. -/
def writeQword (machine : Machine) (address value : UInt64) : Attempt Bool :=
  if reach machine.memory.size < address.toNat then
    .completed false (machine.raise (.writeOutOfBounds address))
  else if address.toNat + 8 ≤ machine.memory.size then
    .completed true { machine with
      memory := writeBytes machine.memory address.toNat (LittleEndian.qword value) }
  else
    .crashed machine

/-- Push a word.  The stack never grows into the code. -/
def push (machine : Machine) (value : UInt64) : Attempt Unit :=
  let top := machine.register stackPointer
  if top.toNat < machine.codeEnd + 8 then
    .completed () (machine.raise (.stackOverflow machine.position))
  else
    (machine.writeQword (top - 8) value).andThen fun stored machine =>
      .completed () (if stored then machine.setRegister stackPointer (top - 8) else machine)

/-- Pop a word. -/
def pop (machine : Machine) : Attempt (Option UInt64) :=
  let top := machine.register stackPointer
  if machine.memory.size < (top + 8).toNat then
    .completed none (machine.raise (.stackUnderflow machine.position))
  else
    (machine.readQword top).andThen fun found machine =>
      .completed found
        (if found.isSome then machine.setRegister stackPointer (top + 8) else machine)

/-- Load code at address zero and get ready to run it from its entry point.  Registers other than
the stack pointer, the flags and the rest of memory stay as they are. -/
def load (machine : Machine) (code : List UInt8) (entry : UInt32) : Except LoadError Machine :=
  if machine.memory.size < code.length then
    .error (.tooLarge code.length machine.memory.size)
  else if code.length ≤ entry.toNat then
    .error (.entryOutside entry code.length)
  else
    .ok { machine with
      memory := writeBytes machine.memory 0 code
      codeEnd := code.length
      position := entry.toUInt64
      registers :=
        machine.registers.set stackPointer (UInt64.ofNat machine.memory.size) stackPointer.bound
      halted := false
      fault := none }

end Machine

end LoxNative
