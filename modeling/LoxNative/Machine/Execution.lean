import LoxNative.Machine.Decoding
import LoxNative.Machine.State

namespace LoxNative

/-!
# Execution

Performing one operation, executing one instruction, and running a program to its end.

There are no jumps, so every instruction that does not stop the machine moves it at least one byte
towards the end of the code.  The distance to that end therefore bounds the length of every run.
-/

namespace Machine

/-- The address that an operand denotes. -/
def effectiveAddress (machine : Machine) (address : Address) : UInt64 :=
  machine.register address.base + address.displacement.toInt64.toUInt64

/-- The word that the second operand of an arithmetic operation denotes. -/
def operandValue (machine : Machine) : Source -> UInt64
  | .register number => machine.register number
  | .constant bits => signExtended bits

/-- The machine with a word in a register, if there is one. -/
def keep (machine : Machine) (number : RegisterNumber) : Option UInt64 -> Machine
  | some value => machine.setRegister number value
  | none => machine

/-- Divide the double word in `rdx` and `rax`.  The quotient must fit one word. -/
def divide (machine : Machine) (start divisor : UInt64) : Attempt Unit :=
  let upper := machine.register 2
  let lower := machine.register 0
  if divisor = 0 ∨ divisor ≤ upper then
    .completed () (machine.raise (.divideError start))
  else
    match doubleQuotient? upper lower divisor with
    | some (quotient, remainder) =>
        .completed () ((machine.setRegister 0 quotient).setRegister 2 remainder)
    | none => .crashed machine

/-- The number that tells a program its file is not open, as a negative word. -/
def badFile : UInt64 := (-9 : Int64).toUInt64

/-- Perform the system call whose number is in `rax`: write to a file, or exit. -/
def systemCall (machine : Machine) : Attempt Unit :=
  let number := machine.register 0
  if number = 60 then
    .completed () { machine with exitStatus := machine.register 7, halted := true }
  else if number = 1 then
    let file := machine.register 7
    let buffer := machine.register 6
    let count := machine.register 2
    if machine.memory.size < buffer.toNat ∨ machine.memory.size - buffer.toNat < count.toNat then
      .completed () (machine.raise (.bufferOutOfBounds buffer count))
    else if file = 1 ∨ file = 2 then
      match slice? machine.memory buffer.toNat (buffer.toNat + count.toNat) with
      | some written =>
          .completed () { machine.setRegister 0 count with output := machine.output ++ written }
      | none => .crashed machine
    else
      .completed () (machine.setRegister 0 badFile)
  else
    .completed () (machine.raise (.unsupportedSystemCall number machine.position))

/-- Perform an operation whose instruction started at `start` and has been fetched. -/
def perform (machine : Machine) (start : UInt64) : Operation -> Attempt Unit
  | .push register => machine.push (machine.register register)
  | .pop register =>
      machine.pop.andThen fun found machine => .completed () (machine.keep register found)
  | .load register value => .completed () (machine.setRegister register value)
  | .move destination source =>
      .completed () (machine.setRegister destination (machine.register source))
  | .read destination address =>
      (machine.readQword (machine.effectiveAddress address)).andThen fun found machine =>
        .completed () (machine.keep destination found)
  | .write address source =>
      (machine.writeQword (machine.effectiveAddress address) (machine.register source)).andThen
        fun _ machine => .completed () machine
  | .writeConstant address bits =>
      (machine.writeQword (machine.effectiveAddress address) (signExtended bits)).andThen
        fun _ machine => .completed () machine
  | .arithmetic operation destination source =>
      let (result, flags) :=
        operation.apply (machine.register destination) (machine.operandValue source)
      let machine := { machine with flags }
      .completed ()
        (if operation.keepsResult then machine.setRegister destination result else machine)
  | .multiply destination source =>
      match signedProduct? (machine.register destination).toInt64
        (machine.register source).toInt64 with
      | some (product, lost) =>
          .completed () ({ machine with
            flags := { machine.flags with carry := lost, overflow := lost } }.setRegister
              destination product.toUInt64)
      | none => .crashed machine
  | .divide divisor => machine.divide start (machine.register divisor)
  | .zeroExtend destination source =>
      .completed () (machine.setRegister destination (machine.byte source).toUInt64)
  | .setByte condition destination =>
      .completed () (match machine.flags.holds? condition with
        | some holds => machine.setByte destination (if holds then 1 else 0)
        | none => (machine.raise (.unsupportedCondition condition)).setByte destination 0)
  | .extendSign =>
      .completed () (machine.setRegister 2 (if Flags.topBit (machine.register 0) then ~~~0 else 0))
  | .nothing => .completed () machine
  | .systemCall => machine.systemCall

/-- The operation at the current position, and how far fetching it got. -/
def fetch (machine : Machine) : Except Fault Operation × Fetching :=
  Decoder.operation ⟨machine.memory, machine.codeEnd⟩ { position := machine.position }

/-- The machine behind a fetched instruction.  An instruction that runs past the end of the code
stops the machine, though the instruction is still performed. -/
def advance (machine : Machine) (place : Fetching) : Machine :=
  let machine := { machine with position := place.position, steps := machine.steps + 1 }
  if place.overrun then machine.raise (.truncated place.position) else machine

/-- Execute one instruction, unless the machine has halted.  A crash while fetching leaves the
machine at the byte that memory does not have. -/
def attemptStep (machine : Machine) : Attempt Unit :=
  if machine.halted then
    .completed () machine
  else if machine.codeEnd ≤ machine.position.toNat then
    .completed () (machine.raise (.ranPastEnd machine.position))
  else
    let start := machine.position
    let (found, place) := machine.fetch
    if place.crashed then
      .crashed (machine.advance place)
    else
      match found with
      | .ok operation => (machine.advance place).perform start operation
      | .error fault => .completed () ((machine.advance place).raise fault)

/-- Execute at most a number of instructions, until the machine halts or crashes. -/
def attemptRun : Nat -> Machine -> Attempt Unit
  | 0, machine => .completed () machine
  | count + 1, machine =>
      if machine.halted then
        .completed () machine
      else
        machine.attemptStep.andThen fun _ machine => attemptRun count machine

/-- The machine that a step leaves, whether the step was completed or not. -/
def step (machine : Machine) : Machine :=
  machine.attemptStep.machine

/-- The machine that a number of steps leave, or fewer if it halts or crashes. -/
def runFor (count : Nat) (machine : Machine) : Machine :=
  (machine.attemptRun count).machine

/-- More steps than any run takes.  The code left to execute bounds the number of instructions, and
one further step finds that there is none left. -/
def limit (machine : Machine) : Nat :=
  machine.codeEnd - machine.position.toNat + 1

/-- The machine that a run leaves. -/
def run (machine : Machine) : Machine :=
  machine.runFor machine.limit

end Machine

end LoxNative
