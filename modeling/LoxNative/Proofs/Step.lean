import Mathlib
import LoxNative.Machine.Execution
import LoxNative.Proofs.Decoding

namespace LoxNative
namespace Machine

/-!
# One step over an encoded operation

Where the bytes of an operation stand at the current position, a step fetches exactly these bytes
and performs the operation.  Everything that is proved about running code starts from this one fact,
and nothing behind it mentions bytes of instructions again.
-/

/-- What a machine fetches its instructions from. -/
def code (machine : Machine) : Code :=
  ⟨machine.memory, machine.codeEnd⟩

/-- A machine that has fetched an instruction of some length. -/
def fetched (machine : Machine) (length : Nat) : Machine :=
  { machine with
    position := machine.position + UInt64.ofNat length
    steps := machine.steps + 1 }

theorem encode_length_pos (operation : Operation) : 0 < operation.encode.length := by
  cases operation with
  | load register value =>
      rw [Operation.encode]
      split
      · exact Nat.succ_pos _
      · split
        · simp [Encoding.withRegister]
        · exact Nat.succ_pos _
  | arithmetic operation destination source => cases source <;> exact Nat.succ_pos _
  | _ => simp [Operation.encode, Encoding.withRegister, Encoding.onRegisters, Encoding.onMemory]

theorem attemptStep_of_encoded {machine : Machine} {operation : Operation}
    (expressible : operation.IsExpressible) (running : machine.halted = false)
    (holds : machine.code.Holds machine.position operation.encode) :
    machine.attemptStep =
      (machine.fetched operation.encode.length).perform machine.position operation := by
  have decoded := Decoder.decode_encode machine.code operation expressible
    { position := machine.position } holds
  have fetch : machine.fetch =
      (.ok operation,
        { position := machine.position + UInt64.ofNat operation.encode.length }) := decoded
  have inside : ¬ machine.codeEnd ≤ machine.position.toNat := by
    have below : machine.position.toNat + operation.encode.length ≤ machine.codeEnd := holds.below
    have nonempty := encode_length_pos operation
    omega
  rw [attemptStep, if_neg (by rw [running]; exact Bool.false_ne_true), if_neg inside, fetch]
  rfl

end Machine
end LoxNative
