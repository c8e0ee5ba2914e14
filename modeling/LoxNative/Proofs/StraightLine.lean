import Mathlib
import LoxNative.Proofs.OperationChange
import LoxNative.Proofs.Step

namespace LoxNative

/-!
# Running straight-line code

A program without jumps is a list of operations.  Running its code on the machine performs them one
behind the other, as long as no operation writes over the code.  A push never does, because the
stack stops in front of the code; a store to memory might, so operations that store are left out
here.

With this, nothing that is proved about a program mentions its bytes any more.
-/

/-- Whether an operation writes to memory only by pushing. -/
def Operation.keepsCode (operation : Operation) : Bool :=
  !operation.isStore

namespace Machine

/-- The machine after the operation at its position. -/
def next (machine : Machine) (operation : Operation) : Machine :=
  ((machine.fetched operation.encode.length).perform machine.position operation).machine

theorem next_of_perform {machine after : Machine} {operation : Operation}
    (performed : (machine.fetched operation.encode.length).perform machine.position operation =
      .completed () after) : machine.next operation = after :=
  congrArg Attempt.machine performed

/-- A product is kept modulo 2^64, and only the two flags that say so are set. -/
theorem next_multiply {machine : Machine} {destination source : RegisterNumber} {product : Int64}
    {lost : Bool}
    (multiplied : signedProduct? (machine.register destination).toInt64
      (machine.register source).toInt64 = some (product, lost)) :
    machine.next (.multiply destination source) =
      { machine.fetched (Operation.multiply destination source).encode.length with
        flags := { machine.flags with carry := lost, overflow := lost }
      }.setRegister destination product.toUInt64 := by
  have same : signedProduct?
      ((machine.fetched (Operation.multiply destination source).encode.length).register
        destination).toInt64
      ((machine.fetched (Operation.multiply destination source).encode.length).register
        source).toInt64 = some (product, lost) := multiplied
  apply next_of_perform
  rw [perform, same]
  rfl

/-- Perform operations one behind the other until the machine halts. -/
def follow : List Operation -> Machine -> Machine
  | [], machine => machine
  | operation :: rest, machine =>
      if machine.halted then machine else follow rest (machine.next operation)

theorem follow_of_halted {machine : Machine} (halted : machine.halted = true)
    (operations : List Operation) : follow operations machine = machine := by
  cases operations with
  | nil => rfl
  | cons operation rest => rw [follow, if_pos halted]

theorem follow_cons {machine : Machine} (running : machine.halted = false) (operation : Operation)
    (rest : List Operation) :
    follow (operation :: rest) machine = follow rest (machine.next operation) := by
  rw [follow, if_neg (by rw [running]; exact Bool.false_ne_true)]

theorem follow_append (first second : List Operation) (machine : Machine) :
    follow (first ++ second) machine = follow second (follow first machine) := by
  induction first generalizing machine with
  | nil => rfl
  | cons operation rest ih =>
      by_cases halted : machine.halted = true
      · rw [follow_of_halted halted, follow_of_halted halted, follow_of_halted halted]
      · have running := Bool.eq_false_of_not_eq_true halted
        rw [List.cons_append, follow_cons running, follow_cons running, ih]

/-! ## The code stays -/

/-- What two machines have in common when no code was changed between them. -/
structure SameCode (before after : Machine) : Prop where
  position : after.position = before.position
  codeEnd : after.codeEnd = before.codeEnd
  size : after.memory.size = before.memory.size
  listed : forall index, index < before.codeEnd -> after.memory[index]? = before.memory[index]?

theorem Permits.sameCode {machine : Machine} {operation : Operation} {change : Change}
    (permitted : Permits machine operation change) (keeps : operation.keepsCode = true) :
    SameCode machine (change.apply machine) where
  position := permitted.keeps.position
  codeEnd := permitted.keeps.codeEnd
  size := permitted.keeps.size
  listed := by
    intro index below
    rcases permitted.memory_cases with same | ⟨place, value, -, written, above⟩
    · rw [same]
    · rw [written]
      apply getElem?_withQuadword_outside
      exact Or.inl (Nat.lt_of_lt_of_le below (above (Bool.not_eq_true' _ ▸ keeps)))

/-- Code that was not changed still stands where it stood. -/
theorem holds_of_sameCode {before after : Machine} (same : SameCode before after)
    {position : UInt64}
    {bytes : List UInt8} (holds : before.code.Holds position bytes) :
    after.code.Holds position bytes where
  below := by
    change _ ≤ after.codeEnd
    rw [same.codeEnd]
    exact holds.below
  inside := by
    change after.codeEnd ≤ after.memory.size
    rw [same.codeEnd, same.size]
    exact holds.inside
  addressable := by
    change after.memory.size < _
    rw [same.size]
    exact holds.addressable
  listed := by
    intro index less
    have below : position.toNat + bytes.length ≤ before.codeEnd := holds.below
    exact (same.listed _ (by omega)).trans (holds.listed index less)

/-! ## The run of a program -/

theorem attemptRun_of_halted {machine : Machine} (halted : machine.halted = true) (count : Nat) :
    machine.attemptRun count = .completed () machine := by
  cases count with
  | zero => rfl
  | succ count => rw [attemptRun, if_pos halted]

theorem length_le_length_encode (operations : List Operation) :
    operations.length ≤ (operations.flatMap Operation.encode).length := by
  induction operations with
  | nil => exact Nat.le_refl _
  | cons operation rest ih =>
      have nonempty := encode_length_pos operation
      rw [List.flatMap_cons, List.length_append, List.length_cons]
      omega

/-- A step over an encoded operation goes on to the next one.  It does not crash, and it leaves the
code alone unless the operation stores. -/
theorem attemptStep_eq_next {machine : Machine} {operation : Operation}
    (expressible : operation.IsExpressible) (keeps : operation.keepsCode = true)
    (running : machine.halted = false) (roomy : 8 ≤ machine.memory.size)
    (holds : machine.code.Holds machine.position operation.encode) :
    machine.attemptStep = .completed () (machine.next operation) ∧
      SameCode (machine.fetched operation.encode.length) (machine.next operation) := by
  rcases exists_permitted (machine.fetched operation.encode.length) machine.position operation roomy
    with ⟨change, permitted, performed⟩
  rw [attemptStep_of_encoded expressible running holds, next, performed]
  exact ⟨rfl, permitted.sameCode keeps⟩

/-- Running the code of some operations performs them, provided that they stop the machine.  The
induction is on the operations; what carries it is that the code of the remaining ones still stands
behind the current position. -/
theorem attemptRun_eq_follow {operations : List Operation}
    (expressible : forall operation, operation ∈ operations -> operation.IsExpressible)
    (keeps : forall operation, operation ∈ operations -> operation.keepsCode = true)
    {machine : Machine} (roomy : 8 ≤ machine.memory.size)
    (holds : machine.code.Holds machine.position (operations.flatMap Operation.encode))
    (stops : (machine.follow operations).halted = true) {count : Nat}
    (enough : operations.length ≤ count) :
    machine.attemptRun count = .completed () (machine.follow operations) := by
  induction operations generalizing machine count with
  | nil => exact attemptRun_of_halted stops count
  | cons operation rest ih =>
      by_cases halted : machine.halted = true
      · rw [attemptRun_of_halted halted, follow_of_halted halted]
      · have running := Bool.eq_false_of_not_eq_true halted
        rw [List.flatMap_cons] at holds
        rcases attemptStep_eq_next (expressible operation List.mem_cons_self)
          (keeps operation List.mem_cons_self) running roomy holds.left with ⟨stepped, same⟩
        rw [follow_cons running] at stops ⊢
        rcases count with _ | count
        · exact absurd enough (Nat.not_succ_le_zero _)
        · rw [attemptRun, if_neg halted, stepped]
          refine ih (fun other member => expressible other (List.mem_cons_of_mem operation member))
            (fun other member => keeps other (List.mem_cons_of_mem operation member)) ?_ ?_ stops
            (Nat.le_of_succ_le_succ enough)
          · rw [same.size]
            exact roomy
          · rw [same.position]
            exact holds_of_sameCode same holds.right

theorem attemptRun_limit_eq_follow {operations : List Operation}
    (expressible : forall operation, operation ∈ operations -> operation.IsExpressible)
    (keeps : forall operation, operation ∈ operations -> operation.keepsCode = true)
    {machine : Machine} (roomy : 8 ≤ machine.memory.size)
    (holds : machine.code.Holds machine.position (operations.flatMap Operation.encode))
    (stops : (machine.follow operations).halted = true) :
    machine.attemptRun machine.limit = .completed () (machine.follow operations) := by
  apply attemptRun_eq_follow expressible keeps roomy holds stops
  have shorter := length_le_length_encode operations
  have below : _ ≤ machine.codeEnd := holds.below
  unfold limit
  omega

end Machine
end LoxNative
