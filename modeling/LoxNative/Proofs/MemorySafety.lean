import Mathlib
import LoxNative.Proofs.StepOutcome

namespace LoxNative
namespace Machine

/-!
# A machine never leaves its memory

Whoever holds a machine may load programs, let it run, read and write quadwords, and set registers,
flags and the position to any words whatever, in any order.  Two kinds of statement are proved about
every such history.  Some things are kept by all of it: the size of memory, code that ends inside
memory, a fault only on a machine that has halted, and everything written so far.  And no action
crashes, after any history.

A crash is what comes of an access that the tests let through though memory does not have the bytes,
of a division without a divisor, and of one whose quotient does not fit.  So the tests of the
machine are strong enough, for every address, stack pointer, buffer and length of 64 bits.
-/

/-- A machine in order.  Memory has room for a quadword and only addresses of 64 bits, code ends
inside it, and a machine with a fault has halted. -/
structure IsSound (machine : Machine) : Prop where
  roomy : 8 ≤ machine.memory.size
  addressable : machine.memory.size < 0x10000000000000000
  inside : machine.codeEnd ≤ machine.memory.size
  stopped : machine.fault.isSome = true -> machine.halted = true

theorem IsSound.isFit {machine : Machine} (sound : machine.IsSound) : machine.IsFit :=
  ⟨⟨sound.inside, Nat.lt_of_le_of_lt sound.inside sound.addressable⟩, sound.roomy⟩

/-! ## Steps and runs -/

/-- What holds between a machine and the machine that it becomes by running. -/
structure Continues (before after : Machine) : Prop where
  size : after.memory.size = before.memory.size
  codeEnd : after.codeEnd = before.codeEnd
  position : before.position.toNat ≤ after.position.toNat
  output : exists written, after.output = before.output ++ written
  stopped : (before.fault.isSome = true -> before.halted = true) ->
    after.fault.isSome = true -> after.halted = true

theorem Keeps.continues {before after : Machine} (keeps : Keeps before after) :
    Continues before after :=
  { keeps with
    position := by rw [keeps.position]
    stopped := by
      intro stopped faulty
      rcases keeps.fault with same | halted
      · rw [same] at faulty
        exact keeps.halted (stopped faulty)
      · exact halted }

namespace Continues

variable {before middle after : Machine}

theorem trans (first : Continues before middle) (second : Continues middle after) :
    Continues before after where
  size := second.size.trans first.size
  codeEnd := second.codeEnd.trans first.codeEnd
  position := Nat.le_trans first.position second.position
  output := output_trans first.output second.output
  stopped inOrder := second.stopped (first.stopped inOrder)

theorem isSound (continues : Continues before after) (sound : before.IsSound) : after.IsSound where
  roomy := by
    rw [continues.size]
    exact sound.roomy
  addressable := by
    rw [continues.size]
    exact sound.addressable
  inside := by
    rw [continues.codeEnd, continues.size]
    exact sound.inside
  stopped := continues.stopped sound.stopped

end Continues

theorem continues_step {machine : Machine} (sound : machine.IsSound) :
    Continues machine machine.step := by
  rcases keeps_step sound.roomy with ⟨kept, -⟩ | ⟨kept, -⟩
  · exact kept.continues
  · have forward := (fetch_advances sound.isFit.inside).forward
    have moved : Continues machine (machine.moved machine.fetch.2) :=
      { (Keeps.refl machine).continues with position := forward }
    exact moved.trans kept.continues

theorem continues_runFor {machine : Machine} (sound : machine.IsSound) (count : Nat) :
    Continues machine (machine.runFor count) := by
  apply runFor_preserves _ count (Keeps.refl machine).continues
  intro reached continues
  exact continues.trans (continues_step (continues.isSound sound))

/-! ## Actions -/

/-- What can be done with a machine from outside. -/
inductive Action
  | load (code : List UInt8) (entry : UInt32)
  | step
  | run
  | runFor (count : Nat)
  | read (address : UInt64)
  | write (address value : UInt64)
  | setRegister (number : RegisterNumber) (value : UInt64)
  | setPosition (position : UInt64)
  | setFlags (flags : Flags)

/-- What comes of an action.  A program that cannot be loaded changes nothing. -/
def attempt (machine : Machine) : Action -> Attempt Unit
  | .load code entry =>
      .completed () (match machine.load code entry with
        | .ok loaded => loaded
        | .error _ => machine)
  | .step => machine.attemptStep
  | .run => machine.attemptRun machine.limit
  | .runFor count => machine.attemptRun count
  | .read address => (machine.readQword address).andThen fun _ after => .completed () after
  | .write address value =>
      (machine.writeQword address value).andThen fun _ after => .completed () after
  | .setRegister number value => .completed () (machine.setRegister number value)
  | .setPosition position => .completed () { machine with position }
  | .setFlags flags => .completed () { machine with flags }

/-- The machine that an action leaves. -/
def act (machine : Machine) (action : Action) : Machine :=
  (machine.attempt action).machine

/-- The machine after actions one behind the other. -/
def after (machine : Machine) (actions : List Action) : Machine :=
  actions.foldl act machine

/-- What is kept by every action, and so by every history. -/
structure Persists (before after : Machine) : Prop where
  size : after.memory.size = before.memory.size
  output : exists written, after.output = before.output ++ written

theorem Persists.trans {before middle after : Machine} (first : Persists before middle)
    (second : Persists middle after) : Persists before after where
  size := second.size.trans first.size
  output := output_trans first.output second.output

theorem Continues.persists {before after : Machine} (continues : Continues before after) :
    Persists before after :=
  { continues with }

section Actions

variable {machine : Machine}

theorem load_eq_ok {code : List UInt8} {entry : UInt32} (fits : code.length ≤ machine.memory.size)
    (begins : entry.toNat < code.length) :
    exists loaded, machine.load code entry = .ok loaded ∧ loaded.codeEnd = code.length ∧
      loaded.memory = writeBytes machine.memory 0 code ∧ loaded.fault = none ∧
      loaded.output = machine.output := by
  rw [load, if_neg (Nat.not_lt.mpr fits), if_neg (Nat.not_le.mpr begins)]
  exact ⟨_, rfl, rfl, rfl, rfl, rfl⟩

theorem load_eq_error {code : List UInt8} {entry : UInt32}
    (refused : ¬ (code.length ≤ machine.memory.size ∧ entry.toNat < code.length)) :
    exists error, machine.load code entry = .error error := by
  rw [load]
  split
  · exact ⟨_, rfl⟩
  · split
    · exact ⟨_, rfl⟩
    · omega

/-- What comes of an action on a machine in order. -/
structure ActsSafely (machine : Machine) (action : Action) : Prop where
  completed : machine.attempt action = .completed () (machine.act action)
  sound : (machine.act action).IsSound
  persists : Persists machine (machine.act action)
  /-- Only loading a program moves the end of the code. -/
  codeEnd : (machine.act action).codeEnd = machine.codeEnd ∨
    exists code entry loaded, action = .load code entry ∧ machine.load code entry = .ok loaded ∧
      (machine.act action).codeEnd = code.length

theorem ActsSafely.of_continues {action : Action} {after : Machine} (sound : machine.IsSound)
    (done : machine.attempt action = .completed () after) (continues : Continues machine after) :
    machine.ActsSafely action := by
  have left : machine.act action = after := by
    rw [act, done]
    rfl
  rw [<- left] at done continues
  exact ⟨done, continues.isSound sound, continues.persists, Or.inl continues.codeEnd⟩

theorem actsSafely_load (sound : machine.IsSound) (code : List UInt8) (entry : UInt32) :
    machine.ActsSafely (.load code entry) := by
  by_cases accepted : code.length ≤ machine.memory.size ∧ entry.toNat < code.length
  · rcases load_eq_ok accepted.1 accepted.2 with ⟨loaded, result, codeEnd, memory, fault, output⟩
    have left : machine.act (.load code entry) = loaded := by
      rw [act, attempt, result]
      rfl
    have size : loaded.memory.size = machine.memory.size := by rw [memory, writeBytes_size]
    refine ⟨rfl, ?_, ?_, Or.inr ⟨code, entry, loaded, rfl, result, ?_⟩⟩
    · rw [left]
      refine ⟨?_, ?_, ?_, ?_⟩
      · rw [size]
        exact sound.roomy
      · rw [size]
        exact sound.addressable
      · rw [codeEnd, size]
        exact accepted.1
      · rw [fault]
        exact fun faulty => absurd faulty Bool.false_ne_true
    · rw [left]
      exact ⟨size, #[], by rw [output, Array.append_empty]⟩
    · rw [left, codeEnd]
  · rcases load_eq_error accepted with ⟨error, result⟩
    have done : machine.attempt (.load code entry) = .completed () machine := by
      rw [attempt, result]
    exact ActsSafely.of_continues sound done (Keeps.refl machine).continues

theorem actsSafely_read (sound : machine.IsSound) (address : UInt64) :
    machine.ActsSafely (.read address) := by
  by_cases inside : address.toNat + 8 ≤ machine.memory.size
  · have done : machine.attempt (.read address) = .completed () machine := by
      rw [attempt, readQword_inside inside]
      rfl
    exact ActsSafely.of_continues sound done (Keeps.refl machine).continues
  · have done : machine.attempt (.read address) =
        .completed () (machine.raise (.readOutOfBounds address)) := by
      rw [attempt, readQword_outside sound.roomy (Nat.lt_of_not_le inside)]
      rfl
    exact ActsSafely.of_continues sound done ((Keeps.refl machine).raise _).continues

theorem actsSafely_write (sound : machine.IsSound) (address value : UInt64) :
    machine.ActsSafely (.write address value) := by
  by_cases inside : address.toNat + 8 ≤ machine.memory.size
  · have done : machine.attempt (.write address value) = .completed ()
        { machine with memory := withQuadword machine.memory address.toNat value } := by
      rw [attempt, writeQword_inside inside]
      rfl
    apply ActsSafely.of_continues sound done
    exact { (Keeps.refl machine).continues with size := withQuadword_size _ _ _ }
  · have done : machine.attempt (.write address value) =
        .completed () (machine.raise (.writeOutOfBounds address)) := by
      rw [attempt, writeQword_outside sound.roomy (Nat.lt_of_not_le inside)]
      rfl
    exact ActsSafely.of_continues sound done ((Keeps.refl machine).raise _).continues

theorem actsSafely (sound : machine.IsSound) (action : Action) : machine.ActsSafely action := by
  have kept := (Keeps.refl machine).continues
  cases action with
  | load code entry => exact actsSafely_load sound code entry
  | step => exact .of_continues sound sound.isFit.attemptStep_eq (continues_step sound)
  | run => exact .of_continues sound (sound.isFit.attemptRun_eq _) (continues_runFor sound _)
  | runFor count =>
      exact .of_continues sound (sound.isFit.attemptRun_eq count) (continues_runFor sound count)
  | read address => exact actsSafely_read sound address
  | write address value => exact actsSafely_write sound address value
  | setRegister number value => exact .of_continues sound rfl { kept with }
  | setPosition position =>
      exact ⟨rfl, { sound with }, { kept.persists with }, Or.inl rfl⟩
  | setFlags flags => exact .of_continues sound rfl { kept with }

theorem isSound_after (sound : machine.IsSound) (actions : List Action) :
    (machine.after actions).IsSound ∧ Persists machine (machine.after actions) := by
  induction actions generalizing machine with
  | nil => exact ⟨sound, (Keeps.refl machine).continues.persists⟩
  | cons action rest ih =>
      have first := actsSafely sound action
      have second := ih first.sound
      exact ⟨second.1, first.persists.trans second.2⟩

end Actions

/-! ## Divisions -/

/-- Dividing stops the machine exactly when there is no quotient of 64 bits, and finds the quotient
and the remainder otherwise. -/
theorem divide_cases (machine : Machine) (start divisor : UInt64) :
    ((divisor.toNat = 0 ∨ 0x10000000000000000 ≤ machine.dividend / divisor.toNat) ∧
        machine.divide start divisor = .completed () (machine.raise (.divideError start))) ∨
      (divisor.toNat ≠ 0 ∧ machine.dividend / divisor.toNat < 0x10000000000000000 ∧
        exists divided, machine.divide start divisor = .completed () divided ∧
          (divided.register 0).toNat = machine.dividend / divisor.toNat ∧
          (divided.register 2).toNat = machine.dividend % divisor.toNat) := by
  have tested := noQuotient_iff (machine.register 2) (machine.register 0) divisor
  by_cases undefined : divisor = 0 ∨ divisor ≤ machine.register 2
  · exact Or.inl ⟨tested.mp undefined, if_pos undefined⟩
  · rcases not_or.mp (mt tested.mpr undefined) with ⟨nonzero, small⟩
    have fits : machine.dividend / divisor.toNat < 0x10000000000000000 := Nat.lt_of_not_le small
    have rest : machine.dividend % divisor.toNat < 0x10000000000000000 :=
      Nat.lt_trans (Nat.mod_lt _ (Nat.pos_of_ne_zero nonzero)) divisor.toNat_lt
    refine Or.inr ⟨nonzero, fits, _, divide_tested undefined, ?_, ?_⟩
    · rw [register_setRegister_of_ne _ (by decide), register_setRegister_same,
        UInt64.toNat_ofNat_of_lt' fits]
    · rw [register_setRegister_same, UInt64.toNat_ofNat_of_lt' rest]

/-- The exact quotient by which a product of two signed words is tested. -/
def productQuotient (left right : Int64) : Int :=
  (left * right).toInt.tdiv left.toInt

/-- The division by which a product is tested is exact, except where the quotient is 2^63. -/
theorem toInt_quotient {left right : Int64} (ordinary : ¬ (left = -1 ∧ right = Int64.minValue)) :
    (left * right / left).toInt = productQuotient left right := by
  by_cases one : left = -1
  · apply Int64.toInt_div_of_ne_left
    intro least
    rw [one, <- Int64.neg_eq_neg_one_mul] at least
    have back : - -right = -Int64.minValue := by rw [least]
    rw [Int64.neg_neg] at back
    exact ordinary ⟨one, back.trans (by decide)⟩
  · exact Int64.toInt_div_of_ne_right _ _ one

/-- The test of a product in exact numbers: a product has lost something exactly if it is divided,
and the quotient is not the second factor. -/
theorem signedProduct?_eq (left right : Int64) :
    signedProduct? left right =
      some (left * right, decide (left ≠ 0 ∧ productQuotient left right ≠ right.toInt)) := by
  by_cases extreme : left = -1 ∧ right = Int64.minValue
  · rcases extreme with ⟨rfl, rfl⟩
    decide
  · have apart : (left == -1 && right == Int64.minValue) = false := by
      rw [Bool.eq_false_iff, ne_eq, Bool.and_eq_true, beq_iff_eq, beq_iff_eq]
      exact extreme
    unfold signedProduct? signedQuotient?
    by_cases zero : left = 0
    · rw [if_pos zero]
      simp [zero]
    · rw [if_neg zero, if_neg zero, Option.map_some, apart, Bool.or_false,
        <- toInt_quotient extreme]
      simp only [ne_eq, Int64.toInt_inj, zero, not_false_eq_true, true_and, bne, decide_not,
        Bool.beq_eq_decide_eq]

theorem natAbs_productQuotient_le (left right : Int64) :
    (productQuotient left right).natAbs ≤ 0x8000000000000000 := by
  have least := (left * right).le_toInt
  have less := (left * right).toInt_lt
  rw [productQuotient, Int.natAbs_tdiv]
  calc
    (left * right).toInt.natAbs / left.toInt.natAbs ≤ (left * right).toInt.natAbs :=
      Nat.div_le_self _ _
    _ ≤ 0x8000000000000000 := by omega

/-- The quotient by which a product is tested fits a signed word, but for one pair of factors. -/
theorem productQuotient_lt_iff (left right : Int64) :
    productQuotient left right < 0x8000000000000000 <->
      ¬ (left = -1 ∧ right = Int64.minValue) := by
  constructor
  · rintro less ⟨rfl, rfl⟩
    exact absurd less (by decide)
  · intro ordinary
    rw [<- toInt_quotient ordinary]
    exact Int64.toInt_lt _

/-! ## The invariant -/

/-- A machine that has not been used yet is in order, whatever its memory holds. -/
theorem isSound_fresh (memory : Array UInt8) (roomy : 8 ≤ memory.size)
    (addressable : memory.size < 0x10000000000000000) : { initial with memory }.IsSound :=
  ⟨roomy, addressable, Nat.zero_le _, fun faulty => absurd faulty Bool.false_ne_true⟩

/-- After any history, a machine is in order, its memory has the size that it had, and what was
written is still there.  Whatever action comes next does not crash, leaves the machine in order, and
moves the end of the code only by loading a program.  A step never goes back.

A division of a double word is made exactly if there are a divisor and a quotient of 64 bits, and
stops the machine otherwise.  A product is divided only by a factor that is not zero.  The exact
quotient of that division has 64 bits: it is a signed word, but for minus one times the least word,
where it is 2^63. -/
theorem acts_within_memory {machine : Machine} (sound : machine.IsSound) (history : List Action) :
    let reached := machine.after history
    reached.IsSound ∧ Persists machine reached ∧
      reached.position.toNat ≤ reached.step.position.toNat ∧
      (forall action, reached.attempt action = .completed () (reached.act action) ∧
        (reached.act action).IsSound ∧
        ((reached.act action).codeEnd = reached.codeEnd ∨
          exists code entry loaded, action = .load code entry ∧
            reached.load code entry = .ok loaded ∧ (reached.act action).codeEnd = code.length)) ∧
      (forall start divisor,
        ((divisor.toNat = 0 ∨ 0x10000000000000000 ≤ reached.dividend / divisor.toNat) ∧
            reached.divide start divisor = .completed () (reached.raise (.divideError start))) ∨
          (divisor.toNat ≠ 0 ∧ reached.dividend / divisor.toNat < 0x10000000000000000 ∧
            exists divided, reached.divide start divisor = .completed () divided ∧
              (divided.register 0).toNat = reached.dividend / divisor.toNat ∧
              (divided.register 2).toNat = reached.dividend % divisor.toNat)) ∧
      (forall left right : Int64,
        signedProduct? left right =
            some (left * right, decide (left ≠ 0 ∧ productQuotient left right ≠ right.toInt)) ∧
          -0x8000000000000000 ≤ productQuotient left right ∧
          (productQuotient left right < 0x8000000000000000 <->
            ¬ (left = -1 ∧ right = Int64.minValue)) ∧
          productQuotient left right ≤ 0x8000000000000000) := by
  intro reached
  rcases isSound_after sound history with ⟨reachedSound, persists⟩
  refine ⟨reachedSound, persists, (continues_step reachedSound).position, ?acting, ?dividing,
    ?multiplying⟩
  case acting =>
    intro action
    have safely := actsSafely reachedSound action
    exact ⟨safely.completed, safely.sound, safely.codeEnd⟩
  case dividing =>
    intro start divisor
    exact divide_cases reached start divisor
  case multiplying =>
    intro left right
    have bound := natAbs_productQuotient_le left right
    exact ⟨signedProduct?_eq left right, by omega, productQuotient_lt_iff left right, by omega⟩

/-- Popping with a stack pointer four below 2^64, and then writing from a buffer that ends past
2^64: the sums wrap around, but both are refused. -/
theorem acts_within_memory_wrapped :
    let machine := { initial with memory := Array.replicate 16 0 }
    let popping := machine.after
      [.load [0x58, 0x0F, 0x05] 0, .setRegister stackPointer 0xFFFFFFFFFFFFFFFC]
    let writing := machine.after
      [.load [0x58, 0x0F, 0x05] 0, .setPosition 1, .setRegister 0 1, .setRegister 7 1,
        .setRegister 6 0xFFFFFFFFFFFFFFFC, .setRegister 2 8]
    machine.IsSound ∧
      popping.attemptStep = .completed () popping.step ∧
      popping.step.fault = some (.readOutOfBounds 0xFFFFFFFFFFFFFFFC) ∧
      writing.attemptStep = .completed () writing.step ∧
      writing.step.fault = some (.bufferOutOfBounds 0xFFFFFFFFFFFFFFFC 8) := by
  intro machine popping writing
  have sound := isSound_fresh (Array.replicate 16 0) (by decide) (by decide)
  have pops := acts_within_memory sound
    [.load [0x58, 0x0F, 0x05] 0, .setRegister stackPointer 0xFFFFFFFFFFFFFFFC]
  have writes := acts_within_memory sound
    [.load [0x58, 0x0F, 0x05] 0, .setPosition 1, .setRegister 0 1, .setRegister 7 1,
      .setRegister 6 0xFFFFFFFFFFFFFFFC, .setRegister 2 8]
  exact ⟨sound, (pops.2.2.2.1 .step).1, by decide +kernel, (writes.2.2.2.1 .step).1,
    by decide +kernel⟩

end Machine
end LoxNative
