import Mathlib
import LoxNative.Proofs.InstructionEffect

namespace LoxNative

/-!
# What the flags say about numbers

The machine computes on words that wrap around, and finds the carry and the overflow by comparing
words and by looking at their topmost bits.  Here these tricks are compared with numbers that do not
end.  A word is read in two ways, without a sign and with one, and an operation on words is the same
operation on numbers, of which the word keeps what it can.  The carry tells that the number without
signs did not fit, and the overflow that the number with signs did not.

The tests on the flags after a comparison are then the order relations between the two numbers, in
either reading.
-/

/-- Whether a number has a word when words are read with a sign. -/
def fitsSigned (number : Int) : Bool :=
  -0x8000000000000000 ≤ number && number < 0x8000000000000000

/-- Whether a number has a word when words are read without a sign. -/
def fitsUnsigned (number : Int) : Bool :=
  0 ≤ number && number < 0x10000000000000000

namespace Arithmetic

/-- The operation on numbers that do not end.  Exclusive or is about bits and not about numbers. -/
def onNumbers? : Arithmetic -> Option (Int -> Int -> Int)
  | add => some fun left right => left + right
  | sub | cmp => some fun left right => left - right
  | xor => none

/-- What an operation on two words should leave: its result, and the flags that belong to it. -/
structure Leaves (operation : Arithmetic) (left right result : UInt64) (flags : Flags) : Prop where
  zero : flags.zero = true <-> result = 0
  sign : flags.sign = true <-> 0x8000000000000000 ≤ result.toNat
  wrapped : forall compute, operation.onNumbers? = some compute ->
    (result.toNat : Int) = compute left.toNat right.toNat % 0x10000000000000000
  carry : forall compute, operation.onNumbers? = some compute ->
    flags.carry = !fitsUnsigned (compute left.toNat right.toNat)
  overflow : forall compute, operation.onNumbers? = some compute ->
    flags.overflow = !fitsSigned (compute left.toInt64.toInt right.toInt64.toInt)
  bits : operation.onNumbers? = none -> flags.carry = false ∧ flags.overflow = false ∧
    forall index, result.toBitVec.getLsbD index =
      (left.toBitVec.getLsbD index ^^ right.toBitVec.getLsbD index)

end Arithmetic

/-- The relation between two words that a test decides after they were compared.  Two tests, those
on parity, decide none. -/
def comparison? (code : ConditionCode) (left right : UInt64) : Option Bool :=
  match code.val with
  | 0x0 => some (!fitsSigned (left.toInt64.toInt - right.toInt64.toInt))
  | 0x1 => some (fitsSigned (left.toInt64.toInt - right.toInt64.toInt))
  | 0x2 => some (left.toNat < right.toNat)
  | 0x3 => some (right.toNat ≤ left.toNat)
  | 0x4 => some (left = right)
  | 0x5 => some (left ≠ right)
  | 0x6 => some (left.toNat ≤ right.toNat)
  | 0x7 => some (right.toNat < left.toNat)
  | 0x8 => some ((left - right).toInt64.toInt < 0)
  | 0x9 => some (0 ≤ (left - right).toInt64.toInt)
  | 0xC => some (left.toInt64.toInt < right.toInt64.toInt)
  | 0xD => some (right.toInt64.toInt ≤ left.toInt64.toInt)
  | 0xE => some (left.toInt64.toInt ≤ right.toInt64.toInt)
  | 0xF => some (right.toInt64.toInt < left.toInt64.toInt)
  | _ => none

/-! ## Signs -/

namespace Flags

theorem topBit_eq_msb (word : UInt64) : topBit word = word.toBitVec.msb := by
  rw [Machine.topBit_eq, BitVec.msb_eq_decide]
  rfl

/-- After a subtraction the sign and the overflow differ exactly if the first number is the smaller
one. -/
theorem sign_ne_overflow (left right : UInt64) :
    (topBit (left - right) != topBit ((left ^^^ right) &&& (left ^^^ (left - right)))) =
      decide (left.toInt64 < right.toInt64) := by
  have signed : left.toInt64 < right.toInt64 <-> left.toBitVec.toInt < right.toBitVec.toInt :=
    Int64.lt_iff_toInt_lt
  have difference := UInt64.toNat_sub left right
  have boundLeft := left.toNat_lt
  have boundRight := right.toNat_lt
  rw [BitVec.toInt_eq_msb_cond, BitVec.toInt_eq_msb_cond] at signed
  rw [Bool.eq_iff_iff, decide_eq_true_iff, signed]
  simp only [topBit_eq_msb, UInt64.toBitVec_and, UInt64.toBitVec_xor, BitVec.msb_and,
    BitVec.msb_xor]
  simp only [<- topBit_eq_msb, Machine.topBit_eq, UInt64.toNat_toBitVec]
  by_cases negativeLeft : 0x8000000000000000 ≤ left.toNat <;>
    by_cases negativeRight : 0x8000000000000000 ≤ right.toNat <;>
      by_cases negative : 0x8000000000000000 ≤ (left - right).toNat <;>
        simp [negativeLeft, negativeRight, negative] <;> omega

theorem zero_of_difference (left right : UInt64) : (left - right == 0) = decide (left = right) := by
  rw [Bool.eq_iff_iff, beq_iff_eq, decide_eq_true_iff]
  exact sub_eq_zero

theorem toInt_toInt64 (word : UInt64) :
    word.toInt64.toInt =
      if 0x8000000000000000 ≤ word.toNat then (word.toNat : Int) - 0x10000000000000000
        else word.toNat := by
  change word.toBitVec.toInt = _
  rw [BitVec.toInt_eq_msb_cond, <- topBit_eq_msb, Machine.topBit_eq]
  simp only [decide_eq_true_iff, UInt64.toNat_toBitVec]
  rfl

theorem toInt_toInt64_lt_zero (word : UInt64) :
    word.toInt64.toInt < 0 <-> 0x8000000000000000 ≤ word.toNat := by
  have bounded := word.toNat_lt
  rw [toInt_toInt64]
  split <;> omega

/-- A sum overflows exactly if its sign differs from that of both numbers. -/
theorem overflow_of_sum (left right : UInt64) :
    topBit (~~~(left ^^^ right) &&& (left ^^^ (left + right))) =
      !fitsSigned (left.toInt64.toInt + right.toInt64.toInt) := by
  have sum := UInt64.toNat_add left right
  have boundLeft := left.toNat_lt
  have boundRight := right.toNat_lt
  simp only [topBit_eq_msb, UInt64.toBitVec_and, UInt64.toBitVec_xor, UInt64.toBitVec_not,
    BitVec.msb_and, BitVec.msb_xor, BitVec.msb_not]
  simp only [<- topBit_eq_msb, Machine.topBit_eq, toInt_toInt64, fitsSigned]
  generalize (left + right).toNat = total at sum
  by_cases negativeLeft : 0x8000000000000000 ≤ left.toNat <;>
    by_cases negativeRight : 0x8000000000000000 ≤ right.toNat <;>
      by_cases negative : 0x8000000000000000 ≤ total <;>
        simp [negativeLeft, negativeRight, negative] <;> omega

/-- A difference overflows exactly if the numbers differ in sign and the difference has the sign of
the second. -/
theorem overflow_of_difference (left right : UInt64) :
    topBit ((left ^^^ right) &&& (left ^^^ (left - right))) =
      !fitsSigned (left.toInt64.toInt - right.toInt64.toInt) := by
  have difference := UInt64.toNat_sub left right
  have boundLeft := left.toNat_lt
  have boundRight := right.toNat_lt
  simp only [topBit_eq_msb, UInt64.toBitVec_and, UInt64.toBitVec_xor, BitVec.msb_and,
    BitVec.msb_xor]
  simp only [<- topBit_eq_msb, Machine.topBit_eq, toInt_toInt64, fitsSigned]
  by_cases negativeLeft : 0x8000000000000000 ≤ left.toNat <;>
    by_cases negativeRight : 0x8000000000000000 ≤ right.toNat <;>
      by_cases negative : 0x8000000000000000 ≤ (left - right).toNat <;>
        simp [negativeLeft, negativeRight, negative] <;> omega

/-! ## Results and their flags -/

theorem carry_of_sum (left right : UInt64) :
    decide (left + right < left) = !fitsUnsigned (left.toNat + right.toNat) := by
  have sum := UInt64.toNat_add left right
  have boundLeft := left.toNat_lt
  have boundRight := right.toNat_lt
  rw [Bool.eq_iff_iff, decide_eq_true_iff, UInt64.lt_iff_toNat_lt]
  simp only [fitsUnsigned, Bool.not_eq_true', Bool.and_eq_false_iff, decide_eq_false_iff_not]
  omega

theorem borrow_of_difference (left right : UInt64) :
    decide (left < right) = !fitsUnsigned (left.toNat - right.toNat) := by
  have boundLeft := left.toNat_lt
  rw [Bool.eq_iff_iff, decide_eq_true_iff, UInt64.lt_iff_toNat_lt]
  simp only [fitsUnsigned, Bool.not_eq_true', Bool.and_eq_false_iff, decide_eq_false_iff_not]
  omega

theorem zero_ofResult (result : UInt64) (carry overflow : Bool) :
    (ofResult result carry overflow).zero = true <-> result = 0 :=
  beq_iff_eq

theorem sign_ofResult (result : UInt64) (carry overflow : Bool) :
    (ofResult result carry overflow).sign = true <-> 0x8000000000000000 ≤ result.toNat := by
  rw [ofResult, Machine.topBit_eq, decide_eq_true_iff]

end Flags

namespace Arithmetic

open Flags

theorem leaves_add (left right : UInt64) :
    add.Leaves left right (apply .add left right).1 (apply .add left right).2 where
  zero := zero_ofResult _ _ _
  sign := sign_ofResult _ _ _
  wrapped compute same := by
    cases same
    have sum : (left + right).toNat = (left.toNat + right.toNat) % 0x10000000000000000 :=
      UInt64.toNat_add left right
    simp only [apply]
    omega
  carry compute same := by
    cases same
    exact carry_of_sum left right
  overflow compute same := by
    cases same
    exact overflow_of_sum left right
  bits absent := nomatch absent

/-- A comparison is a subtraction as far as its result and the flags go. -/
theorem leaves_difference {operation : Arithmetic} (left right : UInt64)
    (difference : operation.onNumbers? = some fun left right => left - right)
    (applied : operation.apply left right = apply .sub left right) :
    operation.Leaves left right (operation.apply left right).1 (operation.apply left right).2 where
  zero := by
    rw [applied]
    exact zero_ofResult _ _ _
  sign := by
    rw [applied]
    exact sign_ofResult _ _ _
  wrapped compute same := by
    cases difference.symm.trans same
    have wrapped := UInt64.toNat_sub left right
    have boundRight := right.toNat_lt
    rw [applied]
    simp only [apply]
    omega
  carry compute same := by
    cases difference.symm.trans same
    rw [applied]
    exact borrow_of_difference left right
  overflow compute same := by
    cases difference.symm.trans same
    rw [applied]
    exact overflow_of_difference left right
  bits absent := nomatch difference.symm.trans absent

theorem leaves_xor (left right : UInt64) :
    xor.Leaves left right (apply .xor left right).1 (apply .xor left right).2 where
  zero := zero_ofResult _ _ _
  sign := sign_ofResult _ _ _
  wrapped compute same := nomatch same
  carry compute same := nomatch same
  overflow compute same := nomatch same
  bits _ := ⟨rfl, rfl, fun index => by rw [apply, UInt64.toBitVec_xor, BitVec.getLsbD_xor]⟩

theorem leaves_apply (operation : Arithmetic) (left right : UInt64) :
    operation.Leaves left right (operation.apply left right).1 (operation.apply left right).2 := by
  cases operation with
  | add => exact leaves_add left right
  | sub => exact leaves_difference left right rfl rfl
  | cmp => exact leaves_difference left right rfl rfl
  | xor => exact leaves_xor left right

end Arithmetic

/-! ## Tests after a comparison -/

namespace Flags

theorem eq_iff_toInt_eq (left right : UInt64) :
    left = right <-> left.toInt64.toInt = right.toInt64.toInt := by
  have boundLeft := left.toNat_lt
  have boundRight := right.toNat_lt
  rw [<- UInt64.toNat_inj, toInt_toInt64, toInt_toInt64]
  split <;> split <;> omega

/-- The flags of a comparison, each as a relation between the numbers. -/
theorem flags_of_cmp (left right : UInt64) :
    (Arithmetic.apply .cmp left right).2 =
      ⟨decide (left = right), decide ((left - right).toInt64.toInt < 0),
        decide (left.toNat < right.toNat),
        !fitsSigned (left.toInt64.toInt - right.toInt64.toInt)⟩ := by
  have sign : topBit (left - right) = decide ((left - right).toInt64.toInt < 0) := by
    rw [Machine.topBit_eq, decide_eq_decide, toInt_toInt64_lt_zero]
  have carry : decide (left < right) = decide (left.toNat < right.toNat) := by
    rw [decide_eq_decide, UInt64.lt_iff_toNat_lt]
  simp only [Arithmetic.apply, ofResult, zero_of_difference, sign, carry, overflow_of_difference]

/-- After a comparison every test decides its relation between the two words. -/
theorem holds?_of_cmp (code : ConditionCode) (left right : UInt64) :
    (Arithmetic.apply .cmp left right).2.holds? code = comparison? code left right := by
  have less : (decide ((left - right).toInt64.toInt < 0) !=
      !fitsSigned (left.toInt64.toInt - right.toInt64.toInt)) =
        decide (left.toInt64.toInt < right.toInt64.toInt) := by
    have found := sign_ne_overflow left right
    rw [overflow_of_difference, Machine.topBit_eq] at found
    simp only [Int64.lt_iff_toInt_lt, <- toInt_toInt64_lt_zero] at found
    exact found
  have lessOrEqual : (decide (left = right) || decide (left.toInt64.toInt < right.toInt64.toInt)) =
      decide (left.toInt64.toInt ≤ right.toInt64.toInt) := by
    rw [<- Bool.decide_or, decide_eq_decide, eq_iff_toInt_eq]
    omega
  have below : (decide (left.toNat < right.toNat) || decide (left = right)) =
      decide (left.toNat ≤ right.toNat) := by
    rw [<- Bool.decide_or, decide_eq_decide, <- UInt64.toNat_inj]
    omega
  have negated {relation : Prop} [Decidable relation] {other : Prop} [Decidable other]
      (opposite : ¬ relation <-> other) : (!decide relation) = decide other := by
    rw [<- decide_not, decide_eq_decide, opposite]
  rw [flags_of_cmp]
  -- An odd code negates the test in front of it, so the relations come in pairs.
  match code with
  | 0 | 2 | 4 | 8 | 10 | 11 => exact rfl
  | 1 => exact congrArg some (Bool.not_not _)
  | 3 => exact congrArg some (negated Nat.not_lt)
  | 5 => exact congrArg some (negated Iff.rfl)
  | 6 => exact congrArg some below
  | 7 => exact congrArg some ((congrArg not below).trans (negated Nat.not_le))
  | 9 => exact congrArg some (negated Int.not_lt)
  | 12 => exact congrArg some less
  | 13 => exact congrArg some ((congrArg not less).trans (negated Int.not_lt))
  | 14 => exact congrArg some ((congrArg (decide (left = right) || ·) less).trans lessOrEqual)
  | 15 =>
      refine congrArg some (Eq.trans (congrArg not ?_) (negated Int.not_le))
      exact (congrArg (decide (left = right) || ·) less).trans lessOrEqual
  | ⟨more + 16, bound⟩ => omega

end Flags

namespace Machine

variable {machine : Machine}

/-- The word that the second operand of an operation stands for: the contents of a register, or a
constant of 32 bits with its sign. -/
def Denotes (machine : Machine) : Source -> UInt64 -> Prop
  | .register number, word => word = machine.register number
  | .constant bits, word => word.toInt64.toInt = bits.toInt32.toInt

theorem denotes_operandValue (source : Source) :
    machine.Denotes source (machine.operandValue source) := by
  cases source with
  | register number => rfl
  | constant bits =>
      change (signExtended bits).toInt64.toInt = bits.toInt32.toInt
      rw [signExtended, Int64.toInt64_toUInt64, Int32.toInt_toInt64]

theorem toUInt8_withLowByte (word : UInt64) (byte : UInt8) :
    ((word &&& (~~~0xFF : UInt64)) ||| byte.toUInt64).toUInt8 = byte := by
  have cleared : (~~~0xFF : UInt64).toUInt8 = 0 := by decide
  rw [UInt64.toUInt8_or, UInt64.toUInt8_and, cleared, UInt8.and_zero, UInt8.zero_or,
    UInt8.toUInt8_toUInt64]

/-- A byte that was set by a test is read back. -/
theorem byte_setByte (target : ByteRegister) (holds : Bool) :
    (machine.setByte target (if holds then 1 else 0)).byte target = if holds then 1 else 0 := by
  cases target with
  | low number => rw [setByte, byte, register_setRegister_same, toUInt8_withLowByte]
  | high number =>
      have bounded := (machine.register (number.castLE ByteRegister.high_le)).toNat_lt
      simp only [setByte, byte, register_setRegister_same, and_not_or_high]
      apply UInt8.toNat_inj.mp
      rw [UInt64.toNat_toUInt8, UInt64.toNat_shiftRight, Nat.shiftRight_eq_div_pow,
        UInt64.toNat_ofNat']
      cases holds <;> simp <;> omega

theorem perform_arithmetic (start : UInt64) (operation : Arithmetic) (destination : RegisterNumber)
    (source : Source) :
    machine.perform start (.arithmetic operation destination source) =
      .completed ()
        { (if operation = .cmp then machine
            else machine.setRegister destination
              (operation.apply (machine.register destination) (machine.operandValue source)).1) with
          flags :=
            (operation.apply (machine.register destination) (machine.operandValue source)).2 } := by
  cases operation <;> rfl

/-- An operation on a register and a second operand does on words what it does on numbers, and the
flags say what was lost.  Only a comparison leaves the register as it was.  After a comparison every
test on the flags, those on parity apart, decides its relation between the two words, and a byte
that is set by the test tells the answer. -/
theorem compare_and_set_is_exact (machine : Machine) (start : UInt64) (destination : RegisterNumber)
    (source : Source) :
    exists right compared, machine.Denotes source right ∧
      machine.perform start (.arithmetic .cmp destination source) = .completed () compared ∧
      (forall operation, exists result flags,
        operation.Leaves (machine.register destination) right result flags ∧
        machine.perform start (.arithmetic operation destination source) =
          .completed ()
            { (if operation = .cmp then machine else machine.setRegister destination result) with
              flags }) ∧
      (forall code,
        compared.flags.holds? code = comparison? code (machine.register destination) right) ∧
      (forall code holds later target,
        comparison? code (machine.register destination) right = some holds ->
          exists set, compared.perform later (.setByte code target) = .completed () set ∧
            set.byte target = (if holds then 1 else 0) ∧ set.fault = machine.fault) := by
  have tests (code : ConditionCode) :
      (Arithmetic.apply .cmp (machine.register destination) (machine.operandValue source)).2.holds?
        code = comparison? code (machine.register destination) (machine.operandValue source) :=
    Flags.holds?_of_cmp code _ _
  refine ⟨machine.operandValue source, _, denotes_operandValue source,
    perform_arithmetic start .cmp destination source, ?_, tests, ?_⟩
  · intro operation
    exact ⟨_, _, operation.leaves_apply _ _, perform_arithmetic start operation destination source⟩
  · intro code holds later target decided
    refine ⟨_, rfl, ?_⟩
    have tested := (tests code).trans decided
    simp only [tested]
    exact ⟨byte_setByte target holds, by cases target <;> rfl⟩

/-- The least signed word is less than one with signs and greater without, and their difference
overflows. -/
theorem compare_and_set_is_exact_least :
    let machine := Machine.initial.setRegister 0 0x8000000000000000
    comparison? 0x0 0x8000000000000000 1 = some true ∧
      comparison? 0x2 0x8000000000000000 1 = some false ∧
      comparison? 0xC 0x8000000000000000 1 = some true ∧
      exists compared first second third,
        machine.perform 0 (.arithmetic .cmp 0 (.constant 1)) = .completed () compared ∧
        compared.perform 0 (.setByte 0x0 (.low 1)) = .completed () first ∧ first.byte (.low 1) = 1 ∧
        compared.perform 0 (.setByte 0x2 (.high 2)) = .completed () second ∧
        second.byte (.high 2) = 0 ∧
        compared.perform 0 (.setByte 0xC (.low 0)) = .completed () third ∧
        third.byte (.low 0) = 1 := by
  intro machine
  have overflows : comparison? 0x0 0x8000000000000000 1 = some true := by decide
  have carries : comparison? 0x2 0x8000000000000000 1 = some false := by decide
  have less : comparison? 0xC 0x8000000000000000 1 = some true := by decide
  have left : machine.register 0 = 0x8000000000000000 := register_setRegister_same _ _ _
  rcases compare_and_set_is_exact machine 0 0 (.constant 1) with
    ⟨right, compared, denotes, done, -, -, sets⟩
  have one : right = 1 := (Flags.eq_iff_toInt_eq right 1).mpr denotes
  rw [one, left] at sets
  rcases sets _ _ 0 (.low 1) overflows with ⟨first, isFirst, byteFirst, -⟩
  rcases sets _ _ 0 (.high 2) carries with ⟨second, isSecond, byteSecond, -⟩
  rcases sets _ _ 0 (.low 0) less with ⟨third, isThird, byteThird, -⟩
  exact ⟨overflows, carries, less, compared, first, second, third, done, isFirst, byteFirst,
    isSecond, byteSecond, isThird, byteThird⟩

end Machine

end LoxNative
