import Mathlib
import LoxNative.Proofs.ExactFlags
import LoxNative.Proofs.FetchedBytes
import LoxNative.Proofs.MemorySafety

namespace LoxNative

/-!
# Products and quotients

A product of two words and a quotient of a double word need more room than a register has.  The
machine notices what does not fit by indirect means.  It divides the wrapped product by one factor
and looks whether the other one comes out, and before a division it compares the divisor with the
upper half of the dividend.  Here both means are shown to be exact: they agree with the product and
the quotient of numbers that do not end, for all words and for every choice of registers.

The statements are about a whole step of a machine that is about to multiply or to divide, however
the instruction is encoded.
-/

/-! ## Products -/

/-- A wrapped product is divided back.  What was lost by wrapping is a multiple of 2^64, and a
remainder is less than the divisor, so the second factor comes out only if nothing was lost. -/
theorem tdiv_product_eq_iff {left : Int64} (right : Int64) (nonzero : left ≠ 0) :
    (left * right).toInt.tdiv left.toInt = right.toInt <->
      fitsSigned (left.toInt * right.toInt) = true := by
  have apart : left.toInt ≠ 0 := fun zero => nonzero (Int64.toInt_inj.mp zero)
  have wrapped := Int64.toInt_mul left right
  constructor
  · intro back
    have least := (left * right).le_toInt
    have less := (left * right).toInt_lt
    have bounds : left.toInt.natAbs ≤ 0x8000000000000000 := by
      have leastLeft := left.le_toInt
      have lessLeft := left.toInt_lt
      omega
    have split := Int.tmod_add_mul_tdiv (left * right).toInt left.toInt
    rw [back] at split
    have rest : ((left * right).toInt.tmod left.toInt).natAbs < left.toInt.natAbs := by
      rw [Int.natAbs_tmod]
      exact Nat.mod_lt _ (Int.natAbs_pos.mpr apart)
    have lost : (0x10000000000000000 : Int) ∣ left.toInt * right.toInt - (left * right).toInt := by
      rw [wrapped]
      exact Int.dvd_self_sub_bmod
    have exactly : left.toInt * right.toInt = (left * right).toInt := by omega
    rw [exactly, fitsSigned, Bool.and_eq_true, decide_eq_true_iff, decide_eq_true_iff]
    omega
  · intro fits
    rw [fitsSigned, Bool.and_eq_true, decide_eq_true_iff, decide_eq_true_iff] at fits
    rw [wrapped, Int.bmod_eq_of_le_mul_two (by omega) (by omega), Int.mul_tdiv_cancel_left _ apart]

/-- The test of a product finds exactly the products that do not fit a word. -/
theorem signedProduct?_of_exact (left right : Int64) :
    signedProduct? left right =
      some (left * right, !fitsSigned (left.toInt * right.toInt)) := by
  rw [Machine.signedProduct?_eq]
  refine congrArg (fun lost => some (left * right, lost)) ?_
  by_cases zero : left = 0
  · rw [zero, Int64.toInt_zero, Int.zero_mul]
    simp [fitsSigned]
  · rw [Bool.eq_iff_iff, decide_eq_true_iff, Bool.not_eq_true', <- Bool.not_eq_true,
      <- tdiv_product_eq_iff right zero]
    exact and_iff_right zero

namespace Machine

theorem toNat_product (left right : UInt64) :
    ((left.toInt64 * right.toInt64).toUInt64.toNat : Int) =
      left.toInt64.toInt * right.toInt64.toInt % 0x10000000000000000 := by
  rw [toNat_toUInt64, Int64.toInt_mul]
  exact Int.bmod_emod

/-- A multiplication leaves the product of the two signed words, as far as a word can hold it, and
the carry and the overflow both tell whether the product did not fit.  Nothing else changes, apart
from where the machine stands and the number of instructions. -/
theorem multiply_is_exact (machine : Machine) (destination source : RegisterNumber)
    (upcoming : machine.upcoming? = some (.multiply destination source)) :
    let product :=
      (machine.register destination).toInt64.toInt * (machine.register source).toInt64.toInt
    exists result : UInt64, (result.toNat : Int) = product % 0x10000000000000000 ∧
      machine.attemptStep = .completed () machine.step ∧
      machine.step =
        { machine with
          registers := machine.registers.set destination result destination.bound
          flags := { machine.flags with
            carry := !fitsSigned product, overflow := !fitsSigned product }
          position := machine.fetch.2.position
          steps := machine.steps + 1 } := by
  intro product
  refine ⟨_, toNat_product (machine.register destination) (machine.register source), ?_⟩
  have multiplied : signedProduct? ((machine.moved machine.fetch.2).register destination).toInt64
      ((machine.moved machine.fetch.2).register source).toInt64 = _ := signedProduct?_of_exact _ _
  rw [step, attemptStep_of_upcoming upcoming rfl, perform, multiplied]
  exact ⟨rfl, rfl⟩

/-- Minus one times the least word does not fit, though dividing the product by minus one gives the
least word back. -/
theorem multiply_is_exact_least :
    let machine : Machine :=
      { Machine.initial with
        registers :=
          #v[0xFFFFFFFFFFFFFFFF, 0x8000000000000000, 0, 0, 16, 0, 0, 0, 0, 0, 0, 0, 0, 0, 0, 0]
        memory := #[0x48, 0x0F, 0xAF, 0xC1, 0, 0, 0, 0, 0, 0, 0, 0, 0, 0, 0, 0]
        codeEnd := 4 }
    machine.upcoming? = some (.multiply 0 1) ∧ machine.step.flags = ⟨false, false, true, true⟩ ∧
      exists result : UInt64, (result.toNat : Int) = 0x8000000000000000 ∧
        machine.step.register 0 = result := by
  intro machine
  have upcoming : machine.upcoming? = some (.multiply 0 1) := by decide
  rcases multiply_is_exact machine 0 1 upcoming with ⟨result, value, -, stepped⟩
  refine ⟨upcoming, ?_, result, value.trans (by decide), ?_⟩
  · rw [stepped]
    rfl
  · rw [stepped]
    rfl

/-! ## Quotients -/

/-- The dividend has no quotient by a divisor that fits a word. -/
def LacksQuotient (machine : Machine) (divisor : UInt64) : Prop :=
  divisor.toNat = 0 ∨ 0x10000000000000000 ≤ machine.dividend / divisor.toNat

/-- The machine after a division that found a quotient.  The quotient and the remainder are in their
registers, and nothing else has changed, apart from where the machine stands and the number of
instructions. -/
structure Divides (divisor : UInt64) (before after : Machine) : Prop where
  quotient : (after.register 0).toNat * divisor.toNat + (after.register 2).toNat = before.dividend
  remainder : (after.register 2).toNat < divisor.toNat
  others : forall number, number ≠ 0 -> number ≠ 2 -> after.register number = before.register number
  rest : exists registers position,
    after = { before with registers, position, steps := before.steps + 1 }

/-- The machine has been stopped by a division at a place. -/
def StoppedByDivision (machine : Machine) (start : UInt64) : Prop :=
  machine.halted = true ∧ machine.fault = some (.divideError start)

section Dividing

variable {machine : Machine} {divisor : RegisterNumber}

theorem attemptStep_of_lacksQuotient (upcoming : machine.upcoming? = some (.divide divisor))
    (lacks : machine.LacksQuotient (machine.register divisor)) :
    machine.attemptStep =
      .completed () ((machine.moved machine.fetch.2).raise (.divideError machine.position)) := by
  rw [attemptStep_of_upcoming upcoming rfl]
  exact if_pos ((noQuotient_iff _ _ _).mpr lacks)

/-- The divisor is read before anything is written, so it may be one of the registers that are. -/
theorem divides_attemptStep (upcoming : machine.upcoming? = some (.divide divisor))
    (has : ¬ machine.LacksQuotient (machine.register divisor)) :
    exists after, machine.attemptStep = .completed () after ∧
      Divides (machine.register divisor) machine after := by
  have tested := mt (noQuotient_iff (machine.register 2) (machine.register 0) _).mp has
  have divided :
      (machine.moved machine.fetch.2).divide machine.position (machine.register divisor) = _ :=
    divide_tested tested
  rcases divide_cases (machine.moved machine.fetch.2) machine.position
    (machine.register divisor) with
    ⟨lacks, -⟩ | ⟨nonzero, -, after, found, quotient, remainder⟩
  · exact absurd lacks has
  · have same := divided.symm.trans found
    have stepped : machine.attemptStep = _ := attemptStep_of_upcoming upcoming rfl
    refine ⟨after, stepped.trans found, ?_, ?_, fun number first second => ?_, ?_⟩
    · rw [quotient, remainder, Nat.mul_comm]
      exact Nat.div_add_mod _ _
    · rw [remainder]
      exact Nat.mod_lt _ (Nat.pos_of_ne_zero nonzero)
    · injection same with _ same
      rw [<- same, register_setRegister_of_ne _ second, register_setRegister_of_ne _ first]
      rfl
    · injection same with _ same
      exact ⟨_, machine.fetch.2.position, same.symm⟩

/-- A step over a division does not crash. -/
theorem attemptStep_of_divide (upcoming : machine.upcoming? = some (.divide divisor)) :
    machine.attemptStep = .completed () machine.step := by
  by_cases lacks : machine.LacksQuotient (machine.register divisor)
  · rw [step, attemptStep_of_lacksQuotient upcoming lacks]
    rfl
  · rcases divides_attemptStep upcoming lacks with ⟨after, stepped, -⟩
    rw [step, stepped]
    rfl

theorem divides_step (upcoming : machine.upcoming? = some (.divide divisor))
    (has : ¬ machine.LacksQuotient (machine.register divisor)) :
    Divides (machine.register divisor) machine machine.step := by
  rcases divides_attemptStep upcoming has with ⟨after, stepped, divides⟩
  rw [step, stepped]
  exact divides

theorem stoppedByDivision_iff (upcoming : machine.upcoming? = some (.divide divisor)) :
    machine.step.StoppedByDivision machine.position <->
      machine.LacksQuotient (machine.register divisor) := by
  constructor
  · rintro ⟨halted, -⟩
    by_contra has
    rcases (divides_step upcoming has).rest with ⟨registers, position, stepped⟩
    rw [stepped] at halted
    exact absurd halted (by rw [(upcoming?_eq_some.mp upcoming).1]; exact Bool.false_ne_true)
  · intro lacks
    rw [step, attemptStep_of_lacksQuotient upcoming lacks]
    exact ⟨rfl, rfl⟩

/-- A word that is combined with itself is zero. -/
theorem register_step_of_clearing {register : RegisterNumber}
    (clearing : machine.upcoming? = some (.arithmetic .xor register (.register register))) :
    machine.step.register register = 0 := by
  rw [step, attemptStep_of_upcoming clearing rfl]
  exact (register_setRegister_same _ _ _).trans UInt64.xor_self

/-- With nothing in the upper word, the quotient is at most the lower word. -/
theorem lacksQuotient_iff_of_upper_zero (upper : machine.register 2 = 0) (amount : UInt64) :
    machine.LacksQuotient amount <-> amount = 0 := by
  rw [LacksQuotient, dividend, <- noQuotient_iff, upper]
  constructor
  · rintro (zero | least)
    · exact zero
    · exact UInt64.le_zero_iff.mp least
  · exact Or.inl

end Dividing

/-- A division stops the machine exactly if the divisor is zero or the quotient of the double word
does not fit one word.  Then nothing else happens.  Otherwise the quotient and the remainder are
found, and nothing else changes.  After `rdx` was cleared, only zero is left as a divisor that stops
the machine. -/
theorem divide_is_exact (machine : Machine) (divisor : RegisterNumber)
    (upcoming : machine.upcoming? = some (.divide divisor)) :
    machine.attemptStep = .completed () machine.step ∧
      (machine.step.StoppedByDivision machine.position <->
        machine.LacksQuotient (machine.register divisor)) ∧
      (machine.LacksQuotient (machine.register divisor) -> Spares machine machine.step) ∧
      (¬ machine.LacksQuotient (machine.register divisor) ->
        Divides (machine.register divisor) machine machine.step) ∧
      (forall before : Machine, before.upcoming? = some (.arithmetic .xor 2 (.register 2)) ->
        before.step = machine ->
        (machine.step.StoppedByDivision machine.position <-> machine.register divisor = 0)) := by
  have stopped := stoppedByDivision_iff upcoming
  refine ⟨attemptStep_of_divide upcoming, stopped, fun lacks => ?_, divides_step upcoming, ?_⟩
  · rw [step, attemptStep_of_lacksQuotient upcoming lacks]
    exact ⟨rfl, rfl, rfl, rfl, rfl, rfl⟩
  · rintro before clearing rfl
    rw [stopped]
    exact lacksQuotient_iff_of_upper_zero (register_step_of_clearing clearing) _

/-- A division whose divisor is the lower word of the dividend, and a division by zero behind an
instruction that clears `rdx`. -/
theorem divide_is_exact_aliased :
    let machine : Machine :=
      { Machine.initial with
        registers := #v[7, 0, 6, 0, 16, 0, 0, 0, 0, 0, 0, 0, 0, 0, 0, 0]
        memory := #[0x48, 0xF7, 0xF0, 0x48, 0x31, 0xD2, 0x48, 0xF7, 0xF3, 0, 0, 0, 0, 0, 0, 0]
        codeEnd := 9 }
    let clearing := machine.step
    machine.upcoming? = some (.divide 0) ∧ ¬ machine.LacksQuotient 7 ∧
      Divides 7 machine machine.step ∧
      clearing.upcoming? = some (.arithmetic .xor 2 (.register 2)) ∧
      clearing.step.upcoming? = some (.divide 3) ∧
      clearing.step.step.StoppedByDivision clearing.step.position := by
  intro machine clearing
  have upcoming : machine.upcoming? = some (.divide 0) := by decide
  have has : ¬ machine.LacksQuotient 7 := by
    rintro (zero | large)
    · exact absurd zero (by decide)
    · exact absurd large (by decide)
  have clears : clearing.upcoming? = some (.arithmetic .xor 2 (.register 2)) := by decide
  have later : clearing.step.upcoming? = some (.divide 3) := by decide
  have stops := (divide_is_exact clearing.step 3 later).2.2.2.2 clearing clears rfl
  exact ⟨upcoming, has, (divide_is_exact machine 0 upcoming).2.2.2.1 has, clears, later,
    stops.mpr (by decide)⟩

end Machine

end LoxNative
