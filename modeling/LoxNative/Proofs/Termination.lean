import Mathlib
import LoxNative.Proofs.StepOutcome

namespace LoxNative
namespace Machine

/-!
# Every run ends

Nothing jumps, so the distance from the position to the end of the code falls with every instruction
that is executed, by at least one.  This does not depend on the bytes: they may be malformed, cut
off, or have been written by the program itself a moment ago.  Once nothing is left of the code, one
more step stops the machine.

A step of a machine that has halted changes nothing, so a run of bounded length is the same as that
many steps, and any bound beyond the distance gives the same run.
-/

section Runs

variable {machine : Machine}

theorem step_of_halted (halted : machine.halted = true) : machine.step = machine :=
  congrArg Attempt.machine (attemptStep_of_halted halted)

theorem runFor_eq_iterate (fit : machine.IsFit) (count : Nat) :
    machine.runFor count = step^[count] machine := by
  induction count generalizing machine with
  | zero => rfl
  | succ count ih =>
      rw [runFor, attemptRun, Function.iterate_succ_apply]
      split
      · rename_i halted
        rw [step_of_halted halted, Function.iterate_fixed (step_of_halted halted)]
        rfl
      · rw [fit.attemptStep_eq]
        exact ih fit.step

/-- The course of a run: the machine halts after a number of steps and not before, and of these
steps a number executed an instruction. -/
structure HaltsAfter (machine : Machine) (calls executed : Nat) : Prop where
  running : forall earlier, earlier < calls -> (step^[earlier] machine).halted = false
  halted : (step^[calls] machine).halted = true
  steps : (step^[calls] machine).steps = machine.steps + UInt64.ofNat executed

namespace HaltsAfter

variable {calls executed : Nat}

theorem now (halted : machine.halted = true) : HaltsAfter machine 0 0 where
  running _ less := absurd less (Nat.not_lt_zero _)
  halted := halted
  steps := (UInt64.add_zero _).symm

/-- A step in front of a run. -/
theorem later (running : machine.halted = false) (counted : Nat)
    (steps : machine.step.steps = machine.steps + UInt64.ofNat counted)
    (rest : HaltsAfter machine.step calls executed) :
    HaltsAfter machine (calls + 1) (counted + executed) where
  running earlier less := by
    cases earlier with
    | zero => exact running
    | succ earlier =>
        rw [Function.iterate_succ_apply]
        exact rest.running earlier (Nat.lt_of_succ_lt_succ less)
  halted := by
    rw [Function.iterate_succ_apply]
    exact rest.halted
  steps := by
    rw [Function.iterate_succ_apply, rest.steps, steps, UInt64.ofNat_add, UInt64.add_assoc]

/-- More steps than the run has change nothing. -/
theorem runFor_eq (halts : HaltsAfter machine calls executed) (fit : machine.IsFit) {count : Nat}
    (enough : calls ≤ count) : machine.runFor count = step^[calls] machine := by
  obtain ⟨idle, rfl⟩ := Nat.exists_eq_add_of_le' enough
  rw [runFor_eq_iterate fit, Function.iterate_add_apply,
    Function.iterate_fixed (step_of_halted halts.halted)]

end HaltsAfter

/-- The distance to the end of the code bounds a run.  It is what the induction is on: an
instruction leaves less of it, and where it is zero already the next step is the last. -/
theorem exists_haltsAfter (fit : machine.IsFit) :
    exists calls executed, calls ≤ machine.codeEnd - machine.position.toNat + 1 ∧
      executed ≤ machine.codeEnd - machine.position.toNat ∧ HaltsAfter machine calls executed := by
  generalize left : machine.codeEnd - machine.position.toNat = distance
  induction distance using Nat.strong_induction_on generalizing machine with
  | _ distance ih =>
      by_cases halted : machine.halted = true
      · exact ⟨0, 0, Nat.zero_le _, Nat.zero_le _, HaltsAfter.now halted⟩
      · have running := Bool.eq_false_of_not_eq_true halted
        rcases keeps_step fit.roomy with ⟨-, stopped | behind⟩ | ⟨kept, -, before⟩
        · exact absurd stopped halted
        · have stepped : machine.step = machine.raise (.ranPastEnd machine.position) :=
            congrArg Attempt.machine (attemptStep_of_behind running behind)
          have stops : HaltsAfter machine.step 0 0 := HaltsAfter.now (by rw [stepped]; rfl)
          refine ⟨1, 0, Nat.le_add_left 1 distance, Nat.zero_le _, stops.later running 0 ?_⟩
          rw [stepped]
          exact (UInt64.add_zero _).symm
        · have codeEnd := codeEnd_step fit.roomy
          have position : machine.step.position = machine.fetch.2.position := kept.position
          have forward := lt_position_fetch fit.inside before
          rcases ih (machine.step.codeEnd - machine.step.position.toNat)
              (by rw [codeEnd, position]; omega) fit.step rfl with
            ⟨calls, executed, callsLe, executedLe, halts⟩
          rw [codeEnd, position] at callsLe executedLe
          exact ⟨calls + 1, 1 + executed, by omega, by omega, halts.later running 1 kept.steps⟩

end Runs

/-- A run ends, whatever it runs.  It takes at most one step more than there are bytes left of the
code and executes at most as many instructions, and every larger number of steps leaves the same
machine.  No number of steps makes it crash. -/
theorem run_halts (machine : Machine) (inside : machine.codeEnd ≤ machine.memory.size)
    (roomy : 8 ≤ machine.memory.size) (addressable : machine.codeEnd < 0x10000000000000000) :
    let distance := machine.codeEnd - machine.position.toNat
    (exists calls, calls ≤ distance + 1 ∧
        (forall earlier, earlier < calls -> (step^[earlier] machine).halted = false) ∧
        (step^[calls] machine).halted = true ∧ machine.run = step^[calls] machine) ∧
      (exists executed, executed ≤ distance ∧
        machine.run.steps = machine.steps + UInt64.ofNat executed) ∧
      (forall count, machine.attemptRun count = .completed () (machine.runFor count)) ∧
      (forall count, distance < count ->
        (machine.runFor count).halted = true ∧ machine.runFor count = machine.run) := by
  intro distance
  have fit : machine.IsFit := ⟨⟨inside, addressable⟩, roomy⟩
  rcases exists_haltsAfter fit with ⟨calls, executed, callsLe, executedLe, halts⟩
  have run : machine.run = step^[calls] machine := halts.runFor_eq fit callsLe
  refine ⟨⟨calls, callsLe, halts.running, halts.halted, run⟩, ⟨executed, executedLe, ?_⟩,
    fit.attemptRun_eq, ?_⟩
  · rw [run]
    exact halts.steps
  · intro count more
    have bounded := halts.runFor_eq fit (Nat.le_trans callsLe more)
    rw [run, bounded]
    exact ⟨halts.halted, rfl⟩

/-- Code that writes over what comes next: the first instruction turns the bytes behind it into four
instructions that do nothing and a byte that is no instruction. -/
theorem run_halts_selfModifying :
    let code : List UInt8 :=
      [0x48, 0xC7, 0x40, 0x08, 0x90, 0x90, 0x90, 0x90, 0, 0, 0, 0, 0, 0, 0, 0]
    let machine := { initial with memory := code.toArray, codeEnd := 16 }
    machine.run.halted = true ∧ machine.run.steps = 6 ∧
      (forall count, 16 < count -> machine.runFor count = machine.run) := by
  intro code machine
  have halts := run_halts machine (by decide) (by decide) (by decide)
  exact ⟨by decide +kernel, by decide +kernel, fun count more => (halts.2.2.2 count more).2⟩

end Machine
end LoxNative
