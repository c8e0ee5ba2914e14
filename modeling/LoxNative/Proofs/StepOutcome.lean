import Mathlib
import LoxNative.Proofs.Fetching
import LoxNative.Proofs.OperationChange
import LoxNative.Proofs.Step

namespace LoxNative
namespace Machine

/-!
# What a step can do

A step finds the machine halted, or no code left, or it fetches.  The bytes it fetches need not be
an instruction; if they are one, the operation makes a change that it is permitted to make.  One
theorem lists these outcomes, and what holds of every step follows from the list.

Only one of the outcomes is a crash: fetching asked for a byte of the code that memory does not
have.  Where the code ends inside memory this does not happen, so no step crashes, and no run.
-/

/-! ## Fetching an instruction -/

/-- A machine that does not crash.  Its memory has room for a quadword, and its code ends inside. -/
structure IsFit (machine : Machine) : Prop where
  inside : machine.code.IsInside
  roomy : 8 ≤ machine.memory.size

/-- The machine that has gone on to the place where fetching stopped. -/
def moved (machine : Machine) (place : Fetching) : Machine :=
  { machine with
    position := place.position
    steps := machine.steps + 1 }

section Fetch

variable {machine : Machine}

theorem fetch_advances (inside : machine.code.IsInside) :
    Fetching.Advances machine.code { position := machine.position } machine.fetch.2 :=
  Decoder.proceeds_operation.advances machine.code _ inside

theorem lt_position_fetch (inside : machine.code.IsInside)
    (before : machine.position.toNat < machine.codeEnd) :
    machine.position.toNat < machine.fetch.2.position.toNat :=
  Decoder.operation_advances inside { position := machine.position } before

theorem advance_of_complete {place : Fetching} (complete : place.overrun = false) :
    machine.advance place = machine.moved place := by
  rw [advance, complete]
  rfl

theorem keeps_advance (machine : Machine) (place : Fetching) :
    Keeps (machine.moved place) (machine.advance place) := by
  have moved := Keeps.refl (machine.moved place)
  cases overrun : place.overrun with
  | false =>
      rw [advance_of_complete overrun]
      exact moved
  | true =>
      rw [advance, overrun]
      exact moved.raise _

theorem memory_advance (machine : Machine) (place : Fetching) :
    (machine.advance place).memory = machine.memory := by
  unfold advance
  cases place.overrun <;> rfl

theorem attemptStep_of_halted (halted : machine.halted = true) :
    machine.attemptStep = .completed () machine := by
  rw [attemptStep, if_pos halted]

theorem attemptStep_of_behind (running : machine.halted = false)
    (behind : machine.codeEnd ≤ machine.position.toNat) :
    machine.attemptStep = .completed () (machine.raise (.ranPastEnd machine.position)) := by
  rw [attemptStep, if_neg (Bool.eq_false_iff.mp running), if_pos behind]

section Found

variable {place : Fetching} (running : machine.halted = false)
  (before : machine.position.toNat < machine.codeEnd)

include running before

theorem attemptStep_of_missing {found : Except Fault Operation}
    (fetched : machine.fetch = (found, place)) (missing : place.crashed = true) :
    machine.attemptStep = .crashed (machine.advance place) := by
  rw [attemptStep, if_neg (Bool.eq_false_iff.mp running), if_neg (Nat.not_le.mpr before), fetched]
  exact if_pos missing

theorem attemptStep_of_refusal {fault : Fault} (fetched : machine.fetch = (.error fault, place))
    (intact : place.crashed = false) :
    machine.attemptStep = .completed () ((machine.advance place).raise fault) := by
  rw [attemptStep, if_neg (Bool.eq_false_iff.mp running), if_neg (Nat.not_le.mpr before), fetched]
  exact if_neg (Bool.eq_false_iff.mp intact)

/-- A step performs the operation that was found. -/
theorem attemptStep_of_fetch {operation : Operation}
    (fetched : machine.fetch = (.ok operation, place)) (intact : place.crashed = false) :
    machine.attemptStep = (machine.advance place).perform machine.position operation := by
  rw [attemptStep, if_neg (Bool.eq_false_iff.mp running), if_neg (Nat.not_le.mpr before), fetched]
  exact if_neg (Bool.eq_false_iff.mp intact)

end Found

end Fetch

/-! ## The outcomes of a step -/

/-- What a step comes to. -/
inductive StepsTo (machine : Machine) : Attempt Unit -> Prop
  | idle (halted : machine.halted = true) : StepsTo machine (.completed () machine)
  | ended (running : machine.halted = false) (behind : machine.codeEnd ≤ machine.position.toNat) :
      StepsTo machine (.completed () (machine.raise (.ranPastEnd machine.position)))
  | crashed (running : machine.halted = false) (before : machine.position.toNat < machine.codeEnd)
      (missing : machine.fetch.2.crashed = true) :
      StepsTo machine (.crashed (machine.advance machine.fetch.2))
  | refused {fault : Fault} (running : machine.halted = false)
      (before : machine.position.toNat < machine.codeEnd) :
      StepsTo machine (.completed () ((machine.advance machine.fetch.2).raise fault))
  | performed {operation : Operation} {change : Change} (running : machine.halted = false)
      (before : machine.position.toNat < machine.codeEnd)
      (intact : machine.fetch.2.crashed = false) (fetched : machine.fetch.1 = .ok operation)
      (permitted : Permits (machine.advance machine.fetch.2) operation change) :
      StepsTo machine (.completed () (change.apply (machine.advance machine.fetch.2)))

section Step

variable {machine : Machine}

theorem stepsTo_attemptStep (roomy : 8 ≤ machine.memory.size) :
    StepsTo machine machine.attemptStep := by
  by_cases halted : machine.halted = true
  · rw [attemptStep_of_halted halted]
    exact .idle halted
  · have running := Bool.eq_false_of_not_eq_true halted
    by_cases behind : machine.codeEnd ≤ machine.position.toNat
    · rw [attemptStep_of_behind running behind]
      exact .ended running behind
    · have before := Nat.lt_of_not_le behind
      cases intact : machine.fetch.2.crashed with
      | true =>
          rw [attemptStep_of_missing running before rfl intact]
          exact .crashed running before intact
      | false =>
          cases found : machine.fetch.1 with
          | error fault =>
              rw [attemptStep_of_refusal running before (Prod.ext found rfl) intact]
              exact .refused running before
          | ok operation =>
              have roomyBehind : 8 ≤ (machine.advance machine.fetch.2).memory.size := by
                rw [memory_advance]
                exact roomy
              rcases exists_permitted (machine.advance machine.fetch.2) machine.position operation
                roomyBehind with ⟨change, permitted, performed⟩
              rw [attemptStep_of_fetch running before (Prod.ext found rfl) intact, performed]
              exact .performed running before intact found permitted

/-- A machine that goes nowhere keeps what an operation keeps.  One that fetches goes on behind what
was fetched first. -/
theorem keeps_step (roomy : 8 ≤ machine.memory.size) :
    (Keeps machine machine.step ∧
        (machine.halted = true ∨ machine.codeEnd ≤ machine.position.toNat)) ∨
      (Keeps (machine.moved machine.fetch.2) machine.step ∧ machine.halted = false ∧
        machine.position.toNat < machine.codeEnd) := by
  have kept := Keeps.refl machine
  have advanced := keeps_advance machine machine.fetch.2
  have outcome := stepsTo_attemptStep roomy
  unfold step
  generalize machine.attemptStep = attempt at outcome
  cases outcome with
  | idle halted => exact Or.inl ⟨kept, Or.inl halted⟩
  | ended running behind => exact Or.inl ⟨kept.raise _, Or.inr behind⟩
  | crashed running before => exact Or.inr ⟨advanced, running, before⟩
  | refused running before => exact Or.inr ⟨advanced.raise _, running, before⟩
  | performed running before intact fetched permitted =>
      exact Or.inr ⟨advanced.trans permitted.keeps, running, before⟩

theorem size_step (roomy : 8 ≤ machine.memory.size) :
    machine.step.memory.size = machine.memory.size := by
  rcases keeps_step roomy with ⟨kept, -⟩ | ⟨kept, -⟩
  · exact kept.size
  · exact kept.size

theorem codeEnd_step (roomy : 8 ≤ machine.memory.size) :
    machine.step.codeEnd = machine.codeEnd := by
  rcases keeps_step roomy with ⟨kept, -⟩ | ⟨kept, -⟩
  · exact kept.codeEnd
  · exact kept.codeEnd

end Step

/-! ## Nothing crashes -/

namespace IsFit

variable {machine : Machine}

/-- Where the code ends inside memory, fetching finds every byte that it asks for. -/
theorem attemptStep_eq (fit : machine.IsFit) :
    machine.attemptStep = .completed () machine.step := by
  have intact := (fetch_advances fit.inside).crashed
  have outcome := stepsTo_attemptStep fit.roomy
  unfold Machine.step
  generalize machine.attemptStep = attempt at outcome
  cases outcome with
  | crashed running before missing => exact absurd (intact.symm.trans missing) Bool.false_ne_true
  | idle | ended | refused | performed => rfl

theorem step (fit : machine.IsFit) : machine.step.IsFit := by
  have size := size_step fit.roomy
  have codeEnd := codeEnd_step fit.roomy
  refine ⟨⟨?_, ?_⟩, ?_⟩
  · change machine.step.codeEnd ≤ machine.step.memory.size
    rw [codeEnd, size]
    exact fit.inside.inside
  · change machine.step.codeEnd < _
    rw [codeEnd]
    exact fit.inside.addressable
  · rw [size]
    exact fit.roomy

theorem attemptRun_eq (fit : machine.IsFit) (count : Nat) :
    machine.attemptRun count = .completed () (machine.runFor count) := by
  unfold runFor
  induction count generalizing machine with
  | zero => rfl
  | succ count ih =>
      rw [attemptRun]
      split
      · rfl
      · rw [fit.attemptStep_eq]
        exact ih fit.step

end IsFit

/-! ## Runs -/

section Runs

variable {machine : Machine}

/-- What every step keeps is kept by a run. -/
theorem runFor_preserves {kept : Machine -> Prop}
    (steps : forall machine, kept machine -> kept machine.step) (count : Nat) (now : kept machine) :
    kept (machine.runFor count) := by
  unfold runFor
  induction count generalizing machine with
  | zero => exact now
  | succ count ih =>
      have next := steps machine now
      unfold step at next
      rw [attemptRun]
      split
      · exact now
      · cases stepped : machine.attemptStep with
        | completed result after =>
            rw [stepped] at next
            exact ih next
        | crashed after =>
            rw [stepped] at next
            exact next

end Runs

end Machine
end LoxNative
