import Mathlib
import LoxNative.Proofs.PreciseFaults

namespace LoxNative
namespace Machine

/-!
# Which quadwords memory has

An access to a quadword should be refused exactly if one of its eight bytes lies outside memory.
The machine tests this by comparing the address with the greatest address of a quadword, which is
eight less than the size of memory, modulo 2^64.

If memory has at least eight bytes, the test is exact at every address, also at those close to 2^64.
If memory is shorter, it has no quadword at all, but the greatest address wraps around, and the test
lets nearly every access through.  Such an access neither finds anything nor records a fault.  It
crashes, and leaves the machine as it was: running, if it was running, and without a fault.
-/

/-- An access that the test lets through because the greatest address has wrapped around. -/
def SlipsThrough (machine : Machine) (address : UInt64) : Prop :=
  machine.memory.size < 8 ∧ address.toNat + 8 ≤ 0x10000000000000000 + machine.memory.size

/-- Whether reading a quadword records a fault.  One that was there before does not count. -/
def readRecordsFault (machine : Machine) (address : UInt64) : Bool :=
  ((machine.remembering none).readQword address).machine.fault.isSome

/-- Whether writing a quadword records a fault.  One that was there before does not count. -/
def writeRecordsFault (machine : Machine) (address value : UInt64) : Bool :=
  ((machine.remembering none).writeQword address value).machine.fault.isSome

/-- What it means that a quadword was stored: it is found again, and everything else is as before,
byte by byte and quadword by quadword. -/
structure StoresQuadword (address value : UInt64) (before after : Machine) : Prop where
  rest : after = { before with memory := after.memory }
  size : after.memory.size = before.memory.size
  found : after.readQword address = .completed (some value) after
  bytes : forall index, index < address.toNat ∨ address.toNat + 8 ≤ index ->
    after.memory[index]? = before.memory[index]?
  apart : forall other : UInt64, other.toNat + 8 ≤ before.memory.size ->
    other.toNat + 8 ≤ address.toNat ∨ address.toNat + 8 ≤ other.toNat ->
    exists same, before.readQword other = .completed (some same) before ∧
      after.readQword other = .completed (some same) after

section Accesses

variable {machine : Machine} {address value : UInt64}

/-- What the test refuses, as a condition on numbers that do not wrap around. -/
theorem reach_lt_iff :
    reach machine.memory.size < address.toNat <->
      machine.memory.size < address.toNat + 8 ∧ ¬ machine.SlipsThrough address := by
  unfold reach SlipsThrough
  split <;> omega

theorem SlipsThrough.outside (slips : machine.SlipsThrough address) :
    machine.memory.size < address.toNat + 8 :=
  Nat.lt_of_lt_of_le slips.1 (Nat.le_add_left 8 _)

theorem readQword_refused (outside : machine.memory.size < address.toNat + 8)
    (tested : ¬ machine.SlipsThrough address) :
    machine.readQword address = .completed none (machine.raise (.readOutOfBounds address)) :=
  if_pos (reach_lt_iff.mpr ⟨outside, tested⟩)

theorem writeQword_refused (outside : machine.memory.size < address.toNat + 8)
    (tested : ¬ machine.SlipsThrough address) :
    machine.writeQword address value =
      .completed false (machine.raise (.writeOutOfBounds address)) :=
  if_pos (reach_lt_iff.mpr ⟨outside, tested⟩)

theorem readQword_slips (slips : machine.SlipsThrough address) :
    machine.readQword address = .crashed machine := by
  rw [readQword, if_neg fun refused => (reach_lt_iff.mp refused).2 slips,
    slice?_outside slips.outside]

theorem writeQword_slips (slips : machine.SlipsThrough address) :
    machine.writeQword address value = .crashed machine := by
  rw [writeQword, if_neg fun refused => (reach_lt_iff.mp refused).2 slips,
    if_neg (Nat.not_le.mpr slips.outside)]

/-- An access that is refused where the test refuses it, and neither inside memory nor where it
slips through. -/
theorem refused_iff {refused : Bool}
    (inside : address.toNat + 8 ≤ machine.memory.size -> refused = false)
    (slips : machine.SlipsThrough address -> refused = false)
    (outside : machine.memory.size < address.toNat + 8 -> ¬ machine.SlipsThrough address ->
      refused = true) :
    refused = true <-> machine.memory.size < address.toNat + 8 ∧
    ¬ machine.SlipsThrough address := by
  constructor
  · rintro rfl
    exact ⟨Nat.lt_of_not_le fun within => Bool.noConfusion (inside within),
      fun through => Bool.noConfusion (slips through)⟩
  · rintro ⟨beyond, tested⟩
    exact outside beyond tested

theorem readRecordsFault_iff :
    machine.readRecordsFault address = true <->
      machine.memory.size < address.toNat + 8 ∧ ¬ machine.SlipsThrough address := by
  have fault {outcome : Attempt (Option UInt64)}
      (same : (machine.remembering none).readQword address = outcome) :
      machine.readRecordsFault address = outcome.machine.fault.isSome := by
    rw [readRecordsFault, same]
  exact refused_iff (fun inside => fault (readQword_inside inside))
    (fun slips => fault (readQword_slips slips))
    (fun outside tested => fault (readQword_refused outside tested))

theorem writeRecordsFault_iff :
    machine.writeRecordsFault address value = true <->
      machine.memory.size < address.toNat + 8 ∧ ¬ machine.SlipsThrough address := by
  have fault {outcome : Attempt Bool}
      (same : (machine.remembering none).writeQword address value = outcome) :
      machine.writeRecordsFault address value = outcome.machine.fault.isSome := by
    rw [writeRecordsFault, same]
  exact refused_iff (fun inside => fault (writeQword_inside inside))
    (fun slips => fault (writeQword_slips slips))
    (fun outside tested => fault (writeQword_refused outside tested))

/-- Where the test is exact, and only there, an access is refused exactly outside memory. -/
theorem exact_iff {refused : Bool}
    (tested : refused = true <-> machine.memory.size < address.toNat + 8 ∧
      ¬ machine.SlipsThrough address) :
    (refused = true <-> machine.memory.size < address.toNat + 8) <->
      ¬ machine.SlipsThrough address := by
  rw [tested, and_iff_left_iff_imp]
  exact ⟨fun all slips => all slips.outside slips, fun none _ => none⟩

theorem storesQuadword_writeQword (inside : address.toNat + 8 ≤ machine.memory.size) :
    exists after, machine.writeQword address value = .completed true after ∧
      StoresQuadword address value machine after := by
  have size := withQuadword_size machine.memory address.toNat value
  refine ⟨_, writeQword_inside inside, ⟨rfl, size, ?_, ?_, ?_⟩⟩
  · rw [readQword_inside (by rw [size]; exact inside), quadword_withQuadword_same _ _ _ inside]
  · exact fun index outside =>
      getElem?_withQuadword_outside machine.memory address.toNat value outside
  · intro other within apart
    refine ⟨_, readQword_inside within, ?_⟩
    rw [readQword_inside (by rw [size]; exact within)]
    refine congrArg (fun word => Attempt.completed (some word) _) ?_
    apply quadword_congr (by rw [size]; exact within) within
    intro index least less
    exact getElem?_withQuadword_outside machine.memory address.toNat value (by omega)

end Accesses

/-- Reading and writing a quadword record a fault exactly outside memory, unless memory has fewer
than eight bytes and the test lets the access through; then it crashes instead, and leaves the
machine as it was.  An access crashes in no other case.  A fault is all that a refused access
leaves.  An access inside memory finds the quadword, or stores it and changes nothing else. -/
theorem quadword_bounds_exact_iff (machine : Machine) (address value : UInt64) :
    ((machine.readRecordsFault address = true <-> machine.memory.size < address.toNat + 8) <->
        ¬ machine.SlipsThrough address) ∧
      ((machine.writeRecordsFault address value = true <->
        machine.memory.size < address.toNat + 8) <->
        ¬ machine.SlipsThrough address) ∧
      (machine.SlipsThrough address ->
        machine.readQword address = .crashed machine ∧
          machine.writeQword address value = .crashed machine) ∧
      (¬ machine.SlipsThrough address ->
        (machine.readQword address).isCrashed = false ∧
          (machine.writeQword address value).isCrashed = false) ∧
      (machine.readRecordsFault address = true ->
        machine.readQword address = .completed none (machine.raise (.readOutOfBounds address))) ∧
      (machine.writeRecordsFault address value = true ->
        machine.writeQword address value =
          .completed false (machine.raise (.writeOutOfBounds address))) ∧
      (address.toNat + 8 ≤ machine.memory.size ->
        (exists found, machine.readQword address = .completed (some found) machine) ∧
          exists after, machine.writeQword address value = .completed true after ∧
            StoresQuadword address value machine after) := by
  refine ⟨exact_iff readRecordsFault_iff, exact_iff writeRecordsFault_iff,
    fun slips => ⟨readQword_slips slips, writeQword_slips slips⟩, fun tested => ?_,
    fun recorded => ?_, fun recorded => ?_,
    fun inside => ⟨⟨_, readQword_inside inside⟩, storesQuadword_writeQword inside⟩⟩
  · by_cases inside : address.toNat + 8 ≤ machine.memory.size
    · rw [readQword_inside inside, writeQword_inside inside]
      exact ⟨rfl, rfl⟩
    · have outside := Nat.lt_of_not_le inside
      rw [readQword_refused outside tested, writeQword_refused outside tested]
      exact ⟨rfl, rfl⟩
  · rcases readRecordsFault_iff.mp recorded with ⟨outside, tested⟩
    exact readQword_refused outside tested
  · rcases writeRecordsFault_iff.mp recorded with ⟨outside, tested⟩
    exact writeQword_refused outside tested

/-- A memory of four bytes has no quadword, but reading one at address zero records no fault.  It
crashes, and the machine is left running and without a fault. -/
theorem short_memory_lets_read_through :
    let machine := { Machine.initial with memory := #[0, 0, 0, 0] }
    machine.memory.size < (0 : UInt64).toNat + 8 ∧ machine.readRecordsFault 0 = false ∧
      machine.writeRecordsFault 0 1 = false ∧ (machine.readQword 0).isCrashed = true ∧
      (machine.readQword 0).machine.halted = false ∧ (machine.readQword 0).machine.fault = none ∧
      ¬ (machine.readRecordsFault 0 = true <-> machine.memory.size < (0 : UInt64).toNat + 8) := by
  decide

end Machine
end LoxNative
