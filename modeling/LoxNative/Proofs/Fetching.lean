import Mathlib
import LoxNative.Proofs.Decoding

namespace LoxNative

/-!
# How far decoding gets, whatever the bytes are

The bytes in front of the machine need not be an instruction: they may be malformed, cut off by the
end of the code, or left over from something else.  Two things hold all the same.  Fetching only
moves forward, never past the end of the code and never outside memory.  And what is found depends
on nothing but the bytes that were passed.

Both are properties of a decoder for every code, so they are stated about a family of decoders.
They hold of fetching one byte and are kept by every way in which decoders are put together here, so
each decoder of the table has its theorem by the same steps that define it.
-/

/-- Code that ends inside memory, at a place that has a 64-bit address. -/
structure Code.IsInside (code : Code) : Prop where
  inside : code.ending ≤ code.memory.size
  addressable : code.ending < 0x10000000000000000

/-- What fetching does to a place: it moves forward, at most to the end of the code, and never asks
for a byte outside memory. -/
structure Fetching.Advances (code : Code) (before after : Fetching) : Prop where
  forward : before.position.toNat ≤ after.position.toNat
  within : after.position = before.position ∨ after.position.toNat ≤ code.ending
  crashed : after.crashed = before.crashed

namespace Fetching.Advances

variable {code : Code} {before middle after : Fetching}

theorem refl (place : Fetching) : Advances code place place :=
  ⟨Nat.le_refl _, Or.inl rfl, rfl⟩

theorem trans (first : Advances code before middle) (second : Advances code middle after) :
    Advances code before after where
  forward := Nat.le_trans first.forward second.forward
  within := by
    rcases second.within with same | within
    · rw [same]
      exact first.within
    · exact Or.inr within
  crashed := second.crashed.trans first.crashed

end Fetching.Advances

namespace Decoder

/-- A decoder moves forward, and in every other code that has the same bytes where it passes it
finds the same. -/
structure Proceeds {Value : Type} (decoder : Code -> Decoder Value) : Prop where
  advances : forall code place, code.IsInside ->
    Fetching.Advances code place (decoder code place).2
  determined : forall code other place, code.IsInside -> other.IsInside ->
    other.ending = code.ending ->
    (forall index, place.position.toNat ≤ index ->
      index < (decoder code place).2.position.toNat ->
      other.memory[index]? = code.memory[index]?) ->
    decoder other place = decoder code place

theorem bind_eq {Value Result : Type} (decoder : Decoder Value) (next : Value -> Decoder Result)
    (place : Fetching) :
    (decoder >>= next) place =
      match decoder place with
      | (.ok value, after) => next value after
      | (.error fault, after) => (.error fault, after) := by
  change (ExceptT.bindCont next (decoder place).1 : StateM Fetching _) (decoder place).2 = _
  rcases decoder place with ⟨fault | value, after⟩ <;> rfl

/-! ## Decoders put together -/

namespace Proceeds

theorem pure {Value : Type} (value : Value) :
    Proceeds fun _ => (Pure.pure value : Decoder Value) where
  advances _ place _ := .refl place
  determined _ _ _ _ _ _ _ := rfl

theorem throw {Value : Type} (fault : Fault) :
    Proceeds fun _ => (MonadExcept.throw fault : Decoder Value) where
  advances _ place _ := .refl place
  determined _ _ _ _ _ _ _ := rfl

theorem position : Proceeds fun _ => Decoder.position where
  advances _ place _ := .refl place
  determined _ _ _ _ _ _ _ := rfl

/-- The second decoder starts where the first one stopped.  Since it moves forward too, the bytes
that the first one passed are among those that both pass together. -/
theorem bind {Value Result : Type} {decoder : Code -> Decoder Value}
    {next : Code -> Value -> Decoder Result} (first : Proceeds decoder)
    (second : forall value, Proceeds fun code => next code value) :
    Proceeds fun code => decoder code >>= next code where
  advances code place inside := by
    have before := first.advances code place inside
    rw [bind_eq]
    rcases fetched : decoder code place with ⟨fault | value, middle⟩
    · rw [fetched] at before
      exact before
    · rw [fetched] at before
      exact before.trans ((second value).advances code middle inside)
  determined code other place inside otherInside ending agree := by
    rw [bind_eq] at agree
    have before := first.determined code other place inside otherInside ending
    rw [bind_eq, bind_eq]
    rcases fetched : decoder code place with ⟨fault | value, middle⟩
    · rw [fetched] at agree before
      rw [before agree]
    · rw [fetched] at agree before
      have passed := first.advances code place inside
      rw [fetched] at passed
      have behind := (second value).advances code middle inside
      rw [before fun index least less => agree index least (Nat.lt_of_lt_of_le less behind.forward)]
      exact (second value).determined code other middle inside otherInside ending
        fun index least less => agree index (Nat.le_trans passed.forward least) less

theorem ite {Value : Type} {condition : Prop} [Decidable condition]
    {first second : Code -> Decoder Value} (holds : Proceeds first) (fails : Proceeds second) :
    Proceeds fun code => if condition then first code else second code := by
  by_cases decided : condition
  · simp only [if_pos decided]
    exact holds
  · simp only [if_neg decided]
    exact fails

end Proceeds

/-! ## Fetching -/

theorem fetchByte_inside {code : Code} (inside : code.IsInside) {place : Fetching}
    (before : place.position.toNat < code.ending) :
    exists byte, code.memory[place.position.toNat]? = some byte ∧
      fetchByte code place = (.ok byte, { place with position := place.position + 1 }) ∧
      (place.position + 1).toNat = place.position.toNat + 1 := by
  have within := inside.inside
  have addressable := inside.addressable
  have bound : place.position.toNat < code.memory.size := by omega
  have found := Array.getElem?_eq_getElem bound
  refine ⟨_, found, ?_, ?_⟩
  · simp only [fetchByte, if_neg (Nat.not_le.mpr before), found]
  · rw [UInt64.toNat_add]
    exact Nat.mod_eq_of_lt (by change place.position.toNat + 1 < _; omega)

theorem proceeds_fetchByte : Proceeds fetchByte where
  advances code place inside := by
    by_cases before : place.position.toNat < code.ending
    · rcases fetchByte_inside inside before with ⟨byte, found, fetched, next⟩
      rw [fetched]
      exact ⟨by simp only [next]; omega, Or.inr (by simp only [next]; omega), rfl⟩
    · simp only [fetchByte, if_pos (Nat.not_lt.mp before)]
      exact ⟨Nat.le_refl _, Or.inl rfl, rfl⟩
  determined code other place inside otherInside ending agree := by
    by_cases before : place.position.toNat < code.ending
    · rcases fetchByte_inside inside before with ⟨byte, found, fetched, next⟩
      rw [fetched] at agree
      have same := agree _ (Nat.le_refl _) (by simp only [next]; omega)
      simp only [fetchByte, ending, same]
    · simp only [fetchByte, ending, if_pos (Nat.not_lt.mp before)]

theorem proceeds_fetchBytes (count : Nat) : Proceeds fun code => fetchBytes code count := by
  induction count with
  | zero => exact Proceeds.pure []
  | succ count ih =>
      exact proceeds_fetchByte.bind fun byte => ih.bind fun bytes => Proceeds.pure (byte :: bytes)

theorem proceeds_fetchDword : Proceeds fetchDword :=
  (proceeds_fetchBytes 4).bind fun _ => Proceeds.pure _

theorem proceeds_fetchQword : Proceeds fetchQword :=
  (proceeds_fetchBytes 8).bind fun _ => Proceeds.pure _

theorem proceeds_fetchOperand (extension : Extension) :
    Proceeds fun code => fetchOperand code extension :=
  proceeds_fetchByte.bind fun _ => Proceeds.pure _

theorem proceeds_fetchRegisters (extension : Extension) (fault : Fault) :
    Proceeds fun code => fetchRegisters code extension fault :=
  (proceeds_fetchOperand extension).bind fun operand =>
    Proceeds.ite (Proceeds.pure operand) (Proceeds.throw fault)

theorem proceeds_fetchDistance (operand : OperandByte) :
    Proceeds fun code => fetchDistance code operand :=
  Proceeds.ite (Proceeds.position.bind fun _ => Proceeds.throw _)
    (Proceeds.ite (proceeds_fetchByte.bind fun _ => Proceeds.pure _)
      (Proceeds.ite (proceeds_fetchDword.bind fun _ => Proceeds.pure _) (Proceeds.pure _)))

theorem proceeds_fetchAddress (operand : OperandByte) :
    Proceeds fun code => fetchAddress code operand := by
  have distance := proceeds_fetchDistance operand
  by_cases indexed : operand.place.val % 8 = 4
  · simp only [fetchAddress, if_pos indexed]
    apply proceeds_fetchByte.bind
    intro index
    exact Proceeds.ite (Proceeds.position.bind fun _ => Proceeds.throw _) distance
  · simp only [fetchAddress, if_neg indexed]
    exact distance

/-! ## The tables of opcodes -/

theorem proceeds_secondTable (start : UInt64) (extension : Extension) :
    Proceeds fun code => secondTable code start extension := by
  have registers := fun instruction =>
    proceeds_fetchRegisters extension (.memoryOperand instruction start)
  apply proceeds_fetchByte.bind
  intro opcode
  refine Proceeds.ite (Proceeds.pure _) (Proceeds.ite ?multiply (Proceeds.ite ?zeroExtend
    (Proceeds.ite ?setByte (Proceeds.throw _))))
  case multiply => exact (registers .multiply).bind fun _ => Proceeds.pure _
  case zeroExtend => exact (registers .zeroExtend).bind fun _ => Proceeds.pure _
  case setByte => exact (registers .setByte).bind fun _ => Proceeds.pure _

theorem proceeds_firstTable (start : UInt64) (extension : Extension) (opcode : UInt8) :
    Proceeds fun code => firstTable code start extension opcode := by
  have registers := proceeds_fetchRegisters extension (.memoryOperand .arithmetic start)
  have operand := proceeds_fetchOperand extension
  unfold firstTable
  refine Proceeds.ite (Proceeds.pure _) (Proceeds.ite (Proceeds.pure _) (Proceeds.ite ?_ ?_))
  · exact Proceeds.ite (proceeds_fetchQword.bind fun _ => Proceeds.pure _)
      (proceeds_fetchDword.bind fun _ => Proceeds.pure _)
  · cases Arithmetic.ofOpcode? opcode with
    | some operation =>
        exact Proceeds.ite (registers.bind fun _ => Proceeds.pure _) (Proceeds.throw _)
    | none =>
        refine Proceeds.ite (Proceeds.ite ?constant (Proceeds.throw _))
          (Proceeds.ite ?store (Proceeds.ite ?read (Proceeds.ite ?storeConstant
            (Proceeds.ite (Proceeds.pure _) (Proceeds.ite (Proceeds.pure _)
              (Proceeds.ite ?group (Proceeds.ite (proceeds_secondTable start extension)
                (Proceeds.throw _))))))))
        case constant =>
          refine registers.bind fun fields => proceeds_fetchDword.bind fun bits => ?_
          cases Arithmetic.ofExtension? fields.field with
          | some operation => exact Proceeds.pure _
          | none => exact Proceeds.position.bind fun _ => Proceeds.throw _
        case store =>
          refine operand.bind fun fields => Proceeds.ite (Proceeds.pure _) ?_
          exact (proceeds_fetchAddress fields).bind fun _ => Proceeds.pure _
        case read =>
          refine operand.bind fun fields => Proceeds.ite (Proceeds.pure _) ?_
          exact (proceeds_fetchAddress fields).bind fun _ => Proceeds.pure _
        case storeConstant =>
          refine operand.bind fun fields => Proceeds.ite ?_ ?_
          · exact proceeds_fetchDword.bind fun _ => Proceeds.pure _
          · exact (proceeds_fetchAddress fields).bind fun _ =>
              proceeds_fetchDword.bind fun _ => Proceeds.pure _
        case group =>
          exact operand.bind fun fields => Proceeds.ite (Proceeds.pure _) (Proceeds.throw _)

/-- What is decoded behind the first byte of an instruction. -/
def behindFirst (code : Code) (start : UInt64) (first : UInt8) : Decoder Operation := do
  if first &&& 0xF0 = 0x40 then
    firstTable code start ⟨first⟩ (<- fetchByte code)
  else
    firstTable code start ⟨0⟩ first

theorem proceeds_behindFirst (start : UInt64) (first : UInt8) :
    Proceeds fun code => behindFirst code start first :=
  Proceeds.ite (proceeds_fetchByte.bind fun opcode => proceeds_firstTable start ⟨first⟩ opcode)
    (proceeds_firstTable start ⟨0⟩ first)

theorem proceeds_operation : Proceeds Decoder.operation :=
  Proceeds.position.bind fun start => proceeds_fetchByte.bind fun first =>
    proceeds_behindFirst start first

/-- An instruction that starts before the end of the code takes at least its first byte. -/
theorem operation_advances {code : Code} (inside : code.IsInside) (place : Fetching)
    (before : place.position.toNat < code.ending) :
    place.position.toNat < (Decoder.operation code place).2.position.toNat := by
  rcases fetchByte_inside inside before with ⟨byte, found, fetched, next⟩
  have split : Decoder.operation code place =
      behindFirst code place.position byte { place with position := place.position + 1 } := by
    change (fetchByte code >>= behindFirst code place.position) place = _
    rw [bind_run fetched]
  have forward := ((proceeds_behindFirst place.position byte).advances code
    { place with position := place.position + 1 } inside).forward
  simp only [next] at forward
  rw [split]
  omega

end Decoder
end LoxNative
