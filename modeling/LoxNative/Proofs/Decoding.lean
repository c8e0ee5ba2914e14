import Mathlib
import LoxNative.Machine.Decoding
import LoxNative.Machine.Encoding
import LoxNative.Proofs.LittleEndian

namespace LoxNative

/-!
# Decoding undoes encoding

An operation that stands encoded in the code is decoded as itself, and exactly its bytes are
consumed.  The encoder and the decoder are two separate case distinctions over register bits,
operand bytes and distances, so this is proved form by form.

Decoders are composed in the same way as the bytes they consume.  `Decoder.Yields` says that a
decoder finds a value in given bytes and moves exactly behind them, and each step of a decoder has
one rule for it.  The facts about single bytes range over finitely many register numbers and are
decided by evaluation.
-/

/-- The bytes stand at a position, all of them in front of the end of the code.  The end of the code
lies inside memory, and every place of memory has a 64-bit address. -/
structure Code.Holds (code : Code) (position : UInt64) (bytes : List UInt8) : Prop where
  below : position.toNat + bytes.length ≤ code.ending
  inside : code.ending ≤ code.memory.size
  addressable : code.memory.size < 0x10000000000000000
  listed : forall index, index < bytes.length ->
    code.memory[position.toNat + index]? = bytes[index]?

namespace Code.Holds

variable {code : Code} {position : UInt64}

theorem toNat_behind {bytes : List UInt8} (holds : code.Holds position bytes) :
    (position + UInt64.ofNat bytes.length).toNat = position.toNat + bytes.length := by
  have below := holds.below
  have inside := holds.inside
  have addressable := holds.addressable
  rw [UInt64.toNat_add, UInt64.toNat_ofNat']
  omega

theorem left {first second : List UInt8} (holds : code.Holds position (first ++ second)) :
    code.Holds position first where
  below := by
    have below := holds.below
    rw [List.length_append] at below
    omega
  inside := holds.inside
  addressable := holds.addressable
  listed := by
    intro index inFirst
    rw [holds.listed index (by rw [List.length_append]; omega), List.getElem?_append_left inFirst]

theorem right {first second : List UInt8} (holds : code.Holds position (first ++ second)) :
    code.Holds (position + UInt64.ofNat first.length) second where
  below := by
    have below := holds.below
    rw [List.length_append] at below
    rw [holds.left.toNat_behind]
    omega
  inside := holds.inside
  addressable := holds.addressable
  listed := by
    intro index inSecond
    rw [holds.left.toNat_behind, Nat.add_assoc,
      holds.listed _ (by rw [List.length_append]; omega),
      List.getElem?_append_right (Nat.le_add_right _ _), Nat.add_sub_cancel_left]

end Code.Holds

namespace Decoder

open Encoding

/-! ## Rules for the steps of a decoder -/

/-- Wherever the bytes stand, the decoder finds the value and moves behind them.  Neither an overrun
nor a crash is noted on the way. -/
def Yields {Value : Type} (code : Code) (bytes : List UInt8) (decoder : Decoder Value)
    (value : Value) : Prop :=
  forall place : Fetching, code.Holds place.position bytes ->
    decoder place =
      (.ok value, { place with position := place.position + UInt64.ofNat bytes.length })

variable {code : Code}

theorem bind_run {Value Result : Type} {decoder : Decoder Value} {place after : Fetching}
    {value : Value} (first : decoder place = (.ok value, after)) (next : Value -> Decoder Result) :
    (decoder >>= next) place = next value after := by
  change (ExceptT.bindCont next (decoder place).1 : StateM Fetching _) (decoder place).2 = _
  rw [first]
  rfl

namespace Yields

theorem pure {Value : Type} (value : Value) :
    Yields code [] (Pure.pure value : Decoder Value) value := by
  intro place _
  change (Except.ok value, place) = _
  simp

theorem bind {Value Result : Type} {first second : List UInt8} {decoder : Decoder Value}
    {next : Value -> Decoder Result} {value : Value} {result : Result}
    (head : Yields code first decoder value) (tail : Yields code second (next value) result) :
    Yields code (first ++ second) (decoder >>= next) result := by
  intro place holds
  rw [bind_run (head place holds.left), tail _ holds.right, List.length_append, UInt64.ofNat_add,
    UInt64.add_assoc]

theorem map {Value Result : Type} {bytes : List UInt8} {decoder : Decoder Value} {value : Value}
    (head : Yields code bytes decoder value) (function : Value -> Result) :
    Yields code bytes (do return function (<- decoder)) (function value) := by
  intro place holds
  rw [bind_run (head place holds)]
  rfl

theorem position {Result : Type} {bytes : List UInt8} {next : UInt64 -> Decoder Result}
    {result : Result} (tail : forall start, Yields code bytes (next start) result) :
    Yields code bytes (Decoder.position >>= next) result := by
  intro place holds
  exact tail place.position place holds

end Yields

theorem yields_fetchByte (byte : UInt8) : Yields code [byte] (fetchByte code) byte := by
  intro place holds
  have below := holds.below
  have found := holds.listed 0 (by simp)
  simp only [List.length_singleton, Nat.add_zero] at below found
  have notBehind : ¬ code.ending ≤ place.position.toNat := by omega
  simp [fetchByte, notBehind, found]

/-- The byte at the head is what the first fetch finds. -/
theorem Yields.byte {Result : Type} (byte : UInt8) {rest : List UInt8}
    {next : UInt8 -> Decoder Result} {result : Result}
    (tail : Yields code rest (next byte) result) :
    Yields code (byte :: rest) (fetchByte code >>= next) result :=
  (yields_fetchByte byte).bind tail

theorem yields_fetchBytes (bytes : List UInt8) :
    Yields code bytes (fetchBytes code bytes.length) bytes := by
  induction bytes with
  | nil => exact Yields.pure []
  | cons byte rest ih => exact Yields.byte byte (ih.map (List.cons byte))

theorem yields_fetchDword (bits : UInt32) :
    Yields code (LittleEndian.dword bits) (fetchDword code) bits := by
  have fetched : Yields code _ _ _ := (yields_fetchBytes (LittleEndian.dword bits)).map
    (fun bytes => UInt32.ofNat (LittleEndian.value bytes))
  rw [LittleEndian.value_dword] at fetched
  exact fetched

theorem yields_fetchQword (word : UInt64) :
    Yields code (LittleEndian.qword word) (fetchQword code) word := by
  have fetched : Yields code _ _ _ := (yields_fetchBytes (LittleEndian.qword word)).map
    (fun bytes => UInt64.ofNat (LittleEndian.value bytes))
  rw [LittleEndian.value_qword] at fetched
  exact fetched

/-- An instruction that begins with an extension byte. -/
theorem yields_extended {first opcode : UInt8} {rest : List UInt8} {operation : Operation}
    (extended : first &&& 0xF0 = 0x40)
    (body : forall start, Yields code rest (firstTable code start ⟨first⟩ opcode) operation) :
    Yields code (first :: opcode :: rest) (Decoder.operation code) operation := by
  refine Yields.position (fun start => Yields.byte first ?_)
  rw [if_pos extended]
  exact Yields.byte opcode (body start)

/-- An instruction that begins with its opcode. -/
theorem yields_plain {opcode : UInt8} {rest : List UInt8} {operation : Operation}
    (plain : opcode &&& 0xF0 ≠ 0x40)
    (body : forall start, Yields code rest (firstTable code start ⟨0⟩ opcode) operation) :
    Yields code (opcode :: rest) (Decoder.operation code) operation := by
  refine Yields.position (fun start => Yields.byte opcode ?_)
  rw [if_neg plain]
  exact body start

/-! ## Register numbers in extension and operand bytes -/

theorem extensionByte_marks : forall (wide : Bool) (register place : RegisterNumber),
    extensionByte wide (byteOf register) 0 (byteOf place) &&& 0xF0 = 0x40 ∧
      Extension.isWide ⟨extensionByte wide (byteOf register) 0 (byteOf place)⟩ = wide := by
  decide +kernel

theorem extensionByte_numbers : forall (wide : Bool) (register place : RegisterNumber),
    Extension.register ⟨extensionByte wide (byteOf register) 0 (byteOf place)⟩
        (byteOf register &&& 7) = register ∧
      Extension.place ⟨extensionByte wide (byteOf register) 0 (byteOf place)⟩
        (byteOf place &&& 7) = place ∧
      Extension.byteRegister ⟨extensionByte wide (byteOf register) 0 (byteOf place)⟩ place =
        .low place := by
  decide +kernel

theorem operandByte_fields : forall (mode : Fin 4) (register place : RegisterNumber),
    operandByte (UInt8.ofNat mode) (byteOf register) (byteOf place) >>> 6 = UInt8.ofNat mode ∧
      (operandByte (UInt8.ofNat mode) (byteOf register) (byteOf place) >>> 3) &&& 7 =
        byteOf register &&& 7 ∧
      operandByte (UInt8.ofNat mode) (byteOf register) (byteOf place) &&& 7 =
        byteOf place &&& 7 := by
  decide +kernel

theorem lowBits_idempotent (byte : UInt8) : (byte &&& 7) &&& 7 = byte &&& 7 := by
  rw [UInt8.and_assoc, UInt8.and_self]

/-- Only the three lowest bits of a byte name a register. -/
theorem place_eq_of_lowBits (extension : Extension) {first second : UInt8}
    (same : first &&& 7 = second &&& 7) : extension.place first = extension.place second := by
  unfold Extension.place
  rw [same]

theorem yields_operandByte (extension : Extension) (byte : UInt8) :
    Yields code [byte] (fetchOperand code extension)
      ⟨byte >>> 6, (byte >>> 3) &&& 7, extension.register ((byte >>> 3) &&& 7),
        extension.place byte⟩ :=
  Yields.byte byte (Yields.pure _)

theorem yields_fetchOperand (wide : Bool) (mode : Fin 4) (register place : RegisterNumber) :
    Yields code [operandByte (UInt8.ofNat mode) (byteOf register) (byteOf place)]
      (fetchOperand code ⟨extensionByte wide (byteOf register) 0 (byteOf place)⟩)
      ⟨UInt8.ofNat mode, byteOf register &&& 7, register, place⟩ := by
  rcases operandByte_fields mode register place with ⟨modeBits, fieldBits, placeBits⟩
  rcases extensionByte_numbers wide register place with ⟨registerNumber, placeNumber, _⟩
  have lowBits := placeBits.trans (lowBits_idempotent (byteOf place)).symm
  have fetched : Yields code _ _ _ := yields_operandByte
    ⟨extensionByte wide (byteOf register) 0 (byteOf place)⟩
    (operandByte (UInt8.ofNat mode) (byteOf register) (byteOf place))
  rw [modeBits, fieldBits, registerNumber, place_eq_of_lowBits _ lowBits, placeNumber] at fetched
  exact fetched

theorem yields_fetchRegisters (wide : Bool) (fault : Fault) (register place : RegisterNumber) :
    Yields code [operandByte 3 (byteOf register) (byteOf place)]
      (fetchRegisters code ⟨extensionByte wide (byteOf register) 0 (byteOf place)⟩ fault)
      ⟨3, byteOf register &&& 7, register, place⟩ :=
  (yields_fetchOperand wide 3 register place).bind (Yields.pure _)

/-! ## Operations on registers -/

theorem decode_move (destination source : RegisterNumber) :
    Yields code (Operation.move destination source).encode (Decoder.operation code)
      (.move destination source) := by
  refine yields_extended (extensionByte_marks true source destination).1 (fun start => ?_)
  exact (yields_fetchOperand true 3 source destination).bind (Yields.pure _)

theorem decode_multiply (destination source : RegisterNumber) :
    Yields code (Operation.multiply destination source).encode (Decoder.operation code)
      (.multiply destination source) := by
  refine yields_extended (extensionByte_marks true destination source).1 (fun start => ?_)
  refine Yields.byte 0xAF ?_
  exact (yields_fetchRegisters true _ destination source).bind (Yields.pure _)

theorem decode_divide (divisor : RegisterNumber) :
    Yields code (Operation.divide divisor).encode (Decoder.operation code) (.divide divisor) := by
  refine yields_extended (extensionByte_marks true 0 divisor).1 (fun start => ?_)
  exact (yields_fetchOperand true 3 6 divisor).bind (Yields.pure _)

theorem firstTable_arithmetic (start : UInt64) (extension : Extension) (operation : Arithmetic)
    (wide : extension.isWide = true) :
    firstTable code start extension operation.opcode = do
      let operand <- fetchRegisters code extension (.memoryOperand .arithmetic start)
      return .arithmetic operation operand.place (.register operand.register) := by
  cases operation <;> simp [firstTable, Arithmetic.opcode, Arithmetic.ofOpcode?, wide]

theorem decode_arithmetic_register (operation : Arithmetic) (destination source : RegisterNumber) :
    Yields code (Operation.arithmetic operation destination (.register source)).encode
      (Decoder.operation code) (.arithmetic operation destination (.register source)) := by
  rcases extensionByte_marks true source destination with ⟨extended, wide⟩
  refine yields_extended extended (fun start => ?_)
  rw [firstTable_arithmetic start _ operation wide]
  exact (yields_fetchRegisters true _ source destination).bind (Yields.pure _)

theorem decode_arithmetic_constant (operation : Arithmetic) (destination : RegisterNumber)
    (bits : UInt32) :
    Yields code (Operation.arithmetic operation destination (.constant bits)).encode
      (Decoder.operation code) (.arithmetic operation destination (.constant bits)) := by
  have wide : Extension.isWide ⟨extensionByte true 0 0 (byteOf destination)⟩ = true :=
    (extensionByte_marks true 0 destination).2
  refine yields_extended (extensionByte_marks true 0 destination).1 (fun start => ?_)
  simp only [firstTable, wide, if_true]
  cases operation with
  | add => exact (yields_fetchRegisters true _ 0 destination).bind ((yields_fetchDword bits).map _)
  | sub => exact (yields_fetchRegisters true _ 5 destination).bind ((yields_fetchDword bits).map _)
  | xor => exact (yields_fetchRegisters true _ 6 destination).bind ((yields_fetchDword bits).map _)
  | cmp => exact (yields_fetchRegisters true _ 7 destination).bind ((yields_fetchDword bits).map _)

theorem decode_zeroExtend (destination source : RegisterNumber) :
    Yields code (Operation.zeroExtend destination (.low source)).encode (Decoder.operation code)
      (.zeroExtend destination (.low source)) := by
  refine yields_extended (extensionByte_marks true destination source).1 (fun start => ?_)
  refine Yields.byte 0xB6 ((yields_fetchRegisters true _ destination source).bind ?_)
  have low := (extensionByte_numbers true destination source).2.2
  change Yields code [] (Pure.pure (Operation.zeroExtend destination
    (Extension.byteRegister ⟨extensionByte true (byteOf destination) 0 (byteOf source)⟩ source))) _
  rw [low]
  exact Yields.pure _

theorem decode_extendSign :
    Yields code Operation.extendSign.encode (Decoder.operation code) .extendSign :=
  yields_extended (by decide) (fun _ => Yields.pure _)

theorem decode_nothing : Yields code Operation.nothing.encode (Decoder.operation code) .nothing :=
  yields_plain (by decide) (fun _ => Yields.pure _)

theorem decode_systemCall :
    Yields code Operation.systemCall.encode (Decoder.operation code) .systemCall :=
  yields_plain (by decide) (fun _ => Yields.byte 0x05 (Yields.pure _))

/-! ## Register numbers inside opcodes -/

theorem opcode_with_number : forall opcode, opcode ∈ [0x50, 0x58, 0xB8] ->
    forall number : RegisterNumber,
    (opcode + (byteOf number &&& 7)) &&& 0xF0 ≠ 0x40 ∧
      (opcode + (byteOf number &&& 7)) &&& 7 = byteOf number &&& 7 ∧
      opcode ≤ opcode + (byteOf number &&& 7) ∧
      opcode + (byteOf number &&& 7) < opcode + 8 := by
  decide +kernel

theorem place_of_number : forall number : RegisterNumber,
    (8 ≤ number.val -> Extension.place ⟨0x41⟩ (byteOf number) = number) ∧
      (¬ 8 ≤ number.val -> Extension.place ⟨0⟩ (byteOf number) = number) := by
  decide

/-- An opcode that holds a register number names that register, with the extension byte or without
it.  The extension byte never selects the width here. -/
theorem yields_withRegister {opcode : UInt8} (listed : opcode ∈ [0x50, 0x58, 0xB8])
    (number : RegisterNumber) {rest : List UInt8} {operation : Operation}
    (body : forall start (extension : Extension) (byte : UInt8), extension.isWide = false ->
      extension.place byte = number -> opcode ≤ byte -> byte < opcode + 8 ->
      Yields code rest (firstTable code start extension byte) operation) :
    Yields code (withRegister opcode number ++ rest) (Decoder.operation code) operation := by
  rcases opcode_with_number opcode listed number with ⟨plain, lowBits, least, less⟩
  rcases place_of_number number with ⟨upper, lower⟩
  by_cases large : 8 ≤ number.val
  · rw [withRegister, if_pos large]
    refine yields_extended (by decide) (fun start => body start _ _ (by decide) ?_ least less)
    rw [place_eq_of_lowBits _ lowBits, upper large]
  · rw [withRegister, if_neg large]
    refine yields_plain plain (fun start => body start _ _ (by decide) ?_ least less)
    rw [place_eq_of_lowBits _ lowBits, lower large]

theorem decode_push (register : RegisterNumber) :
    Yields code (Operation.push register).encode (Decoder.operation code) (.push register) := by
  rw [Operation.encode, <- List.append_nil (withRegister _ _)]
  refine yields_withRegister (by decide) register
    (fun start extension byte _ named least less => ?_)
  rw [firstTable, if_pos ⟨least, less⟩, named]
  exact Yields.pure _

theorem decode_pop (register : RegisterNumber) :
    Yields code (Operation.pop register).encode (Decoder.operation code) (.pop register) := by
  rw [Operation.encode, <- List.append_nil (withRegister _ _)]
  refine yields_withRegister (by decide) register
    (fun start extension byte _ named least less => ?_)
  have notPush : ¬ (0x50 ≤ byte ∧ byte < 0x58) :=
    fun both => absurd both.2 (UInt8.not_lt.mpr least)
  rw [firstTable, if_neg notPush, if_pos ⟨least, less⟩, named]
  exact Yields.pure _

theorem firstTable_load (start : UInt64) (extension : Extension) (opcode : UInt8)
    (least : 0xB8 ≤ opcode) (less : opcode < 0xC0) :
    firstTable code start extension opcode =
      if extension.isWide then do return .load (extension.place opcode) (<- fetchQword code)
      else do return .load (extension.place opcode) (<- fetchDword code).toUInt64 := by
  have notPush : ¬ (0x50 ≤ opcode ∧ opcode < 0x58) :=
    fun both => absurd (UInt8.lt_of_le_of_lt least both.2) (by decide)
  have notPop : ¬ (0x58 ≤ opcode ∧ opcode < 0x60) :=
    fun both => absurd (UInt8.lt_of_le_of_lt least both.2) (by decide)
  rw [firstTable, if_neg notPush, if_neg notPop, if_pos ⟨least, less⟩]

theorem signExtended_toUInt32 (value : UInt64) (small : value.toNat < 0x80000000) :
    signExtended value.toUInt32 = value := by
  have unsigned : value.toUInt32.toNat = value.toNat := by
    rw [UInt64.toNat_toUInt32]
    omega
  have signed : value.toUInt32.toInt32.toInt64.toInt = value.toNat := by
    rw [Int32.toInt_toInt64, <- unsigned]
    change value.toUInt32.toBitVec.toInt = _
    exact BitVec.toInt_eq_toNat_of_lt (by rw [UInt32.toNat_toBitVec]; omega)
  have nonnegative : 0 ≤ value.toUInt32.toInt32.toInt64 := by
    rw [Int64.le_iff_toInt_le, signed]
    exact Int.natCast_nonneg _
  apply UInt64.toNat_inj.mp
  rw [signExtended, Int64.toNat_toUInt64_of_le nonnegative, <- Int64.toNat_toInt, signed,
    Int.toNat_natCast]

theorem toUInt64_toUInt32 (value : UInt64) (small : value.toNat < 0x100000000) :
    value.toUInt32.toUInt64 = value := by
  apply UInt64.toNat_inj.mp
  rw [UInt32.toNat_toUInt64, UInt64.toNat_toUInt32]
  omega

theorem decode_load (register : RegisterNumber) (value : UInt64) :
    Yields code (Operation.load register value).encode (Decoder.operation code)
      (.load register value) := by
  rw [Operation.encode]
  split
  · -- The form that extends the sign.
    rename_i small
    refine yields_extended (extensionByte_marks true 0 register).1 (fun start => ?_)
    refine (yields_fetchOperand true 3 0 register).bind ?_
    have loaded : Yields code _ _ _ := (yields_fetchDword value.toUInt32).map
      (fun bits => Operation.load register (signExtended bits))
    rw [signExtended_toUInt32 value small] at loaded
    exact loaded
  · split
    · -- The form that clears the upper half.
      rename_i small
      refine yields_withRegister (by decide) register
        (fun start extension byte narrow named least less => ?_)
      rw [firstTable_load start extension byte least less, narrow, named]
      have loaded : Yields code _ _ _ := (yields_fetchDword value.toUInt32).map
        (fun bits => Operation.load register bits.toUInt64)
      rw [toUInt64_toUInt32 value small] at loaded
      exact loaded
    · -- The form with eight bytes.
      rcases opcode_with_number 0xB8 (by decide) register with ⟨_, lowBits, least, less⟩
      have wide : Extension.isWide ⟨extensionByte true 0 0 (byteOf register)⟩ = true :=
        (extensionByte_marks true 0 register).2
      have named : Extension.place ⟨extensionByte true 0 0 (byteOf register)⟩
          (0xB8 + (byteOf register &&& 7)) = register := by
        rw [place_eq_of_lowBits _ (lowBits.trans (lowBits_idempotent _).symm)]
        exact (extensionByte_numbers true 0 register).2.1
      refine yields_extended (extensionByte_marks true 0 register).1 (fun start => ?_)
      rw [firstTable_load start _ _ least less, if_pos wide, named]
      exact (yields_fetchQword value).map _

/-! ## Bytes of registers -/

theorem condition_opcode : forall condition : ConditionCode,
    0x90 ||| UInt8.ofNat condition ≠ 0x05 ∧ 0x90 ||| UInt8.ofNat condition ≠ 0xAF ∧
      0x90 ||| UInt8.ofNat condition ≠ 0xB6 ∧
      (0x90 ≤ 0x90 ||| UInt8.ofNat condition ∧ 0x90 ||| UInt8.ofNat condition < 0xA0) ∧
      Fin.ofNat 16 ((0x90 ||| UInt8.ofNat condition) - 0x90).toNat = condition := by
  decide

theorem yields_setByte (start : UInt64) (extension : Extension) (condition : ConditionCode)
    {byte : UInt8} {operand : OperandByte}
    (fetched : Yields code [byte]
      (fetchRegisters code extension (.memoryOperand .setByte start)) operand) :
    Yields code [0x90 ||| UInt8.ofNat condition, byte] (secondTable code start extension)
      (.setByte condition (extension.byteRegister operand.place)) := by
  rcases condition_opcode condition with ⟨notCall, notProduct, notExtension, inside, number⟩
  refine Yields.byte _ ?_
  rw [if_neg notCall, if_neg notProduct, if_neg notExtension, if_pos inside, number]
  exact fetched.map
    (fun operand => Operation.setByte condition (extension.byteRegister operand.place))

/-- A byte register that needs no extension byte is named without one.  The numbers from four on
then mean second bytes. -/
theorem operandByte_plain (destination : ByteRegister)
    (plain : destination.needsExtension = false) :
    operandByte 3 0 destination.code >>> 6 = 3 ∧
      Extension.byteRegister ⟨0⟩ (Extension.place ⟨0⟩ (operandByte 3 0 destination.code)) =
        destination := by
  revert plain
  cases destination with
  | low number => revert number; decide
  | high number => revert number; decide

theorem decode_setByte (condition : ConditionCode) (destination : ByteRegister) :
    Yields code (Operation.setByte condition destination).encode (Decoder.operation code)
      (.setByte condition destination) := by
  cases extended : destination.needsExtension with
  | true =>
      cases destination with
      | high number => cases extended
      | low number =>
          rw [Operation.encode, if_pos extended]
          refine yields_extended (extensionByte_marks false 0 number).1 (fun start => ?_)
          have named : Yields code _ _ _ := yields_setByte start _ condition
            (yields_fetchRegisters false (.memoryOperand .setByte start) 0 number)
          rw [(extensionByte_numbers false 0 number).2.2] at named
          exact named
  | false =>
      rcases operandByte_plain destination extended with ⟨modeBits, named⟩
      rw [Operation.encode, if_neg (by rw [extended]; exact Bool.false_ne_true)]
      refine yields_plain (by decide) (fun start => ?_)
      have operand : Yields code _ _ _ := yields_operandByte ⟨0⟩ (operandByte 3 0 destination.code)
      have registers : Yields code _
          (fetchRegisters code ⟨0⟩ (.memoryOperand .setByte start)) _ :=
        operand.bind (by rw [if_pos modeBits]; exact Yields.pure _)
      have set := yields_setByte start _ condition registers
      rw [named] at set
      exact set

/-! ## Places in memory -/

/-- The mode with which an address is encoded. -/
def addressMode (address : Address) : Fin 4 :=
  if address.displacement = 0 ∧ byteOf address.base &&& 7 ≠ 5 then 0
  else if -128 ≤ address.displacement ∧ address.displacement ≤ 127 then 1
  else 2

/-- The bytes of the distance of an address. -/
def distanceBytes (address : Address) : List UInt8 :=
  if addressMode address = 1 then LittleEndian.bytes 1 address.displacement.toUInt32.toNat
  else if addressMode address = 2 then LittleEndian.dword address.displacement.toUInt32
  else []

/-- The byte that a base with the low bits of `rsp` needs. -/
def indexBytes (base : RegisterNumber) : List UInt8 :=
  if base.val % 8 = 4 then [0x24] else []

theorem lowBits_of_number : forall number : RegisterNumber,
    (byteOf number &&& 7 = 4 <-> number.val % 8 = 4) ∧
      (byteOf number &&& 7 = 5 <-> number.val % 8 = 5) := by
  decide

theorem onMemory_eq (opcode register : UInt8) (address : Address) :
    onMemory opcode register address =
      extensionByte true register 0 (byteOf address.base) :: opcode ::
        operandByte (UInt8.ofNat (addressMode address)) register (byteOf address.base) ::
          (indexBytes address.base ++ distanceBytes address) := by
  have index :
      (if byteOf address.base &&& 7 = 4 then [0x24] else []) = indexBytes address.base := by
    rw [indexBytes]
    simp only [(lowBits_of_number address.base).1]
  unfold onMemory distanceBytes addressMode
  dsimp only
  rw [index]
  split
  · rfl
  · split <;> rfl

theorem byte_distance (displacement : Int32) (least : -128 ≤ displacement)
    (greatest : displacement ≤ 127) :
    (UInt8.ofNat (displacement.toUInt32.toNat % 256)).toInt8.toInt32 = displacement := by
  have least : -128 ≤ displacement.toInt := Int32.le_iff_toInt_le.mp least
  have greatest : displacement.toInt ≤ 127 := Int32.le_iff_toInt_le.mp greatest
  have signed : displacement.toInt = (displacement.toUInt32.toNat : Int).bmod (2 ^ 32) :=
    BitVec.toInt_eq_toNat_bmod _
  apply Int32.toInt_inj.mp
  rw [Int8.toInt_toInt32, UInt8.toInt8_ofNat', Int8.toInt_ofNat']
  simp only [Int.bmod_def, Int8.size] at signed ⊢
  omega

/-- What is fetched of an address behind the further byte of `rsp`. -/
def fetchDistance (code : Code) (operand : OperandByte) : Decoder Address := do
  if operand.mode = 0 ∧ operand.place.val % 8 = 5 then
    throw (.relativeAddress (<- Decoder.position))
  else if operand.mode = 1 then
    return ⟨operand.place, (<- fetchByte code).toInt8.toInt32⟩
  else if operand.mode = 2 then
    return ⟨operand.place, (<- fetchDword code).toInt32⟩
  else
    return ⟨operand.place, 0⟩

theorem yields_fetchDistance (address : Address) (field : UInt8) (register : RegisterNumber) :
    Yields code (distanceBytes address)
      (fetchDistance code ⟨UInt8.ofNat (addressMode address), field, register, address.base⟩)
      address := by
  rcases address with ⟨base, displacement⟩
  unfold distanceBytes addressMode
  split
  · rename_i none
    have notFrame : ¬ base.val % 8 = 5 := fun same => none.2 ((lowBits_of_number base).2.mpr same)
    obtain rfl : displacement = 0 := none.1
    simp only [fetchDistance, notFrame]
    exact Yields.pure _
  · split
    · rename_i short
      have distance := byte_distance displacement short.1 short.2
      have fetched : Yields code _ _ _ := (yields_fetchByte
        (UInt8.ofNat (displacement.toUInt32.toNat % 256))).map
        (fun byte => Address.mk base byte.toInt8.toInt32)
      rw [distance] at fetched
      exact fetched
    · exact (yields_fetchDword displacement.toUInt32).map
        (fun bits => Address.mk base bits.toInt32)

theorem yields_fetchAddress {operand : OperandByte} {bytes : List UInt8} {address : Address}
    (distance : Yields code bytes (fetchDistance code operand) address) :
    Yields code (indexBytes operand.place ++ bytes) (fetchAddress code operand) address := by
  by_cases indexed : operand.place.val % 8 = 4
  · rw [indexBytes, if_pos indexed]
    simp only [fetchAddress, if_pos indexed]
    exact Yields.byte 0x24 distance
  · rw [indexBytes, if_neg indexed]
    simp only [fetchAddress, if_neg indexed]
    exact distance

theorem addressMode_ne (address : Address) : UInt8.ofNat (addressMode address) ≠ 3 := by
  unfold addressMode
  split
  · decide
  · split <;> decide

theorem yields_place (register : RegisterNumber) (address : Address) :
    Yields code (indexBytes address.base ++ distanceBytes address)
      (fetchAddress code ⟨UInt8.ofNat (addressMode address), byteOf register &&& 7, register,
        address.base⟩) address :=
  yields_fetchAddress (yields_fetchDistance address _ register)

theorem decode_read (destination : RegisterNumber) (address : Address) :
    Yields code (Operation.read destination address).encode (Decoder.operation code)
      (.read destination address) := by
  rw [Operation.encode, onMemory_eq]
  refine yields_extended (extensionByte_marks true destination address.base).1 (fun start => ?_)
  refine (yields_fetchOperand true (addressMode address) destination address.base).bind ?_
  rw [if_neg (addressMode_ne address)]
  exact (yields_place destination address).map _

theorem decode_write (address : Address) (source : RegisterNumber) :
    Yields code (Operation.write address source).encode (Decoder.operation code)
      (.write address source) := by
  rw [Operation.encode, onMemory_eq]
  refine yields_extended (extensionByte_marks true source address.base).1 (fun start => ?_)
  refine (yields_fetchOperand true (addressMode address) source address.base).bind ?_
  rw [if_neg (addressMode_ne address)]
  exact (yields_place source address).map (fun address => Operation.write address source)

theorem decode_writeConstant (address : Address) (bits : UInt32) :
    Yields code (Operation.writeConstant address bits).encode (Decoder.operation code)
      (.writeConstant address bits) := by
  rw [Operation.encode, onMemory_eq]
  refine yields_extended (extensionByte_marks true 0 address.base).1 (fun start => ?_)
  refine (yields_fetchOperand true (addressMode address) 0 address.base).bind ?_
  rw [if_neg (addressMode_ne address)]
  exact (yields_place 0 address).bind ((yields_fetchDword bits).map _)

end Decoder

/-! ## All operations -/

/-- Whether an operation has an encoding of its own.  Zero extension needs an extension byte for its
width, and behind one no second byte of a register can be named. -/
def Operation.IsExpressible : Operation -> Prop
  | zeroExtend _ (.high _) => False
  | _ => True

/-- Decoding an encoded operation gives the operation back and consumes exactly its bytes. -/
theorem Decoder.decode_encode (code : Code) (operation : Operation)
    (expressible : operation.IsExpressible) :
    Decoder.Yields code operation.encode (Decoder.operation code) operation := by
  cases operation with
  | push register => exact decode_push register
  | pop register => exact decode_pop register
  | load register value => exact decode_load register value
  | move destination source => exact decode_move destination source
  | read destination address => exact decode_read destination address
  | write address source => exact decode_write address source
  | writeConstant address bits => exact decode_writeConstant address bits
  | arithmetic operation destination source =>
      cases source with
      | register source => exact decode_arithmetic_register operation destination source
      | constant bits => exact decode_arithmetic_constant operation destination bits
  | multiply destination source => exact decode_multiply destination source
  | divide divisor => exact decode_divide divisor
  | zeroExtend destination source =>
      cases source with
      | low source => exact decode_zeroExtend destination source
      | high source => exact False.elim expressible
  | setByte condition destination => exact decode_setByte condition destination
  | extendSign => exact decode_extendSign
  | nothing => exact decode_nothing
  | systemCall => exact decode_systemCall

end LoxNative
