import LoxNative.Machine.Operation

namespace LoxNative

/-!
# Flags and arithmetic on words

The four arithmetic flags, what the two-operand operations make of them, and the tests on them.  All
words have 64 bits and all operations wrap around.
-/

/-- The arithmetic flags. -/
structure Flags where
  zero : Bool := false
  sign : Bool := false
  carry : Bool := false
  overflow : Bool := false
deriving DecidableEq, Inhabited

namespace Flags

/-- The topmost bit of a word. -/
def topBit (word : UInt64) : Bool :=
  word >>> 63 != 0

/-- The flags of a result, with the carry and the overflow that produced it. -/
def ofResult (result : UInt64) (carry overflow : Bool) : Flags :=
  ⟨result == 0, topBit result, carry, overflow⟩

/-- The test with a number.  An odd number negates the test before it.  The tests on parity have no
flag to look at and are not supported. -/
def holds? (flags : Flags) (code : ConditionCode) : Option Bool :=
  let test : Option Bool :=
    match code.val / 2 with
    | 0 => some flags.overflow
    | 1 => some flags.carry
    | 2 => some flags.zero
    | 3 => some (flags.carry || flags.zero)
    | 4 => some flags.sign
    | 6 => some (flags.sign != flags.overflow)
    | 7 => some (flags.zero || flags.sign != flags.overflow)
    | _ => none
  test.map fun holds => if code.val % 2 = 1 then !holds else holds

end Flags

namespace Arithmetic

/-- The result of an operation on two words and the flags it leaves. -/
def apply (operation : Arithmetic) (left right : UInt64) : UInt64 × Flags :=
  match operation with
  | add =>
      let result := left + right
      (result, .ofResult result (result < left)
        (Flags.topBit (~~~(left ^^^ right) &&& (left ^^^ result))))
  | sub | cmp =>
      let result := left - right
      (result, .ofResult result (left < right)
        (Flags.topBit ((left ^^^ right) &&& (left ^^^ result))))
  | xor =>
      let result := left ^^^ right
      (result, .ofResult result false false)

/-- Whether the result is kept, and not only its flags. -/
def keepsResult : Arithmetic -> Bool
  | cmp => false
  | _ => true

end Arithmetic

/-- The quotient of two signed words.  There is none by zero, and the quotient of the least word by
minus one wraps around. -/
def signedQuotient? (dividend divisor : Int64) : Option Int64 :=
  if divisor = 0 then none else some (dividend / divisor)

/-- The wrapped product of two signed words, and whether it lost anything.  A product that is
divisible by its first factor with the second as the quotient has lost nothing, with one exception:
the quotient of the least word by minus one wraps around itself. -/
def signedProduct? (left right : Int64) : Option (Int64 × Bool) :=
  let product := left * right
  if left = 0 then
    some (product, false)
  else
    (signedQuotient? product left).map fun quotient =>
      (product, quotient != right || (left == -1 && right == Int64.minValue))

/-- The quotient and the remainder of a double word by a word.  There are none by zero, or if the
quotient does not fit a word. -/
def doubleQuotient? (upper lower divisor : UInt64) : Option (UInt64 × UInt64) :=
  let dividend := upper.toNat * 0x10000000000000000 + lower.toNat
  if divisor = 0 ∨ 0x10000000000000000 ≤ dividend / divisor.toNat then
    none
  else
    some (UInt64.ofNat (dividend / divisor.toNat), UInt64.ofNat (dividend % divisor.toNat))

end LoxNative
