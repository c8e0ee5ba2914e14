namespace LoxNative
namespace LittleEndian

/-!
# Little-endian numbers

Numbers as sequences of bytes, least significant byte first.  Instructions, memory, object files and
executables all use this order.
-/

/-- The lowest `count` bytes of a number. -/
def bytes : Nat -> Nat -> List UInt8
  | 0, _ => []
  | count + 1, number => UInt8.ofNat (number % 256) :: bytes count (number / 256)

/-- The number that a sequence of bytes denotes. -/
def value : List UInt8 -> Nat
  | [] => 0
  | byte :: rest => byte.toNat + 256 * value rest

/-- The four bytes of a double word. -/
def dword (number : UInt32) : List UInt8 :=
  bytes 4 number.toNat

/-- The eight bytes of a quadword. -/
def qword (number : UInt64) : List UInt8 :=
  bytes 8 number.toNat

end LittleEndian
end LoxNative
