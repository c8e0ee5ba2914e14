import LoxNative.LittleEndian
import LoxNative.Text.Numeral

namespace LoxNative
namespace ObjectFile

/-!
# Object files

Machine code with the offset at which it starts: four letters, the offset as a double word, and the
code.  Reading accepts exactly what writing produces from an offset inside the code.
-/

/-- The letters that every object file begins with. -/
def mark : List UInt8 := [0x43, 0x4C, 0x58, 0x4F]

/-- Why bytes are not an object file. -/
inductive Error
  | notObject
  | entryOutside (entry : UInt32) (length : Nat)
deriving DecidableEq, Inhabited

/-- The wording of an error. -/
def Error.message : Error -> String
  | notObject => "not a builtin object"
  | entryOutside entry length =>
      s!"entry offset 0x{Text.hexCapitals entry.toNat} outside {length} bytes of code"

/-- Pack code and its entry offset. -/
def encode (code : List UInt8) (entry : UInt32) : List UInt8 :=
  mark ++ LittleEndian.dword entry ++ code

/-- Unpack code and its entry offset. -/
def decode (bytes : List UInt8) : Except Error (List UInt8 × UInt32) :=
  if bytes.length < 8 ∨ bytes.take 4 ≠ mark then
    .error .notObject
  else
    let entry := UInt32.ofNat (LittleEndian.value ((bytes.drop 4).take 4))
    let code := bytes.drop 8
    if code.length ≤ entry.toNat then
      .error (.entryOutside entry code.length)
    else
      .ok (code, entry)

end ObjectFile
end LoxNative
