import LoxNative.Text.Printable

namespace LoxNative
namespace Text

/-!
# Quoted text

A text between double quotes, in which the quote and the backslash carry a backslash, the seven
common controls have their letters, and every other unprintable character is written by its number:
two hexadecimal digits for an ASCII control, four for a character of the basic plane, and eight
beyond it.
-/

/-- The hexadecimal digits of a number in lower case, with zeros in front up to the given width. -/
def paddedHex (width number : Nat) : List Char :=
  let digits := Nat.toDigits 16 number
  List.replicate (width - digits.length) '0' ++ digits

/-- One character as it stands between quotes. -/
def quotedChar (c : Char) : List Char :=
  if c = '"' ∨ c = '\\' then ['\\', c]
  else if isPrintable c then [c]
  else if c.toNat = 0x07 then ['\\', 'a']
  else if c.toNat = 0x08 then ['\\', 'b']
  else if c.toNat = 0x0C then ['\\', 'f']
  else if c = '\n' then ['\\', 'n']
  else if c = '\r' then ['\\', 'r']
  else if c = '\t' then ['\\', 't']
  else if c.toNat = 0x0B then ['\\', 'v']
  else if c.toNat < 0x80 then '\\' :: 'x' :: paddedHex 2 c.toNat
  else if c.toNat < 0x10000 then '\\' :: 'u' :: paddedHex 4 c.toNat
  else '\\' :: 'U' :: paddedHex 8 c.toNat

/-- A text between double quotes. -/
def quoted (text : String) : String :=
  String.ofList ('"' :: text.toList.flatMap quotedChar ++ ['"'])

end Text
end LoxNative
