namespace LoxNative
namespace Text

/-!
# Numerals

Assembly text writes integers in four bases.  `0x`, `0b` and `0o` announce the base in either case
of the letter, a plain leading zero means octal, and anything else is decimal.  An underscore may
stand between two digits, or between the announcement and the first digit.

The same module shows numbers in hexadecimal capitals, which is how addresses appear in messages.
-/

/-- The value of a digit in any base up to thirty-six. -/
def digitValue? (c : Char) : Option Nat :=
  if c.isDigit then some (c.toNat - 0x30)
  else if c.isAlpha then some (c.toLower.toNat - 0x61 + 10)
  else none

/-- A numeral cut into its base and its digits. -/
structure Numeral where
  base : Nat
  /-- Whether the base was announced by a letter, which an underscore may follow. -/
  announced : Bool
  digits : List Char

/-- Find the base of a numeral.  An announcement needs at least one character behind it; a leading
zero without one stays among the digits, where it changes nothing. -/
def Numeral.ofChars : List Char -> Numeral
  | '0' :: mark :: next :: rest =>
      if mark.toLower = 'b' then ⟨2, true, next :: rest⟩
      else if mark.toLower = 'o' then ⟨8, true, next :: rest⟩
      else if mark.toLower = 'x' then ⟨16, true, next :: rest⟩
      else ⟨8, false, '0' :: mark :: next :: rest⟩
  | '0' :: rest => ⟨8, false, '0' :: rest⟩
  | digits => ⟨10, false, digits⟩

/-- Whether every underscore follows a digit, or the announcement, and precedes a digit.  The flag
tells whether an underscore may come next. -/
def wellSeparated : Bool -> List Char -> Bool
  | mayFollow, [] => mayFollow
  | mayFollow, c :: rest =>
      if c = '_' then mayFollow && wellSeparated false rest else wellSeparated true rest

/-- The value of digits behind those already read, or nothing at a character that is neither an
underscore nor a digit of the base. -/
def digitsValue? (base : Nat) (read : Nat) : List Char -> Option Nat
  | [] => some read
  | c :: rest =>
      if c = '_' then digitsValue? base read rest
      else
        match digitValue? c with
        | some digit => if digit < base then digitsValue? base (read * base + digit) rest else none
        | none => none

/-- Read an unsigned integer below `limit`. -/
def readUnsigned (limit : Nat) (text : List Char) : Option Nat :=
  let numeral := Numeral.ofChars text
  if wellSeparated numeral.announced numeral.digits then
    (digitsValue? numeral.base 0 numeral.digits).filter (· < limit)
  else
    none

/-- Read an integer with an optional sign, from `-limit` up to but not including `limit`. -/
def readSigned (limit : Nat) (text : List Char) : Option Int :=
  match text with
  | '-' :: magnitude => (readUnsigned (limit + 1) magnitude).map fun value => -(value : Int)
  | '+' :: magnitude => (readUnsigned limit magnitude).map Int.ofNat
  | magnitude => (readUnsigned limit magnitude).map Int.ofNat

/-- A number in hexadecimal capitals. -/
def hexCapitals (number : Nat) : String :=
  String.ofList ((Nat.toDigits 16 number).map Char.toUpper)

/-- A byte in hexadecimal capitals, always two of them. -/
def hexByte (byte : UInt8) : String :=
  String.ofList ((if byte < 0x10 then ['0'] else []) ++
    (Nat.toDigits 16 byte.toNat).map Char.toUpper)

end Text
end LoxNative
