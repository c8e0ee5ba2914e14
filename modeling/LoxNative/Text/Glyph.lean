namespace LoxNative
namespace Text

/-!
# Text read from bytes

A file is a sequence of bytes and need not be well-formed UTF-8.  Reading it gives one glyph for
each character, and one for each byte that does not begin a well-formed sequence; reading then goes
on with the very next byte.  Overlong forms, surrogates and values beyond the last code point are
not well formed.

Most of the library only wants characters, and shows a stray byte as the replacement character.  The
assembler keeps the glyphs, because removing the blanks inside brackets can bring stray bytes
together that form a character, see `rejoin`.
-/

/-- One unit of text read from bytes: a character, or a byte that belongs to none. -/
inductive Glyph
  | char (c : Char)
  | stray (byte : UInt8)
deriving DecidableEq, Inhabited

/-- The character shown for a byte that belongs to no character. -/
def replacement : Char := '\uFFFD'

/-- The character a glyph stands for when text is shown. -/
def Glyph.shown : Glyph -> Char
  | .char c => c
  | .stray _ => replacement

/-- The character of a glyph that is one. -/
def Glyph.char? : Glyph -> Option Char
  | .char c => some c
  | .stray _ => none

/-- The six payload bits of a continuation byte. -/
def continuation? (byte : UInt8) : Option Nat :=
  if byte &&& 0xC0 = 0x80 then some (byte &&& 0x3F).toNat else none

/-- The character with a code point, unless a shorter sequence would have sufficed for it or it is
not a scalar value. -/
def scalar? (least code : Nat) : Option Char :=
  if valid : least ≤ code ∧ code.isValidChar then some (Char.ofNatAux code valid.2) else none

/-- The character whose encoding begins with `first` and goes on in `rest`, together with the number
of bytes of `rest` that belong to it. -/
def leading? (first : UInt8) (rest : List UInt8) : Option (Char × Nat) :=
  if first < 0x80 then
    some (Char.ofNat first.toNat, 0)
  else if first &&& 0xE0 = 0xC0 then
    match rest with
    | second :: _ => do
        let low <- continuation? second
        let c <- scalar? 0x80 ((first &&& 0x1F).toNat * 0x40 + low)
        return (c, 1)
    | _ => none
  else if first &&& 0xF0 = 0xE0 then
    match rest with
    | second :: third :: _ => do
        let middle <- continuation? second
        let low <- continuation? third
        let c <- scalar? 0x800 ((first &&& 0x0F).toNat * 0x1000 + middle * 0x40 + low)
        return (c, 2)
    | _ => none
  else if first &&& 0xF8 = 0xF0 then
    match rest with
    | second :: third :: fourth :: _ => do
        let high <- continuation? second
        let middle <- continuation? third
        let low <- continuation? fourth
        let c <- scalar? 0x10000
          ((first &&& 0x07).toNat * 0x40000 + high * 0x1000 + middle * 0x40 + low)
        return (c, 3)
    | _ => none
  else
    none

/-- Read bytes behind the glyphs already read.  The first `skip` bytes belong to the last glyph. -/
def decodeOnto (done : Array Glyph) (skip : Nat) : List UInt8 -> Array Glyph
  | [] => done
  | byte :: rest =>
      match skip with
      | skip + 1 => decodeOnto done skip rest
      | 0 =>
          match leading? byte rest with
          | some (c, extra) => decodeOnto (done.push (.char c)) extra rest
          | none => decodeOnto (done.push (.stray byte)) 0 rest

/-- The glyphs of a sequence of bytes. -/
def decode (bytes : List UInt8) : List Glyph :=
  (decodeOnto #[] 0 bytes).toList

/-- The glyphs of well-formed text. -/
def glyphs (text : String) : List Glyph :=
  text.toList.map .char

/-- Text as it is shown, with the replacement character in the place of each stray byte. -/
def shown (text : List Glyph) : String :=
  String.ofList (text.map Glyph.shown)

/-- Read bytes as characters, with the replacement character in the place of each stray byte. -/
def ofBytes (bytes : List UInt8) : String :=
  shown (decode bytes)

/-- The bytes of well-formed text. -/
def toBytes (text : String) : List UInt8 :=
  text.toUTF8.toList

/-- Read the pending stray bytes, given last byte first, and then the text that follows them. -/
def rejoinOnto (pending : List UInt8) : List Glyph -> List Glyph
  | [] => decode pending.reverse
  | .stray byte :: rest => rejoinOnto (byte :: pending) rest
  | .char c :: rest => decode pending.reverse ++ .char c :: rejoinOnto [] rest

/-- Read text anew whose stray bytes may have come to stand together.  Only stray bytes can combine,
since a character already has all its bytes and none of its bytes can continue a stray one. -/
def rejoin (text : List Glyph) : List Glyph :=
  rejoinOnto [] text

end Text
end LoxNative
