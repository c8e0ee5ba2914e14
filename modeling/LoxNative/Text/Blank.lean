import LoxNative.Text.Ranges

namespace LoxNative
namespace Text

/-!
# Blanks

The property *white space*.  Assembly text is trimmed of these characters, not only of the ASCII
ones: a no-break space around an instruction disappears like an ordinary space.
-/

/-- The white space outside ASCII, as ranges in increasing order. -/
def blankRanges : Ranges :=
  [
    (0x85, 0x85), (0xA0, 0xA0), (0x1680, 0x1680), (0x2000, 0x200A), (0x2028, 0x2029),
    (0x202F, 0x202F), (0x205F, 0x205F), (0x3000, 0x3000)]

/-- Whether a character is white space: a space, one of the five ASCII controls from tab to carriage
return, or one of the wider blanks. -/
def isBlank (c : Char) : Bool :=
  if c.toNat < 0x80 then c == ' ' || (0x09 ≤ c.toNat && c.toNat ≤ 0x0D) else blankRanges.covers c

end Text
end LoxNative
