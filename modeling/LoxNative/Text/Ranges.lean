namespace LoxNative
namespace Text

/-!
# Character tables

A property of characters is stored as the list of the maximal ranges of code points that have it.
Looking a character up walks the list, and every table is only consulted for characters outside
ASCII.

All tables, also that of letter case, are those of the seventeenth edition of the character
standard.  Another edition would change how recently assigned characters are read and shown, and
nothing else: the theory uses of the tables only that no letter and no digit is white space.
-/

/-- Ranges of code points, each given by its first and its last member. -/
abbrev Ranges := List (Nat × Nat)

/-- Whether some range contains the character. -/
def Ranges.covers (ranges : Ranges) (c : Char) : Bool :=
  ranges.any fun range => range.1 ≤ c.toNat && c.toNat ≤ range.2

end Text
end LoxNative
