/-!
# Blanks around a numeral

The blanks that may stand around a numeral, and the smaller set that may stand between the bytes of
a hex text.
-/

namespace MirListing.Text

/-- Tab, line feed, vertical tab, form feed, carriage return and space. -/
def isPlainBlank (c : Char) : Bool := c == ' ' || (0x09 ≤ c.toNat && c.toNat ≤ 0x0d)

/-- The blanks beyond the plain ones: the line, paragraph and width separators of all scripts. -/
def wideBlanks : List Nat :=
  [0x85, 0xa0, 0x1680, 0x2000, 0x2001, 0x2002, 0x2003, 0x2004, 0x2005, 0x2006, 0x2007, 0x2008,
    0x2009, 0x200a, 0x2028, 0x2029, 0x202f, 0x205f, 0x3000]

/-- Blanks of every script. -/
def isBlank (c : Char) : Bool := isPlainBlank c || wideBlanks.contains c.toNat

end MirListing.Text
