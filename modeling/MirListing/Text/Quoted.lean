import MirListing.Text.Printable
import MirListing.Text.Numeral

/-!
# Quoted texts

A text quoted in a message stands between single quotes, or between double quotes if it holds a
single quote and no double one.  The quote, the backslash, line feeds, carriage returns and tabs are
escaped with a backslash, and every other character that is not printable by its code point, in
two, four or eight hexadecimal digits.

A code point that is half of a surrogate pair is no character, so it cannot be printable either:
`quotedPoints` quotes code points and escapes such a half by its number.  On the code points of a
text it is `quoted`.
-/

namespace MirListing.Text

/-- The quote that stands around a text. -/
def quoteOf (text : List Char) : Char :=
  if text.contains '\'' && !text.contains '"' then '"' else '\''

/-- A code point as an escape. -/
def escapeCode (point : Nat) : List Char :=
  if point < 0x100 then '\\' :: 'x' :: hexPadded 2 point
  else if point < 0x10000 then '\\' :: 'u' :: hexPadded 4 point
  else '\\' :: 'U' :: hexPadded 8 point

/-- A character as it stands between quotes. -/
def escape (quote c : Char) : List Char :=
  if c = quote ∨ c = '\\' then ['\\', c]
  else if c = '\n' then ['\\', 'n']
  else if c = '\r' then ['\\', 'r']
  else if c = '\t' then ['\\', 't']
  else if isPrintable c then [c]
  else escapeCode c.toNat

/-- A text between quotes. -/
def quoted (text : String) : String :=
  let quote := quoteOf text.toList
  String.ofList (quote :: text.toList.flatMap (escape quote) ++ [quote])

/-! ## Code points -/

/-- Whether a code point is half of a surrogate pair. -/
def isHalf (point : Nat) : Bool := 0xd800 ≤ point && point ≤ 0xdfff

/-- A code point as it stands between quotes. -/
def escapePoint (quote : Char) (point : Nat) : List Char :=
  if isHalf point then escapeCode point else escape quote (Char.ofNat point)

/-- Code points between quotes. -/
def quotedPoints (points : List Nat) : String :=
  let quote := quoteOf (points.map Char.ofNat)
  String.ofList (quote :: points.flatMap (escapePoint quote) ++ [quote])

/-! ## Examples -/

example : quoted "it's" = "\"it's\"" := by decide +kernel
example : quoted "a\n\"'" = "'a\\n\"\\''" := by decide +kernel
example : quoted "\u00a0\u200b" = "'\\xa0\\u200b'" := by decide +kernel
example : quotedPoints [0xd83d, 10] = "'\\ud83d\\n'" := by decide +kernel

end MirListing.Text
