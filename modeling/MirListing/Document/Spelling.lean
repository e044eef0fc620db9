import MirListing.Text.Quoted

/-!
# Spellings

A string of a document is a list of code units of sixteen bits.  The high and the low half of a
surrogate pair, next to each other, make one character.  Almost every string is a *text* then; one
in which a half stands alone is *garbled* and kept by its code points.

A garbled string is never equal to a text, and a message quotes its halves by their numbers.  Where
it has to be shown as a text all the same, the replacement character stands for each of them.
-/

namespace MirListing

/-- What a string of a document spells. -/
inductive Spelling
  /-- A text. -/
  | text (s : String)
  /-- Code points among which halves of surrogate pairs stand alone. -/
  | garbled (points : List Nat) (broken : points.any Text.isHalf = true)
deriving DecidableEq, Repr

namespace Spelling

instance : Inhabited Spelling := ⟨.text ""⟩

/-! ## From code units -/

/-- Whether two code units are the high and the low half of one surrogate pair. -/
def isPair (high low : Nat) : Bool :=
  0xd800 ≤ high && high ≤ 0xdbff && 0xdc00 ≤ low && low ≤ 0xdfff

/-- The code point of a surrogate pair. -/
def paired (high low : Nat) : Nat := 0x10000 + (high - 0xd800) * 0x400 + (low - 0xdc00)

/-- The code points of code units; two halves of a pair make one. -/
def joinPairs : List Nat → List Nat
  | [] => []
  | [unit] => [unit]
  | unit :: next :: rest =>
      if isPair unit next then paired unit next :: joinPairs rest
      else unit :: joinPairs (next :: rest)

/-- What code points spell. -/
def ofPoints (points : List Nat) : Spelling :=
  if h : points.any Text.isHalf = true then .garbled points h
  else .text (String.ofList (points.map Char.ofNat))

/-- What code units spell. -/
def ofUnits (units : List Nat) : Spelling := ofPoints (joinPairs units)

/-! ## Written forms -/

/-- The character that stands for half of a surrogate pair. -/
def replacement : Char := '\ufffd'

/-- The character of a code point, the replacement character for half of a pair. -/
def shownCharacter (point : Nat) : Char :=
  if Text.isHalf point then replacement else Char.ofNat point

/-- The text, with the replacement character for each half that stands alone. -/
def plain : Spelling → String
  | .text s => s
  | .garbled points _ => String.ofList (points.map shownCharacter)

/-- The written form between quotes. -/
def quoted : Spelling → String
  | .text s => Text.quoted s
  | .garbled points _ => Text.quotedPoints points

/-- Whether nothing is spelled. -/
def isEmpty : Spelling → Bool
  | .text s => s.isEmpty
  | .garbled _ _ => false

/-- The code points one by one. -/
def elements : Spelling → List Spelling
  | .text s => s.toList.map fun c => .text (String.singleton c)
  | .garbled points _ => points.map fun point => ofPoints [point]

@[simp] theorem plain_text (s : String) : (Spelling.text s).plain = s := rfl

example : ofUnits [0x61, 0xd83d, 0xde00] = .text "a😀" := by decide +kernel
example : (ofUnits [0xd83d, 0xd83d, 0xde00]).quoted = "'\\ud83d😀'" := by decide +kernel
example : (ofUnits [0xde00, 0x78]).plain = "\ufffdx" := by decide +kernel

end Spelling

end MirListing
