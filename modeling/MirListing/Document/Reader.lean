import MirListing.Document.Shape

/-!
# Documents as text

Reads the text of a document.  The grammar is that of JSON with three additions: `NaN`, `Infinity`
and `-Infinity` are numbers.  Of a name that an object has twice the last value counts, at the
place of the first.  A control character inside a string, and anything after the value, are refused,
and so is a text that nests arrays and objects beyond `nestingLimit`.

The reader of values takes a bound on its own steps; the length of the text is enough, because every
step reads a character.
-/

namespace MirListing.Document

/-! ## Blanks, literals and strings -/

/-- A text that is no document. -/
def unreadable {α : Type} : Outcome α := .error (.document .unreadable)

/-- The blanks between the parts of a document. -/
def skipBlanks : List Char → List Char :=
  List.dropWhile fun c => c == ' ' || c == '\t' || c == '\n' || c == '\r'

/-- The code unit that four hex digits write. -/
def codeUnit? (a b c d : Char) : Option Nat := do
  let high := (← Text.hexValue? a) * 16 + (← Text.hexValue? b)
  return high * 256 + ((← Text.hexValue? c) * 16 + (← Text.hexValue? d))

/-- The character a backslash and one more character write. -/
def simpleEscape? : Char → Option Char
  | '"' => some '"'
  | '\\' => some '\\'
  | '/' => some '/'
  | 'b' => some '\x08'
  | 'f' => some '\x0c'
  | 'n' => some '\n'
  | 'r' => some '\r'
  | 't' => some '\t'
  | _ => none

/-- The code units of a string up to its closing quote, the last one first, and the rest. -/
def readUnits (read : List Nat) : List Char → Outcome (List Nat × List Char)
  | '"' :: rest => .ok (read, rest)
  | '\\' :: 'u' :: a :: b :: c :: d :: rest =>
      match codeUnit? a b c d with
      | some unit => readUnits (unit :: read) rest
      | none => unreadable
  | '\\' :: c :: rest =>
      match simpleEscape? c with
      | some e => readUnits (e.toNat :: read) rest
      | none => unreadable
  | c :: rest => if c.toNat < 0x20 then unreadable else readUnits (c.toNat :: read) rest
  | [] => unreadable

/-- The string up to its closing quote, and the rest of the text. -/
def readString (text : List Char) : Outcome (Spelling × List Char) := do
  let (units, rest) ← readUnits [] text
  return (Spelling.ofUnits units.reverse, rest)

/-! ## Numbers -/

/-- The digits at the start of a text, and the rest. -/
def readDigits (text : List Char) : List Char × List Char := text.span Char.isDigit

/-- The fraction at the start of a text: a point and digits. -/
def readFraction : List Char → Option (List Char × List Char)
  | '.' :: rest =>
      match readDigits rest with
      | ([], _) => none
      | (digits, rest) => some (digits, rest)
  | _ => none

/-- The digits of an exponent with its sign. -/
def signedExponent (rest : List Char) : Option (Int × List Char) :=
  let (negative, rest) :=
    match rest with
    | '-' :: rest => (true, rest)
    | '+' :: rest => (false, rest)
    | rest => (false, rest)
  match readDigits rest with
  | ([], _) => none
  | (digits, rest) =>
      let size : Int := Nat.ofDigitChars 10 digits 0
      some (if negative then -size else size, rest)

/-- The exponent at the start of a text: an `e`, perhaps a sign, and digits. -/
def readExponent : List Char → Option (Int × List Char)
  | 'e' :: rest => signedExponent rest
  | 'E' :: rest => signedExponent rest
  | _ => none

/-- The number whose integer part has been read. -/
def finishNumber (negative : Bool) (whole rest : List Char) : Outcome (Value × List Char) :=
  let fraction := readFraction rest
  let rest := (fraction.map (·.2)).getD rest
  let exponent := readExponent rest
  let rest := (exponent.map (·.2)).getD rest
  if fraction.isNone && exponent.isNone then
    if Text.digitLimit < whole.length then .error (.document (.numeralTooLong whole.length))
    else
      let n : Int := Nat.ofDigitChars 10 whole 0
      .ok (.integer (if negative then -n else n), rest)
  else
    let decimals := (fraction.map (·.1)).getD []
    let scale := (exponent.map (·.1)).getD 0 - decimals.length
    .ok (.number (Binary.ofDecimal negative (Nat.ofDigitChars 10 (whole ++ decimals) 0) scale),
      rest)

/-- A number after its sign. -/
def readUnsigned (negative : Bool) : List Char → Outcome (Value × List Char)
  | 'I' :: 'n' :: 'f' :: 'i' :: 'n' :: 'i' :: 't' :: 'y' :: rest =>
      .ok (.number (.infinite negative), rest)
  | '0' :: rest => finishNumber negative ['0'] rest
  | text =>
      match readDigits text with
      | ([], _) => unreadable
      | (digits, rest) => finishNumber negative digits rest

/-- A value that is neither a string nor made of others. -/
def readScalar : List Char → Outcome (Value × List Char)
  | 'n' :: 'u' :: 'l' :: 'l' :: rest => .ok (.null, rest)
  | 't' :: 'r' :: 'u' :: 'e' :: rest => .ok (.bool true, rest)
  | 'f' :: 'a' :: 'l' :: 's' :: 'e' :: rest => .ok (.bool false, rest)
  | 'N' :: 'a' :: 'N' :: rest => .ok (.number .nan, rest)
  | '-' :: rest => readUnsigned true rest
  | text => readUnsigned false text

/-! ## Values -/

/-- The fields with one more: a name keeps its place and takes the newer value. -/
def putField (fields : Fields) (name : Spelling) (value : Value) : Fields :=
  if (fields.lookup name).isSome then
    fields.map fun field => if field.1 == name then (name, value) else field
  else fields ++ [(name, value)]

/-- The greatest depth of arrays and objects inside each other. -/
def nestingLimit : Nat := 987

mutual

/-- A value at the start of a text, and the rest.  Inside it `depth` arrays and objects may still be
nested. -/
def readValue : Nat → Nat → List Char → Outcome (Value × List Char)
  | 0, _, _ => unreadable
  | _ + 1, _, '"' :: rest => do
      let (s, rest) ← readString rest
      return (.spelled s, rest)
  | _ + 1, 0, '[' :: _ => .error .tooDeep
  | steps + 1, depth + 1, '[' :: rest =>
      match skipBlanks rest with
      | ']' :: rest => .ok (.array [], rest)
      | rest => do
          let (items, rest) ← readItems steps depth [] rest
          return (.array items, rest)
  | _ + 1, 0, '\x7b' :: _ => .error .tooDeep
  | steps + 1, depth + 1, '\x7b' :: rest =>
      match skipBlanks rest with
      | '\x7d' :: rest => .ok (.object [], rest)
      | rest => do
          let (fields, rest) ← readFields steps depth [] rest
          return (.object fields, rest)
  | _ + 1, _, text => readScalar text

/-- The items of an array up to its closing bracket. -/
def readItems : Nat → Nat → List Value → List Char → Outcome (List Value × List Char)
  | 0, _, _, _ => unreadable
  | steps + 1, depth, read, text => do
      let (item, rest) ← readValue steps depth text
      match skipBlanks rest with
      | ',' :: rest => readItems steps depth (item :: read) (skipBlanks rest)
      | ']' :: rest => .ok ((item :: read).reverse, rest)
      | _ => unreadable

/-- The fields of an object up to its closing brace. -/
def readFields : Nat → Nat → Fields → List Char → Outcome (Fields × List Char)
  | 0, _, _, _ => unreadable
  | steps + 1, depth, read, '"' :: rest => do
      let (name, rest) ← readString rest
      match skipBlanks rest with
      | ':' :: rest => do
          let (value, rest) ← readValue steps depth (skipBlanks rest)
          match skipBlanks rest with
          | ',' :: rest => readFields steps depth (putField read name value) (skipBlanks rest)
          | '\x7d' :: rest => .ok (putField read name value, rest)
          | _ => unreadable
      | _ => unreadable
  | _ + 1, _, _, _ => unreadable

end

/-- The document that a text writes. -/
def read (text : String) : Outcome Value := do
  let characters := skipBlanks text.toList
  let (value, rest) ← readValue (characters.length + 1) nestingLimit characters
  if (skipBlanks rest).isEmpty then return value else unreadable

end MirListing.Document
