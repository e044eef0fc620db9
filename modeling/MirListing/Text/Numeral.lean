import MirListing.Text.Blank
import MirListing.Text.Digit

/-!
# Numerals

Writing: the decimal form of an integer, and the lower-case hexadecimal form with or without the
base mark `0x` and padding zeros.

Reading: a decimal numeral may stand between blanks, carry a sign, use the decimal digits of any
script and group its digits with single underscores.  A numeral of more than `digitLimit` digits is
refused for its length; misplaced underscores are found before that, and whatever follows the
digits only after it.  The same limit bounds the numerals that are written for a constant.
Hexadecimal digits are read one by one.
-/

namespace MirListing.Text

/-! ## Writing -/

/-- The decimal form. -/
def decimal : Int → String
  | .ofNat n => n.repr
  | .negSucc n => "-" ++ (n + 1).repr

/-- The digits of the hexadecimal form. -/
def hexDigits (n : Nat) : List Char := Nat.toDigits 16 n

/-- The hexadecimal form, padded with zeros on the left to a least number of digits. -/
def hexPadded (width n : Nat) : List Char :=
  List.replicate (width - (hexDigits n).length) '0' ++ hexDigits n

/-- The hexadecimal form of an integer, padded with zeros to a least width that counts the sign. -/
def hexField (width : Nat) : Int → List Char
  | .ofNat n => hexPadded width n
  | .negSucc n => '-' :: hexPadded (width - 1) (n + 1)

/-- The hexadecimal form with its base mark, after the sign. -/
def hexMarked : Int → String
  | .ofNat n => "0x" ++ String.ofList (hexDigits n)
  | .negSucc n => "-0x" ++ String.ofList (hexDigits (n + 1))

theorem length_hexPadded (width n : Nat) :
    (hexPadded width n).length = max width (hexDigits n).length := by
  simp only [hexPadded, List.length_append, List.length_replicate]
  omega

/-! ## The digit limit -/

/-- The greatest number of digits a decimal numeral may have. -/
def digitLimit : Nat := 4300

/-- The decimal form, unless it has too many digits. -/
def decimalWithinLimit? (n : Int) : Option String :=
  if Nat.pow 10 digitLimit ≤ n.natAbs then none else some (decimal n)

/-! ## Reading -/

/-- The value of a hex digit of either case. -/
def hexValue? (c : Char) : Option Nat :=
  if '0' ≤ c && c ≤ '9' then some (c.toNat - '0'.toNat)
  else if 'a' ≤ c && c ≤ 'f' then some (c.toNat - 'a'.toNat + 10)
  else if 'A' ≤ c && c ≤ 'F' then some (c.toNat - 'A'.toNat + 10)
  else none

/-- Why a text is not read as an integer. -/
inductive NumeralFault
  /-- It is no numeral. -/
  | malformed
  /-- It is a numeral of this many digits. -/
  | tooLong (digits : Nat)
deriving DecidableEq, Repr

/-- The digits of a numeral without their grouping, unless the underscores are misplaced. -/
def ungroup : List Char → Option (List Nat)
  | [] => none
  | [c] => (decimalValue? c).map ([·])
  | c :: '_' :: rest => do
      let digit ← decimalValue? c
      let digits ← ungroup rest
      return digit :: digits
  | c :: rest => do
      let digit ← decimalValue? c
      let digits ← ungroup rest
      return digit :: digits

/-- The number that decimal digits write. -/
def ofDigits (digits : List Nat) : Nat := digits.foldl (fun n digit => 10 * n + digit) 0

/-- Reads the digits of a numeral and what follows them, blanks at most. -/
def readUnsigned (text : List Char) : Except NumeralFault Nat :=
  let isPart := fun c => isDecimal c || c == '_'
  match ungroup (text.takeWhile isPart) with
  | none => .error .malformed
  | some digits =>
      if digitLimit < digits.length then .error (.tooLong digits.length)
      else if (text.dropWhile isPart).all isBlank then .ok (ofDigits digits)
      else .error .malformed

/-- Reads a numeral that may stand between blanks and carry a sign. -/
def readInteger (text : List Char) : Except NumeralFault Int :=
  match text.dropWhile isBlank with
  | '-' :: rest => (readUnsigned rest).map fun n => -(n : Int)
  | '+' :: rest => (readUnsigned rest).map fun n => (n : Int)
  | rest => (readUnsigned rest).map fun n => (n : Int)

example : decimal (-12) = "-12" := by decide +kernel
example : hexField 4 (-5) = ['-', '0', '0', '5'] := by decide +kernel
example : (readInteger " -1_0\n".toList).toOption = some (-10) := by decide +kernel
example : (readInteger "1__0".toList).toOption = none := by decide +kernel
example : (readInteger "\u0663\u0663".toList).toOption = some 33 := by decide +kernel
example : (readInteger "- 1".toList).toOption = none := by decide +kernel

end MirListing.Text
