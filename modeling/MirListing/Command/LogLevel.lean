import MirListing.Document.Shape

/-!
# Levels of logging

The level of logging is a name in letters of either case.  Nothing is logged to where the command
writes, so all that matters here is whether a name can be used.  Every text can, since one that is
not known means the ordinary level, but for two: they name settings of logging that are no levels.
-/

namespace MirListing

/-- The capital form of a character, as far as it is made of ASCII letters. -/
def capital : Char → List Char
  | 'ß' => ['S', 'S']
  | 'ı' => ['I']
  | 'ſ' => ['S']
  | 'ﬀ' => ['F', 'F']
  | 'ﬁ' => ['F', 'I']
  | 'ﬂ' => ['F', 'L']
  | 'ﬃ' => ['F', 'F', 'I']
  | 'ﬄ' => ['F', 'F', 'L']
  | 'ﬅ' | 'ﬆ' => ['S', 'T']
  | c => [c.toUpper]

/-- A text in capitals. -/
def capitals (text : String) : String := String.ofList (text.toList.flatMap capital)

namespace LogLevel

/-- The form of a line of the log. -/
def lineForm : String := "%(levelname)s:%(name)s:%(message)s"

/-- Refuses what is no level: the form of a line is a text but no level, the table of such forms is
no text either. -/
def check : Label → Outcome Unit
  | .spelled name =>
      match capitals name.plain with
      | "BASIC_FORMAT" => .error (.unknownLevel lineForm)
      | "_STYLES" => .error .wrongShape
      | _ => .ok ()
  | _ => .error .wrongShape

example : (check (.string "debug")).toOption = some () := by decide +kernel
example : (check (.string "baſic_format")).toOption = none := by decide +kernel

end LogLevel

end MirListing
