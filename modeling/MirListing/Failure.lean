import MirListing.Document.Value

/-!
# Failures

What can go wrong, by cause.  A *document fault* is a value that the document format forbids; a
*body fault* is a body whose parts contradict each other, found while it is listed; an *evaluation
fault* says why a static has no value, a *file fault* why a file cannot be read or written.  Besides
these a value may have the wrong shape altogether, an object may lack a field that is read without a
word about what it belongs to, and a number may be too large to be an integer or a character.

`Failure.message?` is the one place where the wording stands.
-/

namespace MirListing

/-! ## Causes -/

/-- A value that the document format forbids. -/
inductive DocumentFault
  /-- The text is no document at all. -/
  | unreadable
  /-- Something that must be an object is not. -/
  | notAnObject (what : String)
  /-- An object that must carry a kind does not. -/
  | untagged (what : String)
  /-- A required field is absent. -/
  | absentField (what field : String)
  /-- A value is none of those with a name. -/
  | unknown (what : String) (value : Value)
  /-- A byte order with no name. -/
  | unknownByteOrder (value : Value)
  /-- An item path without components. -/
  | emptyPath
  /-- A span without exactly five parts. -/
  | spanShape
  /-- A place that is not a local. -/
  | placeShorthand (text : Spelling)
  /-- A mask that does not have one flag per byte. -/
  | maskLength
  /-- A pointer stored outside its allocation. -/
  | relocationOutside (offset : Int)
  /-- A switch whose targets do not match its values. -/
  | switchTargets
  /-- A body without a return place. -/
  | noLocals
  /-- A body with fewer locals than arguments. -/
  | tooManyArguments
  /-- A pointer size that no target has. -/
  | pointerSize (size : Value)
  /-- A text that is no numeral. -/
  | notAnInteger (text : Spelling)
  /-- A numeral over the digit limit. -/
  | numeralTooLong (digits : Nat)
  /-- An integer that would be written over the digit limit. -/
  | integerTooLong
  /-- Not a number, where an integer is read. -/
  | nanInteger
  /-- A character that is no hex digit where one must stand. -/
  | notHex (position : Nat)
  /-- A character constant beyond the last code point. -/
  | noSuchCharacter
  /-- A signed constant without a sign bit. -/
  | negativeShift
  /-- A scalar of negative size. -/
  | negativeWidth (width : Int)
  /-- A scalar whose width is no machine number. -/
  | widthTooLarge
deriving Repr

/-- A body whose parts contradict each other. -/
inductive BodyFault
  /-- A stored pointer reaches past the end of its allocation. -/
  | pointerPastEnd (offset size : Nat)
  /-- A static whose value is no memory. -/
  | staticWithoutMemory (path : String)
  /-- The outermost scope has a parent. -/
  | rootHasParent
  /-- Another scope has none. -/
  | orphanScope (scope : Nat)
  /-- A scope stands under one that is not its parent. -/
  | misplacedScope (scope parent : Int)
  /-- An item of this kind has no body. -/
  | unexpectedKind (kind path : String)
  /-- Something that is not a function has arguments. -/
  | unexpectedArguments (path : String) (count : Int)
deriving DecidableEq, Repr

/-- Why a static has no value. -/
inductive EvaluationFault
  /-- No item has this identity. -/
  | unknownStatic (path : String)
  /-- Evaluation failed for a stated reason. -/
  | failed (reason : Label)
  /-- The item has no initializer. -/
  | noInitializer (path : String)
deriving Repr

/-- A file that cannot be used as it should. -/
inductive FileFault
  /-- There is no such file, or no directory to put it in. -/
  | notFound
  /-- It is a directory. -/
  | isDirectory
  /-- Something in front of it is no directory. -/
  | notDirectory
  /-- There is one already. -/
  | exists
  /-- Its name is too long. -/
  | nameTooLong
  /-- Its path holds a null character. -/
  | nullCharacter
deriving DecidableEq, Repr

/-- A failure. -/
inductive Failure
  /-- The document format forbids a value. -/
  | document (fault : DocumentFault)
  /-- A body contradicts itself. -/
  | body (fault : BodyFault)
  /-- A static has no value. -/
  | evaluation (fault : EvaluationFault)
  /-- A file cannot be used. -/
  | file (fault : FileFault)
  /-- An object lacks a field, or a table an entry. -/
  | missing (name : String)
  /-- No body is recorded for an item. -/
  | noBody (path : String)
  /-- A value has the wrong shape. -/
  | wrongShape
  /-- A number is too large for what it is used for. -/
  | overflow
  /-- A position lies outside the loaded items. -/
  | outOfRange
  /-- A position lies outside the scopes of a body. -/
  | noScope
  /-- A position is no machine number. -/
  | positionTooLarge
  /-- A listing would never end. -/
  | endless
  /-- The text of a document nests arrays or objects too deeply. -/
  | tooDeep
  /-- A text is no level of logging. -/
  | unknownLevel (text : String)
deriving Repr

/-! ## Wording -/

/-- How a faulty numeral is shown: between quotes and not beyond 200 characters. -/
def clipped (text : Spelling) : String := String.ofList (text.quoted.toList.take 200)

/-- The wording of a document fault. -/
def DocumentFault.message : DocumentFault → String
  | .unreadable => "JSONDecodeError"
  | .notAnObject what => what ++ " must be a JSON object"
  | .untagged what => what ++ " must carry a string 'kind' tag"
  | .absentField what field => what ++ " is missing required field '" ++ field ++ "'"
  | .unknown what value => "unknown " ++ what ++ ": " ++ value.quoted
  | .unknownByteOrder value => value.quoted ++ " is not a valid Endian"
  | .emptyPath => "item path must contain at least one component"
  | .spanShape => "span must be [file, lo_line, lo_col, hi_line, hi_col]"
  | .placeShorthand text => "invalid place shorthand: " ++ text.quoted
  | .maskLength => "init mask length must match the allocation size"
  | .relocationOutside offset =>
      "relocation at " ++ Text.decimal offset ++ " lies outside the allocation"
  | .switchTargets => "switchInt needs one target per value plus an otherwise target"
  | .noLocals => "a body needs at least the return place local"
  | .tooManyArguments => "arg_count exceeds the number of declared locals"
  | .pointerSize size => "unsupported pointer size: " ++ size.shown
  | .notAnInteger text => "invalid literal for int() with base 10: " ++ clipped text
  | .numeralTooLong digits =>
      "Exceeds the limit (4300 digits) for integer string conversion: value has " ++ digits.repr ++
        " digits; use sys.set_int_max_str_digits() to increase the limit"
  | .integerTooLong =>
      "Exceeds the limit (4300 digits) for integer string conversion; " ++
        "use sys.set_int_max_str_digits() to increase the limit"
  | .nanInteger => "cannot convert float NaN to integer"
  | .notHex position =>
      "non-hexadecimal number found in fromhex() arg at position " ++ position.repr
  | .noSuchCharacter => "chr() arg not in range(0x110000)"
  | .negativeShift => "negative shift count"
  | .negativeWidth width =>
      "Invalid format specifier '0" ++ Text.decimal width ++ "x' for object of type 'int'"
  | .widthTooLarge => "Too many decimal digits in format string"

/-- The wording of a body fault. -/
def BodyFault.message : BodyFault → String
  | .pointerPastEnd offset size =>
      "pointer at offset " ++ offset.repr ++ " runs past the end of a " ++ size.repr ++
        " byte allocation"
  | .staticWithoutMemory path => "static item " ++ path ++ " without `ByRef` initializer"
  | .rootHasParent => "the outermost source scope must not have a parent"
  | .orphanScope scope =>
      "scope " ++ scope.repr ++ " has no parent but is not the outermost scope"
  | .misplacedScope scope parent =>
      "scope " ++ Text.decimal scope ++ " is listed under " ++ Text.decimal parent ++
        " but has another parent"
  | .unexpectedKind kind path => "unexpected item kind " ++ kind ++ " for " ++ path
  | .unexpectedArguments path count =>
      path ++ " is not a function but has " ++ Text.decimal count ++ " arguments"

/-- The wording of an evaluation fault. -/
def EvaluationFault.message : EvaluationFault → String
  | .unknownStatic path => "unknown static " ++ path
  | .failed reason => reason.shown
  | .noInitializer path => "static " ++ path ++ " has no initializer"

/-- The wording of a file fault that has one. -/
def FileFault.message? : FileFault → Option String
  | .nullCharacter => some "embedded null byte"
  | _ => none

/-- The wording of a failure that has one. -/
def Failure.message? : Failure → Option String
  | .document fault => some fault.message
  | .body fault => some fault.message
  | .evaluation fault => some fault.message
  | .missing name => some name
  | .noBody path => some ("no body recorded for " ++ path)
  | .file fault => fault.message?
  | .outOfRange => some "list index out of range"
  | .noScope => some "tuple index out of range"
  | .positionTooLarge => some "cannot fit 'int' into an index-sized integer"
  | .unknownLevel text => some ("Unknown level: " ++ Text.quoted text)
  | .wrongShape | .overflow | .endless | .tooDeep => none

end MirListing
