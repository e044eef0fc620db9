import MirListing.Body.Place
import MirListing.Reader.Type

/-!
# Reading places and operands

A place without steps may be written as an underscore and digits, and a span as five parts in an
array; where a span is absent or null there is none.
-/

namespace MirListing

/-! ## Spans -/

/-- Reads a span. -/
def Span.read : Value → Outcome Span
  | .null => .ok Span.none
  | value => do
      match ← value.elements with
      | [file, startLine, startColumn, stopLine, stopColumn] =>
          return ⟨file.shown, ← startLine.toInteger, ← startColumn.toInteger, ← stopLine.toInteger,
            ← stopColumn.toInteger⟩
      | _ => .error (.document .spanShape)

/-- Reads where a part of a body comes from. -/
def SourceInfo.read : Value → Outcome SourceInfo
  | .null => .ok {}
  | value => do
      let fields ← value.asObject
      return { span := ← Span.read (fields.field "span"), scope := ← fields.integerOr "scope" 0 }

/-! ## Places -/

/-- Reads the short form of a place. -/
def Place.ofSpelling (text : Spelling) : Outcome Place :=
  match text.plain.toList with
  | '_' :: digits =>
      if digits.isEmpty || !digits.all Text.isDigit then
        .error (.document (.placeShorthand text))
      else do return ⟨← Value.integerOfText (String.ofList digits), []⟩
  | _ => .error (.document (.placeShorthand text))

/-- Reads a step. -/
def Projection.read (names : Names) (value : Value) : Outcome Projection := do
  let (kind, fields) ← value.tagged "projection element"
  match kind with
  | .text "deref" => return .deref
  | .text "field" =>
      let number ← fields.integer "index"
      return .field number (← Ty.read names (← fields.member "ty"))
  | .text "index" => return .index (← fields.integer "local")
  | .text "constant_index" =>
      return .constantIndex (← fields.integer "offset") (← fields.integer "min_length")
        (fields.flag "from_end" false)
  | .text "subslice" =>
      return .subslice (← fields.integer "from") (← fields.integer "to")
        (fields.flag "from_end" true)
  | .text "downcast" => return .downcast (← fields.integer "variant") (fields.label? "name")
  | _ => .error (.document (.unknown "projection element kind" (.spelled kind)))

/-- Reads a place.  The steps are read before the local. -/
def Place.read (names : Names) : Value → Outcome Place
  | .spelled text => Place.ofSpelling text
  | value => do
      let fields ← value.asObject
      let steps ← (fields.field "projection").elementsIfGiven
      let projection ← steps.mapM (Projection.read names)
      let slot ← (← value.require "place" "local").toInteger
      return { slot, projection }

/-! ## Operands -/

/-- Reads a constant as an operand. -/
def Constant.read (names : Names) (fields : Fields) : Outcome Constant := do
  let userType := fields.field "user_ty"
  let span ← Span.read (fields.field "span")
  let literal ← Value.require "constant operand" "literal" (.object fields)
  return { span, literal := ← Const.read names literal, userType := ← userType.toInteger? }

/-- Reads an operand. -/
def Operand.read (names : Names) (value : Value) : Outcome Operand := do
  let (kind, fields) ← value.tagged "operand"
  match kind with
  | .text "copy" => return .copy (← Place.read names (← fields.member "place"))
  | .text "move" => return .move (← Place.read names (← fields.member "place"))
  | .text "const" => return .constant (← Constant.read names fields)
  | _ => .error (.document (.unknown "operand kind" (.spelled kind)))

/-- Reads operands. -/
def Operand.readAll (names : Names) (value : Value) : Outcome (List Operand) := do
  (← value.elementsIfGiven).mapM (Operand.read names)

end MirListing
