import MirListing.Body.Type
import MirListing.Source.Span

/-!
# Places and operands

A place is a local and the steps from it to a part of it; it is written from the inside out.  An
operand copies or moves a place or is a constant.  A step to a field writes the field's type, so
writing a place fails if that type has no written form.
-/

namespace MirListing

/-! ## Places -/

/-- A step from a place to a part of it. -/
inductive Projection
  /-- What a pointer points to. -/
  | deref
  /-- A field, with its type. -/
  | field (number : Int) (ty : Ty)
  /-- An element at the index in a local. -/
  | index (slot : Int)
  /-- An element at a fixed place, of an array of a least length. -/
  | constantIndex (offset minLength : Int) (fromEnd : Bool)
  /-- The elements between two places. -/
  | subslice (start stop : Int) (fromEnd : Bool)
  /-- A variant, by its name if it has one. -/
  | downcast (variantIndex : Int) (name : Option Label)

namespace Projection

/-- The written form of the part, from that of the whole. -/
def wrap (inner : String) : Projection → Outcome String
  | .deref => .ok ("(*" ++ inner ++ ")")
  | .field number ty => do
      return "(" ++ inner ++ "." ++ Text.decimal number ++ ": " ++ (← ty.text) ++ ")"
  | .index slot => .ok (inner ++ "[_" ++ Text.decimal slot ++ "]")
  | .constantIndex offset minLength fromEnd =>
      let sign := if fromEnd then "-" else ""
      .ok (inner ++ "[" ++ sign ++ Text.decimal offset ++ " of " ++ Text.decimal minLength ++ "]")
  | .subslice start stop fromEnd =>
      let range :=
        if !fromEnd then Text.decimal start ++ ".." ++ Text.decimal stop
        else if stop = 0 then Text.decimal start ++ ":"
        else if start = 0 then ":-" ++ Text.decimal stop
        else Text.decimal start ++ ":-" ++ Text.decimal stop
      .ok (inner ++ "[" ++ range ++ "]")
  | .downcast variantIndex none =>
      .ok ("(" ++ inner ++ " as variant#" ++ Text.decimal variantIndex ++ ")")
  | .downcast _ (some name) => .ok ("(" ++ inner ++ " as " ++ name.shown ++ ")")

/-- The allocations that the type of a field refers to. -/
def allocIds : Projection → List AllocId
  | .field _ ty => ty.allocIds
  | _ => []

end Projection

/-- A local and the steps from it. -/
structure Place where
  /-- The local. -/
  slot : Int
  /-- The steps, the first one next to the local. -/
  projection : List Projection := []

namespace Place

/-- The written form of the end of some steps, from that of their start. -/
def wrapAll (inner : String) : List Projection → Outcome String
  | [] => .ok inner
  | step :: rest => do wrapAll (← step.wrap inner) rest

/-- The written form of a place. -/
def describe (p : Place) : Outcome String := wrapAll ("_" ++ Text.decimal p.slot) p.projection

/-- The allocations that the steps refer to. -/
def allocIds (p : Place) : List AllocId := p.projection.flatMap Projection.allocIds

end Place

/-! ## Operands -/

/-- A constant as an operand. -/
structure Constant where
  /-- Where it stands. -/
  span : Span
  /-- The constant. -/
  literal : Const
  /-- The number of the type that has been written down for it. -/
  userType : Option Int := none

/-- The written form of a constant as an operand. -/
def Constant.describe (c : Constant) : Outcome String := do
  return "const " ++ (← c.literal.pretty)

/-- What a computation works on. -/
inductive Operand
  /-- A copy of a place. -/
  | copy (place : Place)
  /-- A place that is used up. -/
  | move (place : Place)
  /-- A constant. -/
  | constant (c : Constant)

namespace Operand

/-- The written form of an operand. -/
def describe : Operand → Outcome String
  | .copy place => place.describe
  | .move place => do return "move " ++ (← place.describe)
  | .constant c => c.describe

/-- The constant of an operand. -/
def constants : Operand → List Constant
  | .constant c => [c]
  | _ => []

/-- The allocations that an operand refers to. -/
def allocIds : Operand → List AllocId
  | .copy place | .move place => place.allocIds
  | .constant c => c.literal.allocIds

/-- Operands separated by commas. -/
def joined (operands : List Operand) : Outcome String := do
  return ", ".intercalate (← operands.mapM describe)

end Operand

end MirListing
