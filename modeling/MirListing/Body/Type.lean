import MirListing.Item.Identity
import MirListing.Memory.Allocation
import MirListing.Number.Machine

/-!
# Types and constants

A type is its written form together with the constants that stand inside it, and a constant is a
type with a value, so the two are defined together.  The name of a type is a label like any other,
but a type whose name is not a string cannot be written: `Ty.text` refuses it.

A value is a scalar, a pointer, memory of its own, or a reference to an item that has not been
evaluated.  `Const.pretty` is the short form in a statement: truth values, characters and integers
by their types, anything else as the description of its value.
-/

namespace MirListing

/-! ## Values -/

/-- The value of a constant. -/
inductive ConstValue
  /-- The bits of a scalar, and its size in bytes. -/
  | scalar (bits size : Int)
  /-- A pointer into an allocation. -/
  | pointer (target : AllocId) (offset : Int)
  /-- Memory, and where the value stands in it. -/
  | byRef (allocation : Allocation) (offset : Int)
  /-- Memory, and the part of it that the value refers to. -/
  | slice (allocation : Allocation) (start stop : Int)
  /-- The value of an item, or of one of its promoted constants. -/
  | unevaluated (item : ItemId) (promoted : Option Int)
deriving Repr

namespace ConstValue

/-- The allocations a value refers to: the target of a pointer, or those that its memory points
into, in the order of their offsets. -/
def allocIds : ConstValue → List AllocId
  | .pointer target _ => [target]
  | .byRef allocation _ => allocation.targets
  | .slice allocation _ _ => allocation.targets
  | .scalar _ _ | .unevaluated _ _ => []

/-- The bits of a scalar of some bytes, two digits to a byte.  The width is written in decimal
before it is used, so it must not exceed the digit limit. -/
def bitsText (bits size : Int) : Outcome String :=
  if (Text.decimalWithinLimit? (2 * size)).isNone then .error (.document .integerTooLong)
  else if size < 0 then .error (.document (.negativeWidth (2 * size)))
  else if ¬IsMachineNumber (2 * size) then .error (.document .widthTooLarge)
  else .ok ("0x" ++ String.ofList (Text.hexField (2 * size).toNat bits))

/-- The description of a value. -/
def describe : ConstValue → Outcome String
  | .scalar bits size =>
      if size = 0 then .ok "Scalar(<ZST>)"
      else do return "Scalar(" ++ (← bitsText bits size) ++ ")"
  | .pointer target offset => .ok ("Scalar(" ++ target.text ++ "+" ++ Text.hexMarked offset ++ ")")
  | .byRef allocation offset =>
      .ok ("ByRef \x7b alloc: " ++ allocation.size.repr ++ " bytes, offset: " ++
        Text.decimal offset ++ " \x7d")
  | .slice allocation start stop =>
      .ok ("Slice \x7b data: " ++ allocation.size.repr ++ " bytes, start: " ++
        Text.decimal start ++ ", end: " ++ Text.decimal stop ++ " \x7d")
  | .unevaluated item promoted =>
      let which :=
        match promoted with
        | some n => "Some(promoted[" ++ Text.decimal n ++ "])"
        | none => "None"
      .ok ("Unevaluated(" ++ item.describe ++ ", " ++ which ++ ")")

/-- The description of a value that says whether it has been evaluated. -/
def describeAsConst (value : ConstValue) : Outcome String :=
  match value with
  | .unevaluated _ _ => value.describe
  | _ => do return "Value(" ++ (← value.describe) ++ ")"

end ConstValue

/-! ## Types -/

mutual

/-- A type: its name, and the constants that stand in it. -/
inductive Ty
  /-- A type of a name. -/
  | mk (name : Label) (consts : List Const)

/-- A constant: its type and its value. -/
inductive Const
  /-- A constant of a type. -/
  | mk (ty : Ty) (value : ConstValue)

end

namespace Ty

/-- The name of a type. -/
def name : Ty → Label
  | .mk name _ => name

/-- The constants that stand in a type. -/
def consts : Ty → List Const
  | .mk _ consts => consts

/-- A type of a name without constants. -/
def named (name : String) : Ty := .mk (.string name) []

/-- The written form of a type. -/
def text (ty : Ty) : Outcome String :=
  match ty.name with
  | .spelled name => .ok name.plain
  | _ => .error .wrongShape

end Ty

instance : Inhabited Ty := ⟨.named ""⟩

namespace Const

/-- The type of a constant. -/
def ty : Const → Ty
  | .mk ty _ => ty

/-- The value of a constant. -/
def value : Const → ConstValue
  | .mk _ value => value

end Const

/-! ## Allocations referred to -/

mutual

/-- The allocations that the constants in a type refer to, in order. -/
def Ty.allocIds : Ty → List AllocId
  | .mk _ consts => constsAllocIds consts

/-- The allocations that a constant refers to: those of its type before those of its value. -/
def Const.allocIds : Const → List AllocId
  | .mk ty value => ty.allocIds ++ value.allocIds

/-- The allocations that constants refer to, in order. -/
def constsAllocIds : List Const → List AllocId
  | [] => []
  | const :: rest => const.allocIds ++ constsAllocIds rest

end

/-! ## Written forms -/

/-- The names of the signed integer types. -/
def signedNames : List String := ["i8", "i16", "i32", "i64", "i128", "isize"]

/-- The names of the unsigned integer types. -/
def unsignedNames : List String := ["u8", "u16", "u32", "u64", "u128", "usize"]

namespace Const

/-- The description of a constant's value. -/
def describeValue (c : Const) : Outcome String := c.value.describeAsConst

/-- The description of a constant. -/
def describe (c : Const) : Outcome String := do
  return "Const \x7b ty: " ++ (← c.ty.text) ++ ", val: " ++ (← c.describeValue) ++ " \x7d"

/-- The value with the name of its type, between braces. -/
def withTypeName (c : Const) : Outcome String := do
  return "\x7b" ++ (← c.value.describe) ++ ": " ++ c.ty.name.shown ++ "\x7d"

/-- The item that an unevaluated constant names. -/
def itemText (item : ItemId) : Option Int → String
  | none => item.pathText
  | some n => item.pathText ++ "::promoted[" ++ Text.decimal n ++ "]"

/-- The quoted character of a code point. -/
def characterText (bits : Int) : Outcome String :=
  if bits < -0x80000000 ∨ 0x80000000 ≤ bits then .error .overflow
  else if bits < 0 ∨ 0x110000 ≤ bits then .error (.document .noSuchCharacter)
  else .ok (Text.quotedPoints [bits.toNat])

/-- A number with the name of its type. -/
def suffixed (n : Int) (name : String) : Outcome String :=
  match Text.decimalWithinLimit? n with
  | some text => .ok (text ++ "_" ++ name)
  | none => .error (.document .integerTooLong)

/-- The greatest exponent of a power of two.  An integer has at most `2 ^ 61 - 7` digits of thirty
bits, one of which is for the highest bit of the power. -/
def bitLimit : Int := 30 * (0x2000000000000000 - 8)

/-- The number that bits stand for in two's complement: if the highest of `8 * size` bits is set,
the bits less `2 ^ (8 * size)`. -/
def signedValue (bits size : Int) : Outcome Int :=
  if size ≤ 0 then .error (.document .negativeShift)
  else if bits >>> (8 * size - 1).toNat = 0 then .ok bits
  else if bitLimit < 8 * size then .error .overflow
  else .ok (bits - (Nat.pow 2 (8 * size).toNat : Int))

/-- The short form of a scalar of a named type, if the type has one. -/
def scalarText? (name : String) (bits size : Int) : Option (Outcome String) :=
  if name = "()" ∧ size = 0 then some (.ok "()")
  else if name = "bool" ∧ bits = 0 then some (.ok "false")
  else if name = "bool" ∧ bits = 1 then some (.ok "true")
  else if name = "char" then some (characterText bits)
  else if name ∈ unsignedNames then some (suffixed bits name)
  else if name ∈ signedNames then some (do suffixed (← signedValue bits size) name)
  else none

/-- The short form of a constant. -/
def pretty (c : Const) : Outcome String :=
  match c.value, c.ty.name with
  | .unevaluated item promoted, _ => .ok (itemText item promoted)
  | .scalar bits size, .spelled name => (scalarText? name.plain bits size).getD c.withTypeName
  | .scalar _ _, .array _ | .scalar _ _, .object _ => .error .wrongShape
  | _, _ => c.withTypeName

end Const

end MirListing
