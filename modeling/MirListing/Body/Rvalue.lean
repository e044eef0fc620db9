import MirListing.Body.Place

/-!
# Computed values

The right-hand side of an assignment, in twelve kinds.  Every kind writes its operands from left to
right; an aggregate pairs them with the names of its fields if it has some, and then shows no more
operands than there are names.

`operands` lists the operands in the order in which a document gives them, `constants` the constants
among them.  `allocIds` follows the fields of each kind in order.
-/

namespace MirListing

/-! ## Operators -/

/-- How a place is borrowed. -/
inductive BorrowKind
  /-- For reading. -/
  | shared
  /-- For a check of a match. -/
  | shallow
  /-- Uniquely, without being mutable. -/
  | unique
  /-- For writing. -/
  | mut
deriving DecidableEq, Repr

/-- The word of a borrow kind, with the space behind it. -/
def BorrowKind.word : BorrowKind → String
  | .shared => ""
  | .shallow => "shallow "
  | .unique => "uniq "
  | .mut => "mut "

/-- The borrow kind of a name in a document. -/
def BorrowKind.ofName? : String → Option BorrowKind
  | "shared" => some .shared
  | "shallow" => some .shallow
  | "unique" => some .unique
  | "mut" => some .mut
  | _ => none

/-- An operator on two operands. -/
inductive BinaryOperator
  /-- Sum. -/
  | add
  /-- Difference. -/
  | sub
  /-- Product. -/
  | mul
  /-- Quotient. -/
  | div
  /-- Remainder. -/
  | rem
  /-- Exclusive or, bit by bit. -/
  | bitXor
  /-- And, bit by bit. -/
  | bitAnd
  /-- Or, bit by bit. -/
  | bitOr
  /-- Shift to the left. -/
  | shl
  /-- Shift to the right. -/
  | shr
  /-- Equal. -/
  | eq
  /-- Less. -/
  | lt
  /-- At most. -/
  | le
  /-- Different. -/
  | ne
  /-- At least. -/
  | ge
  /-- Greater. -/
  | gt
  /-- A pointer moved by a number of elements. -/
  | offset
deriving DecidableEq, Repr

namespace BinaryOperator

/-- The operators in order. -/
def all : List BinaryOperator :=
  [.add, .sub, .mul, .div, .rem, .bitXor, .bitAnd, .bitOr, .shl, .shr, .eq, .lt, .le, .ne, .ge, .gt,
    .offset]

/-- The name of an operator. -/
def name : BinaryOperator → String
  | .add => "Add"
  | .sub => "Sub"
  | .mul => "Mul"
  | .div => "Div"
  | .rem => "Rem"
  | .bitXor => "BitXor"
  | .bitAnd => "BitAnd"
  | .bitOr => "BitOr"
  | .shl => "Shl"
  | .shr => "Shr"
  | .eq => "Eq"
  | .lt => "Lt"
  | .le => "Le"
  | .ne => "Ne"
  | .ge => "Ge"
  | .gt => "Gt"
  | .offset => "Offset"

/-- The operator of a name. -/
def ofName? (name : String) : Option BinaryOperator := all.find? (·.name = name)

theorem ofName?_name (op : BinaryOperator) : ofName? op.name = some op := by cases op <;> decide

end BinaryOperator

/-- An operator on one operand. -/
inductive UnaryOperator
  /-- Not, bit by bit. -/
  | not
  /-- The negative. -/
  | neg
deriving DecidableEq, Repr

/-- The name of an operator. -/
def UnaryOperator.name : UnaryOperator → String
  | .not => "Not"
  | .neg => "Neg"

/-- The operator of a name. -/
def UnaryOperator.ofName? : String → Option UnaryOperator
  | "Not" => some .not
  | "Neg" => some .neg
  | _ => none

/-- An operator on a type alone. -/
inductive NullaryOperator
  /-- The size of a value. -/
  | sizeOf
  /-- A new box. -/
  | box
deriving DecidableEq, Repr

/-- The name of an operator. -/
def NullaryOperator.name : NullaryOperator → String
  | .sizeOf => "SizeOf"
  | .box => "Box"

/-- The operator of a name. -/
def NullaryOperator.ofName? : String → Option NullaryOperator
  | "SizeOf" => some .sizeOf
  | "Box" => some .box
  | _ => none

/-- Whether a generator may be moved between its steps. -/
inductive Movability
  /-- It stays where it is. -/
  | static
  /-- It may be moved. -/
  | movable
deriving DecidableEq, Repr

/-- The name of a movability. -/
def Movability.name : Movability → String
  | .static => "Static"
  | .movable => "Movable"

/-- The movability of a name. -/
def Movability.ofName? : String → Option Movability
  | "Static" => some .static
  | "Movable" => some .movable
  | _ => none

/-! ## Aggregates -/

/-- What operands are put together to. -/
inductive AggregateKind
  /-- An array. -/
  | array (ty : Ty)
  /-- A tuple. -/
  | tuple
  /-- A structure or a variant, with the names of its fields unless it is like a tuple. -/
  | adt (path : Label) (variantName : Label) (fieldNames : Option (List Label))
      (userType : Option Int)
  /-- A closure, with the types it was made for. -/
  | closure (item : ItemId) (substs : List Ty)
  /-- A generator, with the types it was made for. -/
  | generator (item : ItemId) (substs : List Ty) (movability : Movability)

namespace AggregateKind

/-- Field names with their operands, as long as there are both. -/
def namedFields : List Label → List Operand → Outcome (List String)
  | name :: names, operand :: operands => do
      let text ← operand.describe
      let rest ← namedFields names operands
      return (name.shown ++ ": " ++ text) :: rest
  | _, _ => .ok []

/-- The name of a structure or a variant. -/
def adtName (path variantName : Label) : String :=
  if variantName.isGiven then path.shown ++ "::" ++ variantName.shown else path.shown

/-- A head with the operands between braces, alone if there are none. -/
def braced (head : String) (operands : List Operand) : Outcome String :=
  if operands.isEmpty then .ok head
  else do return head ++ " \x7b " ++ (← Operand.joined operands) ++ " \x7d"

/-- The written form of operands put together. -/
def describe (operands : List Operand) : AggregateKind → Outcome String
  | .array _ => do return "[" ++ (← Operand.joined operands) ++ "]"
  | .tuple =>
      match operands with
      | [operand] => do return "(" ++ (← operand.describe) ++ ",)"
      | _ => do return "(" ++ (← Operand.joined operands) ++ ")"
  | .adt path variantName (some names) _ => do
      let fields ← namedFields names operands
      return adtName path variantName ++ " \x7b " ++ ", ".intercalate fields ++ " \x7d"
  | .adt path variantName none _ =>
      if operands.isEmpty then .ok (adtName path variantName)
      else do return adtName path variantName ++ "(" ++ (← Operand.joined operands) ++ ")"
  | .closure item _ => braced ("[closure@" ++ item.pathText ++ "]") operands
  | .generator item _ movability =>
      braced ("[generator@" ++ item.pathText ++ " (" ++ movability.name ++ ")]") operands

/-- The allocations that the types of an aggregate refer to. -/
def allocIds : AggregateKind → List AllocId
  | .array ty => ty.allocIds
  | .tuple | .adt _ _ _ _ => []
  | .closure _ substs | .generator _ substs _ => substs.flatMap Ty.allocIds

end AggregateKind

/-! ## Computed values -/

/-- The right-hand side of an assignment. -/
inductive Rvalue
  /-- An operand. -/
  | use (operand : Operand)
  /-- An array of equal elements. -/
  | repeated (operand : Operand) (count : Int)
  /-- A reference. -/
  | ref (place : Place) (kind : BorrowKind) (region : Label)
  /-- A raw pointer. -/
  | addressOf (place : Place) (isMutable : Bool)
  /-- The length of a slice. -/
  | len (place : Place)
  /-- A cast. -/
  | cast (operand : Operand) (ty : Ty) (kind : Label)
  /-- An operator on two operands. -/
  | binary (op : BinaryOperator) (left right : Operand)
  /-- The same, with a flag for overflow. -/
  | checkedBinary (op : BinaryOperator) (left right : Operand)
  /-- An operator on one operand. -/
  | unary (op : UnaryOperator) (operand : Operand)
  /-- The number of a variant. -/
  | discriminant (place : Place)
  /-- An operator on a type. -/
  | nullary (op : NullaryOperator) (ty : Ty)
  /-- Operands put together. -/
  | aggregate (kind : AggregateKind) (operands : List Operand)

namespace Rvalue

/-- The written form. -/
def describe : Rvalue → Outcome String
  | .use operand => operand.describe
  | .repeated operand count => do
      return "[" ++ (← operand.describe) ++ "; " ++ Text.decimal count ++ "]"
  | .ref place kind region => do
      let region := if region.isGiven then region.shown ++ " " else ""
      return "&" ++ region ++ kind.word ++ (← place.describe)
  | .addressOf place isMutable => do
      return "&raw " ++ (if isMutable then "mut" else "const") ++ " " ++ (← place.describe)
  | .len place => do return "Len(" ++ (← place.describe) ++ ")"
  | .cast operand ty kind => do
      return (← operand.describe) ++ " as " ++ (← ty.text) ++ " (" ++ kind.shown ++ ")"
  | .binary op left right => do
      return op.name ++ "(" ++ (← left.describe) ++ ", " ++ (← right.describe) ++ ")"
  | .checkedBinary op left right => do
      return "Checked" ++ op.name ++ "(" ++ (← left.describe) ++ ", " ++ (← right.describe) ++ ")"
  | .unary op operand => do return op.name ++ "(" ++ (← operand.describe) ++ ")"
  | .discriminant place => do return "discriminant(" ++ (← place.describe) ++ ")"
  | .nullary op ty => do return op.name ++ "(" ++ (← ty.text) ++ ")"
  | .aggregate kind operands => kind.describe operands

/-- The written form as a label: a structure that is neither a variant nor has fields is written by
its path alone, and the path may be any label. -/
def label (value : Rvalue) : Outcome Label :=
  match value with
  | .aggregate (.adt path variantName none _) [] =>
      if variantName.isGiven then do return .string (← value.describe) else .ok path
  | _ => do return .string (← value.describe)

/-- The operands in order. -/
def operands : Rvalue → List Operand
  | .use operand | .repeated operand _ | .cast operand _ _ | .unary _ operand => [operand]
  | .binary _ left right | .checkedBinary _ left right => [left, right]
  | .aggregate _ operands => operands
  | .ref _ _ _ | .addressOf _ _ | .len _ | .discriminant _ | .nullary _ _ => []

/-- The constants among the operands. -/
def constants (value : Rvalue) : List Constant := value.operands.flatMap Operand.constants

/-- What operands are put together to. -/
def aggregateKind? : Rvalue → Option AggregateKind
  | .aggregate kind _ => some kind
  | _ => none

/-- The allocations that a computed value refers to. -/
def allocIds : Rvalue → List AllocId
  | .use operand | .repeated operand _ | .unary _ operand => operand.allocIds
  | .ref place _ _ | .addressOf place _ | .len place | .discriminant place => place.allocIds
  | .cast operand ty _ => operand.allocIds ++ ty.allocIds
  | .binary _ left right | .checkedBinary _ left right => left.allocIds ++ right.allocIds
  | .nullary _ ty => ty.allocIds
  | .aggregate kind operands => kind.allocIds ++ operands.flatMap Operand.allocIds

end Rvalue

end MirListing
