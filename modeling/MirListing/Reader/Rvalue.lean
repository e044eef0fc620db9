import MirListing.Body.Rvalue
import MirListing.Reader.Place

/-!
# Reading computed values

Each kind reads its fields in a fixed order, and the first that cannot be read is the failure.  An
operator is looked up before its operands are read.
-/

namespace MirListing

/-- Looks up the value of a field among those that have a name. -/
def Value.named {α : Type} (what : String) (ofName? : String → Option α) (value : Value) :
    Outcome α :=
  match value with
  | .string name =>
      match ofName? name with
      | some a => .ok a
      | none => .error (.document (.unknown what value))
  | _ => .error (.document (.unknown what value))

/-- Looks up a borrow kind; one that is not known is missing from the table. -/
def BorrowKind.ofValue : Value → Outcome BorrowKind
  | .string name =>
      match BorrowKind.ofName? name with
      | some kind => .ok kind
      | none => .error (.missing name)
  | .array _ | .object _ => .error .wrongShape
  | value => .error (.missing value.shown)

/-- Whether a name means that something may change. -/
def mutabilityOfName? : String → Option Bool
  | "not" => some false
  | "mut" => some true
  | _ => none

/-! ## Aggregates -/

/-- The names of fields, if they are given. -/
def readFieldNames : Value → Outcome (Option (List Label))
  | .null => .ok none
  | value => do return some (← value.elements)

/-- Reads the types that a closure or generator was made for. -/
def readSubsts (names : Names) (fields : Fields) : Outcome (List Ty) := do
  (← (fields.field "substs").elementsIfGiven).mapM (Ty.read names)

/-- Reads what operands are put together to. -/
def AggregateKind.read (names : Names) (value : Value) : Outcome AggregateKind := do
  let (kind, fields) ← value.tagged "aggregate"
  match kind with
  | .text "array" => return .array (← Ty.read names (← fields.member "ty"))
  | .text "tuple" => return .tuple
  | .text "adt" =>
      let path ← fields.member "path"
      let fieldNames ← readFieldNames (fields.field "fields")
      return .adt path (fields.field "variant") fieldNames (← fields.integer? "user_ty")
  | _ =>
      let substs ← readSubsts names fields
      match kind with
      | .text "closure" => return .closure (← names.resolve (← fields.member "path")) substs
      | .text "generator" =>
          let movability ← (fields.fieldOr "movability" (.string "Movable")).named "movability"
            Movability.ofName?
          return .generator (← names.resolve (← fields.member "path")) substs movability
      | _ => .error (.document (.unknown "aggregate kind" (.spelled kind)))

/-! ## Computed values -/

/-- Reads an operator and its two operands. -/
def readBinary (names : Names) (fields : Fields) :
    Outcome (BinaryOperator × Operand × Operand) := do
  let op ← (← fields.member "op").named "binary operator" BinaryOperator.ofName?
  let left ← Operand.read names (← fields.member "lhs")
  return (op, left, ← Operand.read names (← fields.member "rhs"))

/-- Reads the operand in a field. -/
def readOperand (names : Names) (name : String) (fields : Fields) : Outcome Operand := do
  Operand.read names (← fields.member name)

/-- Reads the place in a field. -/
def readPlace (names : Names) (name : String) (fields : Fields) : Outcome Place := do
  Place.read names (← fields.member name)

/-- Reads a computed value. -/
def Rvalue.read (names : Names) (value : Value) : Outcome Rvalue := do
  let (kind, fields) ← value.tagged "rvalue"
  match kind with
  | .text "use" => return .use (← readOperand names "operand" fields)
  | .text "repeat" =>
      return .repeated (← readOperand names "operand" fields) (← fields.integer "count")
  | .text "ref" =>
      let place ← readPlace names "place" fields
      let borrow ← BorrowKind.ofValue (fields.fieldOr "borrow" (.string "shared"))
      return .ref place borrow (fields.fieldOr "region" (.string ""))
  | .text "address_of" =>
      let place ← readPlace names "place" fields
      return .addressOf place
        (← (fields.fieldOr "mutability" (.string "not")).named "mutability" mutabilityOfName?)
  | .text "len" => return .len (← readPlace names "place" fields)
  | .text "cast" =>
      let operand ← readOperand names "operand" fields
      let ty ← Ty.read names (← fields.member "ty")
      return .cast operand ty (fields.fieldOr "cast_kind" (.string "Misc"))
  | .text "binary_op" =>
      let (op, left, right) ← readBinary names fields
      return .binary op left right
  | .text "checked_binary_op" =>
      let (op, left, right) ← readBinary names fields
      return .checkedBinary op left right
  | .text "unary_op" =>
      let op ← (← fields.member "op").named "unary operator" UnaryOperator.ofName?
      return .unary op (← readOperand names "operand" fields)
  | .text "discriminant" => return .discriminant (← readPlace names "place" fields)
  | .text "nullary_op" =>
      let op ← (← fields.member "op").named "nullary operator" NullaryOperator.ofName?
      return .nullary op (← Ty.read names (← fields.member "ty"))
  | .text "aggregate" =>
      let kind ← AggregateKind.read names (← fields.member "aggregate")
      return .aggregate kind (← Operand.readAll names (fields.field "operands"))
  | _ => .error (.document (.unknown "rvalue kind" (.spelled kind)))

end MirListing
