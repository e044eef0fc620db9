import MirListing.Body.Type
import MirListing.Reader.Memory
import MirListing.Reader.Names

/-!
# Reading types and constants

A type is a string, or an object with a name and a list of constants; a constant is an object with a
type and a value.  The two readers call each other, always on something inside what they were given.
-/

namespace MirListing

/-! ## Values -/

/-- Reads the value of a constant. -/
def ConstValue.read (names : Names) (value : Value) : Outcome ConstValue := do
  let (kind, fields) ← value.tagged "constant value"
  match kind with
  | .text "scalar" => return .scalar (← fields.integer "bits") (← fields.integerOr "size" 0)
  | .text "ptr" => return .pointer ⟨← fields.integer "alloc"⟩ (← fields.integerOr "offset" 0)
  | .text "by_ref" =>
      let allocation ← Allocation.read (← value.require "by_ref value" "alloc")
      return .byRef allocation (← fields.integerOr "offset" 0)
  | .text "slice" =>
      let allocation ← Allocation.read (← value.require "slice value" "data")
      let start ← fields.integerOr "start" 0
      return .slice allocation start (← fields.integerOr "end" 0)
  | .text "unevaluated" =>
      let item ← names.resolve (← fields.member "path")
      return .unevaluated item (← fields.integer? "promoted")
  | _ => .error (.document (.unknown "constant value kind" (.spelled kind)))

/-! ## Types and constants -/

/-- Why something that is no object is no constant. -/
def Const.refusal (value : Value) : Failure :=
  match value.require "constant" "ty" with
  | .error failure => failure
  | .ok _ => .wrongShape

/-- Refuses the constants of a type that are not given as an array: what the value holds is no
object. -/
def Const.refuseElements (value : Value) : Outcome (List Const) := do
  match ← value.elementsIfGiven with
  | [] => return []
  | element :: _ => .error (Const.refusal element)

mutual

/-- Reads a type. -/
def Ty.read (names : Names) (value : Value) : Outcome Ty :=
  match value with
  | .spelled name => .ok (.mk (.spelled name) [])
  | .object fields =>
      match Fields.field? "name" fields with
      | none => .error (.document (.absentField "type" "name"))
      | some name =>
          match _h : Fields.field? "consts" fields with
          | some (.array entries) => do
              return .mk name (← entries.attach.mapM fun ⟨entry, _⟩ => Const.read names entry)
          | some other => do return .mk name (← Const.refuseElements other)
          | none => .ok (.mk name [])
  | other => do
      let _ ← other.require "type" "name"
      .error .wrongShape
termination_by sizeOf value
decreasing_by
  exact Nat.lt_trans (Value.sizeOf_mem_array (by assumption)) (Fields.sizeOf_field (by assumption))

/-- Reads a constant. -/
def Const.read (names : Names) (value : Value) : Outcome Const :=
  match value with
  | .object fields =>
      match _h : Fields.field? "ty" fields with
      | none => .error (.document (.absentField "constant" "ty"))
      | some ty => do
          let ty ← Ty.read names ty
          let value ← Value.require "constant" "val" (.object fields)
          return .mk ty (← ConstValue.read names value)
  | other => .error (Const.refusal other)
termination_by sizeOf value
decreasing_by
  exact Fields.sizeOf_field (by assumption)

end

end MirListing
