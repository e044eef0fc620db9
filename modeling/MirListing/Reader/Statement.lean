import MirListing.Body.Terminator
import MirListing.Reader.Rvalue

/-!
# Reading statements and terminators

Where a statement or terminator comes from is read before its own fields.
-/

namespace MirListing

/-! ## Statements -/

/-- Reads a part of a type that has been written down. -/
def UserTypeProjection.read (value : Value) : Outcome UserTypeProjection := do
  let base ← (← value.require "user type projection" "base").toInteger
  let fields ← value.asObject
  let steps ← (fields.field "projs").elementsIfGiven
  return { base, steps := steps.map Value.shown }

/-- Reads the fields of a statement of a kind. -/
def StatementKind.read (names : Names) (kind : Spelling) (fields : Fields) :
    Outcome StatementKind := do
  match kind with
  | .text "assign" =>
      let place ← readPlace names "place" fields
      return .assign place (← Rvalue.read names (← fields.member "rvalue"))
  | .text "fake_read" =>
      return .fakeRead (fields.fieldOr "cause" (.string "ForLet"))
        (← readPlace names "place" fields)
  | .text "set_discriminant" =>
      return .setDiscriminant (← readPlace names "place" fields) (← fields.integer "variant")
  | .text "storage_live" => return .storageLive (← fields.integer "local")
  | .text "storage_dead" => return .storageDead (← fields.integer "local")
  | .text "retag" =>
      return .retag (← readPlace names "place" fields) (fields.fieldOr "retag_kind" (.string ""))
  | .text "ascribe_user_type" =>
      let place ← readPlace names "place" fields
      let projection ← UserTypeProjection.read (← fields.member "projection")
      return .ascribeUserType place (fields.fieldOr "variance" (.string "Invariant")) projection
  | .text "nop" => return .nop
  | _ => .error (.document (.unknown "statement kind" (.spelled kind)))

/-- Reads a statement. -/
def Statement.read (names : Names) (value : Value) : Outcome Statement := do
  let (kind, fields) ← value.tagged "statement"
  let sourceInfo ← SourceInfo.read (fields.field "source_info")
  return { sourceInfo, kind := ← StatementKind.read names kind fields }

/-! ## Terminators -/

/-- Reads a list of integers. -/
def readIntegers (value : Value) : Outcome (List Int) := do
  (← value.elements).mapM Value.toInteger

/-- The branches of a switch: each number with its target, and the target that is left over. -/
def pairBranches : List Int → List Int → Outcome (List (Int × Int) × Int)
  | [], [otherwise] => .ok ([], otherwise)
  | value :: values, target :: targets => do
      let (branches, otherwise) ← pairBranches values targets
      return ((value, target) :: branches, otherwise)
  | _, _ => .error (.document .switchTargets)

/-- Reads the fields of a terminator of a kind. -/
def TerminatorKind.read (names : Names) (kind : Spelling) (fields : Fields) :
    Outcome TerminatorKind := do
  match kind with
  | .text "resume" => return .resume
  | .text "abort" => return .abort
  | .text "return" => return .return
  | .text "unreachable" => return .unreachable
  | .text "generator_drop" => return .generatorDrop
  | .text "goto" => return .goto (← fields.integer "target")
  | .text "switch_int" =>
      let scrutinee ← readOperand names "discr" fields
      let ty ← Ty.read names (fields.fieldOr "switch_ty" (.string "usize"))
      let values ← readIntegers (← fields.member "values")
      let targets ← readIntegers (← fields.member "targets")
      let (branches, otherwise) ← pairBranches values targets
      return .switchInt scrutinee ty branches otherwise
  | .text "drop" =>
      return .drop (← readPlace names "place" fields) (← fields.integer "target")
        (← fields.integer? "unwind")
  | .text "drop_and_replace" =>
      return .dropAndReplace (← readPlace names "place" fields) (← readOperand names "value" fields)
        (← fields.integer "target") (← fields.integer? "unwind")
  | .text "call" =>
      let function ← readOperand names "func" fields
      let arguments ← Operand.readAll names (fields.field "args")
      let destination ←
        match fields.field "destination" with
        | .null => pure none
        | value => do pure (some (← Place.read names value))
      return .call function arguments destination (← fields.integer? "target")
        (← fields.integer? "cleanup")
  | .text "assert" =>
      let condition ← readOperand names "cond" fields
      return .assert condition (fields.flag "expected" true) (fields.fieldOr "msg" (.string ""))
        (← fields.integer "target") (← fields.integer? "cleanup")
  | .text "yield" =>
      return .yield (← readOperand names "value" fields) (← fields.integer "resume")
        (← readPlace names "resume_arg" fields) (← fields.integer? "drop")
  | .text "false_edges" =>
      return .falseEdges (← fields.integer "real_target") (← fields.integer "imaginary_target")
  | .text "false_unwind" =>
      return .falseUnwind (← fields.integer "real_target") (← fields.integer? "unwind")
  | _ => .error (.document (.unknown "terminator kind" (.spelled kind)))

/-- Reads a terminator. -/
def Terminator.read (names : Names) (value : Value) : Outcome Terminator := do
  let (kind, fields) ← value.tagged "terminator"
  let sourceInfo ← SourceInfo.read (fields.field "source_info")
  return { sourceInfo, kind := ← TerminatorKind.read names kind fields }

end MirListing
