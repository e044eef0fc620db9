import MirListing.Body.Basic
import MirListing.Reader.Statement

/-!
# Reading bodies

The parts of a body are read in the order blocks, locals, scopes, debug records and written types;
the number of arguments, the type handed out and the span come after them.  A body without scopes
has one outermost scope.
-/

namespace MirListing

/-- Reads a block. -/
def BasicBlock.read (names : Names) (value : Value) : Outcome BasicBlock := do
  let fields ← value.asObject
  let statements ← (← (fields.field "statements").elementsIfGiven).mapM (Statement.read names)
  let terminator ← value.require "basic block" "terminator"
  return { statements, terminator := ← Terminator.read names terminator,
           isCleanup := fields.flag "cleanup" false }

/-- Reads the declaration of a local. -/
def LocalDecl.read (names : Names) (value : Value) : Outcome LocalDecl := do
  let ty ← Ty.read names (← value.require "local" "ty")
  let fields ← value.asObject
  let sourceInfo ← SourceInfo.read (fields.field "source_info")
  let userTypes ← (fields.field "user_ty").elementsIfGiven
  return { ty, sourceInfo, isMutable := fields.flag "mutable" true,
           userTypes := ← userTypes.mapM UserTypeProjection.read }

/-- Reads a scope. -/
def Scope.read (value : Value) : Outcome Scope := do
  let fields ← value.asObject
  return { span := ← Span.read (fields.field "span"), parent? := ← fields.integer? "parent" }

/-- Reads a name for a place. -/
def DebugRecord.read (names : Names) (value : Value) : Outcome DebugRecord := do
  let fields ← value.asObject
  let name ← fields.member "name"
  let sourceInfo ← SourceInfo.read (fields.field "source_info")
  return { name, sourceInfo, place := ← readPlace names "place" fields }

/-- Reads a type that has been written down. -/
def UserType.read (names : Names) (value : Value) : Outcome UserType := do
  let fields ← value.asObject
  let text ← fields.member "user_ty"
  let span ← Span.read (fields.field "span")
  return { text, span, inferred := ← Ty.read names (← fields.member "inferred_ty") }

/-- Reads the scopes of a body; there is at least one. -/
def readScopes (value : Value) : Outcome (List Scope) := do
  if value.isGiven then (← value.elements).mapM Scope.read else return [{}]

/-- Reads a body. -/
def Body.read (names : Names) (value : Value) : Outcome Body := do
  let blocks ← (← (← value.require "body" "blocks").elements).mapM (BasicBlock.read names)
  let locals ← (← (← value.require "body" "locals").elements).mapM (LocalDecl.read names)
  let fields ← value.asObject
  let scopes ← readScopes (fields.field "scopes")
  let debugRecords ←
    (← (fields.field "var_debug_info").elementsIfGiven).mapM (DebugRecord.read names)
  let userTypes ←
    (← (fields.field "user_type_annotations").elementsIfGiven).mapM (UserType.read names)
  let argCount ← fields.integerOr "arg_count" 0
  let yieldType? ←
    match fields.field "yield_ty" with
    | .null => pure none
    | ty => do pure (some (← Ty.read names ty))
  let span ← Span.read (fields.field "span")
  let body : Body :=
    { blocks, locals, scopes, argCount, debugRecords, userTypes, yieldType?,
      generatorLayout? := fields.label? "generator_layout", span }
  body.check
  return body

end MirListing
