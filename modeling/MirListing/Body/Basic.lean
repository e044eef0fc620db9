import MirListing.Body.Terminator

/-!
# Bodies

A body is the control-flow graph of one item: its blocks, its locals nested in scopes, and records
that name places for a debugger.  Local 0 is the place of the result and the locals from 1 on are
the arguments, as many as `argCount` says.  A number of arguments below zero counts as none when
the arguments are listed.
-/

namespace MirListing

/-- Statements and the terminator that ends them. -/
structure BasicBlock where
  /-- The statements. -/
  statements : List Statement
  /-- The end. -/
  terminator : Terminator
  /-- Whether the block runs while unwinding. -/
  isCleanup : Bool := false

/-- The declaration of a local. -/
structure LocalDecl where
  /-- The type. -/
  ty : Ty
  /-- Where it comes from. -/
  sourceInfo : SourceInfo := {}
  /-- Whether it may change. -/
  isMutable : Bool := true
  /-- Parts of types that have been written down for it. -/
  userTypes : List UserTypeProjection := []

/-- A scope of locals. -/
structure Scope where
  /-- The region. -/
  span : Span := Span.none
  /-- The scope around it, none for the outermost one. -/
  parent? : Option Int := none
deriving DecidableEq, Repr

/-- A name for a place. -/
structure DebugRecord where
  /-- The name. -/
  name : Label
  /-- Where it comes from. -/
  sourceInfo : SourceInfo
  /-- The place. -/
  place : Place

/-- A type that has been written down. -/
structure UserType where
  /-- Its written form. -/
  text : Label
  /-- Where it stands. -/
  span : Span
  /-- The type that was inferred. -/
  inferred : Ty

/-- The control-flow graph of an item. -/
structure Body where
  /-- The blocks. -/
  blocks : List BasicBlock
  /-- The locals. -/
  locals : List LocalDecl
  /-- The scopes, the outermost one first. -/
  scopes : List Scope := [{}]
  /-- The number of arguments. -/
  argCount : Int := 0
  /-- Names for places. -/
  debugRecords : List DebugRecord := []
  /-- The types that have been written down. -/
  userTypes : List UserType := []
  /-- The type of what a generator hands out. -/
  yieldType? : Option Ty := none
  /-- The written form of the layout of a generator. -/
  generatorLayout? : Option Label := none
  /-- The region of the item. -/
  span : Span := Span.none

namespace Body

/-- A body has a place for its result, and a local for each argument. -/
def check (body : Body) : Outcome Unit :=
  if body.locals.isEmpty then .error (.document .noLocals)
  else if (body.locals.length : Int) ≤ body.argCount then .error (.document .tooManyArguments)
  else .ok ()

/-- The type of the result. -/
def returnType (body : Body) : Ty := (body.locals.head?.map LocalDecl.ty).getD default

/-- The arguments with their numbers. -/
def arguments (body : Body) : List (LocalDecl × Nat) :=
  ((body.locals.drop 1).take body.argCount.toNat).zipIdx 1

/-- Whether a local is an argument. -/
def isArgument (body : Body) (index : Nat) : Bool := 1 ≤ index && (index : Int) ≤ body.argCount

/-! ## Allocations referred to -/

/-- The allocations that a block refers to. -/
def blockAllocIds (block : BasicBlock) : List AllocId :=
  (block.statements.flatMap fun statement => statement.kind.allocIds) ++
    block.terminator.kind.allocIds

/-- The allocations that constants in a body refer to, in the order of its parts and as often as
they occur. -/
def mentions (body : Body) : List AllocId :=
  body.blocks.flatMap blockAllocIds ++
    (body.locals.flatMap fun decl => decl.ty.allocIds) ++
    (body.debugRecords.flatMap fun record => record.place.allocIds) ++
    (body.userTypes.flatMap fun userType => userType.inferred.allocIds) ++
    (body.yieldType?.map Ty.allocIds).getD []

/-- The allocations that constants in a body refer to, each where it first occurs. -/
def allocIds (body : Body) : List AllocId := body.mentions.eraseDups

theorem mem_allocIds {body : Body} {id : AllocId} : id ∈ body.allocIds ↔ id ∈ body.mentions := by
  simp [allocIds]

end Body

end MirListing
