import MirListing.Body.Rvalue

/-!
# Statements

The eight kinds of statements and their written forms.  Only an assignment has operands.
-/

namespace MirListing

/-- A type that has been written down, and the steps from it to a part. -/
structure UserTypeProjection where
  /-- The number of the type. -/
  base : Int
  /-- The steps. -/
  steps : List String := []
deriving DecidableEq, Repr

/-- The written form of a type that has been written down. -/
def userTypeText (index : Int) : String := "UserType(" ++ Text.decimal index ++ ")"

/-- The written form of a part of a type that has been written down. -/
def UserTypeProjection.describe (p : UserTypeProjection) : String :=
  "UserTypeProjection \x7b base: " ++ userTypeText p.base ++ ", projs: [" ++
    ", ".intercalate p.steps ++ "] \x7d"

/-- What a statement does. -/
inductive StatementKind
  /-- Computes a value and stores it. -/
  | assign (place : Place) (value : Rvalue)
  /-- Pretends to read a place. -/
  | fakeRead (cause : Label) (place : Place)
  /-- Makes a place a variant. -/
  | setDiscriminant (place : Place) (variantIndex : Int)
  /-- Begins the life of a local. -/
  | storageLive (slot : Int)
  /-- Ends the life of a local. -/
  | storageDead (slot : Int)
  /-- Gives the pointers in a place new tags. -/
  | retag (place : Place) (kind : Label)
  /-- Says that a place has a type that has been written down. -/
  | ascribeUserType (place : Place) (variance : Label) (projection : UserTypeProjection)
  /-- Nothing. -/
  | nop

namespace StatementKind

/-- The written form. -/
def describe : StatementKind → Outcome String
  | .assign place value => do return (← place.describe) ++ " = " ++ (← value.describe)
  | .fakeRead cause place => do
      return "FakeRead(" ++ cause.shown ++ ", " ++ (← place.describe) ++ ")"
  | .setDiscriminant place variantIndex => do
      return "discriminant(" ++ (← place.describe) ++ ") = " ++ Text.decimal variantIndex
  | .storageLive slot => .ok ("StorageLive(_" ++ Text.decimal slot ++ ")")
  | .storageDead slot => .ok ("StorageDead(_" ++ Text.decimal slot ++ ")")
  | .retag place kind => do
      let kind := if kind.isGiven then "[" ++ kind.shown ++ "] " else ""
      return "Retag(" ++ kind ++ (← place.describe) ++ ")"
  | .ascribeUserType place variance projection => do
      return "AscribeUserType(" ++ (← place.describe) ++ ", " ++ variance.shown ++ ", " ++
        projection.describe ++ ")"
  | .nop => .ok "nop"

/-- The constants among the operands. -/
def constants : StatementKind → List Constant
  | .assign _ value => value.constants
  | _ => []

/-- What an assignment puts together. -/
def aggregateKind? : StatementKind → Option AggregateKind
  | .assign _ value => value.aggregateKind?
  | _ => none

/-- The allocations that a statement refers to. -/
def allocIds : StatementKind → List AllocId
  | .assign place value => place.allocIds ++ value.allocIds
  | .fakeRead _ place | .setDiscriminant place _ | .retag place _ | .ascribeUserType place _ _ =>
      place.allocIds
  | .storageLive _ | .storageDead _ | .nop => []

end StatementKind

/-- A statement and where it comes from. -/
structure Statement where
  /-- Where it comes from. -/
  sourceInfo : SourceInfo
  /-- What it does. -/
  kind : StatementKind

end MirListing
