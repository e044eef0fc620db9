import MirListing.Body.Statement

/-!
# Terminators

A terminator ends a block and says where control goes.  Its written form is a head and its edges: a
lone edge is written without its role, more of them with their roles between brackets.
-/

namespace MirListing

/-- How a block ends. -/
inductive TerminatorKind
  /-- Goes to a block. -/
  | goto (target : Int)
  /-- Chooses a block by a number: pairs of a number and its target, and a target for all others. -/
  | switchInt (scrutinee : Operand) (ty : Ty) (branches : List (Int × Int)) (otherwise : Int)
  /-- Goes on unwinding. -/
  | resume
  /-- Ends the program. -/
  | abort
  /-- Returns. -/
  | return
  /-- Is never reached. -/
  | unreachable
  /-- Ends a generator that is dropped. -/
  | generatorDrop
  /-- Drops a place. -/
  | drop (place : Place) (target : Int) (unwind : Option Int)
  /-- Drops a place and stores a value there. -/
  | dropAndReplace (place : Place) (value : Operand) (target : Int) (unwind : Option Int)
  /-- Calls a function. -/
  | call (function : Operand) (arguments : List Operand) (destination : Option Place)
      (target cleanup : Option Int)
  /-- Goes on only if a condition is as expected. -/
  | assert (condition : Operand) (expected : Bool) (message : Label) (target : Int)
      (cleanup : Option Int)
  /-- Hands out a value and waits. -/
  | yield (value : Operand) (next : Int) (resumeArgument : Place) (dropped : Option Int)
  /-- Goes to a block, with an edge to another that is never taken. -/
  | falseEdges (realTarget imaginaryTarget : Int)
  /-- Goes to a block, with an unwinding edge that is never taken. -/
  | falseUnwind (realTarget : Int) (unwind : Option Int)

namespace TerminatorKind

/-- What stands before the edges. -/
def head : TerminatorKind → Outcome String
  | .goto _ => .ok "goto"
  | .switchInt scrutinee _ _ _ => do return "switchInt(" ++ (← scrutinee.describe) ++ ")"
  | .resume => .ok "resume"
  | .abort => .ok "abort"
  | .return => .ok "return"
  | .unreachable => .ok "unreachable"
  | .generatorDrop => .ok "generator_drop"
  | .drop place _ _ => do return "drop(" ++ (← place.describe) ++ ")"
  | .dropAndReplace place value _ _ => do
      return "replace(" ++ (← place.describe) ++ " <- " ++ (← value.describe) ++ ")"
  | .call function arguments destination _ _ => do
      let call := (← function.describe) ++ "(" ++ (← Operand.joined arguments) ++ ")"
      match destination with
      | none => return call
      | some place => return (← place.describe) ++ " = " ++ call
  | .assert condition expected message _ _ => do
      return "assert(" ++ (if expected then "" else "!") ++ (← condition.describe) ++ ", \"" ++
        message.shown ++ "\")"
  | .yield value _ resumeArgument _ => do
      return (← resumeArgument.describe) ++ " = yield(" ++ (← value.describe) ++ ")"
  | .falseEdges _ _ => .ok "falseEdges"
  | .falseUnwind _ _ => .ok "falseUnwind"

/-- The role of an edge that is taken for a number. -/
def valueRole (ty : Ty) (value : Int) : Outcome String :=
  match ty.name with
  | .spelled name =>
      if name = .text "bool" ∧ value = 0 then .ok "false"
      else if name = .text "bool" ∧ value = 1 then .ok "true"
      else .ok (Text.decimal value ++ "_" ++ name.plain)
  | _ => .error .wrongShape

/-- The edge that is taken for a number. -/
def branchEdge (ty : Ty) (branch : Int × Int) : Outcome (String × Int) := do
  return (← valueRole ty branch.1, branch.2)

/-- An edge that may be absent. -/
def optionalEdge (role : String) : Option Int → List (String × Int)
  | some target => [(role, target)]
  | none => []

/-- The edges with their roles. -/
def successors : TerminatorKind → Outcome (List (String × Int))
  | .goto target => .ok [("", target)]
  | .switchInt _ ty branches otherwise => do
      let edges ← branches.mapM (branchEdge ty)
      return edges ++ [("otherwise", otherwise)]
  | .drop _ target unwind | .dropAndReplace _ _ target unwind =>
      .ok (("return", target) :: optionalEdge "unwind" unwind)
  | .call _ _ _ target cleanup =>
      .ok (optionalEdge "return" target ++ optionalEdge "unwind" cleanup)
  | .assert _ _ _ target none => .ok [("", target)]
  | .assert _ _ _ target (some cleanup) => .ok [("success", target), ("unwind", cleanup)]
  | .yield _ next _ dropped => .ok (("resume", next) :: optionalEdge "drop" dropped)
  | .falseEdges realTarget imaginaryTarget =>
      .ok [("real", realTarget), ("imaginary", imaginaryTarget)]
  | .falseUnwind realTarget unwind => .ok (("real", realTarget) :: optionalEdge "cleanup" unwind)
  | .resume | .abort | .return | .unreachable | .generatorDrop => .ok []

/-- The written form of a block as a target. -/
def targetText (target : Int) : String := "bb" ++ Text.decimal target

/-- A head and its edges. -/
def withEdges (head : String) : List (String × Int) → String
  | [] => head
  | [(_, target)] => head ++ " -> " ++ targetText target
  | edges =>
      head ++ " -> [" ++
        ", ".intercalate (edges.map fun (role, target) => role ++ ": " ++ targetText target) ++ "]"

/-- The written form. -/
def describe (kind : TerminatorKind) : Outcome String := do
  let head ← kind.head
  return withEdges head (← kind.successors)

/-- The operands in order. -/
def operands : TerminatorKind → List Operand
  | .switchInt scrutinee _ _ _ => [scrutinee]
  | .dropAndReplace _ value _ _ => [value]
  | .call function arguments _ _ _ => function :: arguments
  | .assert condition _ _ _ _ => [condition]
  | .yield value _ _ _ => [value]
  | _ => []

/-- The constants among the operands. -/
def constants (kind : TerminatorKind) : List Constant := kind.operands.flatMap Operand.constants

/-- The allocations that a terminator refers to. -/
def allocIds : TerminatorKind → List AllocId
  | .switchInt scrutinee ty _ _ => scrutinee.allocIds ++ ty.allocIds
  | .drop place _ _ => place.allocIds
  | .dropAndReplace place value _ _ => place.allocIds ++ value.allocIds
  | .call function arguments destination _ _ =>
      function.allocIds ++ arguments.flatMap Operand.allocIds ++
        (destination.map Place.allocIds).getD []
  | .assert condition _ _ _ _ => condition.allocIds
  | .yield value _ resumeArgument _ => value.allocIds ++ resumeArgument.allocIds
  | _ => []

end TerminatorKind

/-- A terminator and where it comes from. -/
structure Terminator where
  /-- Where it comes from. -/
  sourceInfo : SourceInfo
  /-- How the block ends. -/
  kind : TerminatorKind

end MirListing
