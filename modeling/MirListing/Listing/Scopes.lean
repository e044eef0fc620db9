import MirListing.Body.Basic
import MirListing.Listing
import MirListing.Number.Machine
import MirListing.OrderedMap
import MirListing.Position
import MirListing.Source.Map
import MirListing.Text.Field

/-!
# Locals by scope

The locals of a body are listed inside the scopes they belong to.  `ScopeTree.ofScopes` turns the
parents that the scopes state into lists of children and checks that scope 0 is the only one without
a parent.  `scopeListing` follows a tree from a scope: debug records first, then locals, then the
child scopes between braces.

A tree need not come from the scopes, so the listing checks that each child states the scope it
stands under as its parent.  It keeps the scopes that have not been entered on the way from the
root; a child that has been entered would be listed for ever.  A child below zero counts from the
end of the scopes.  The depth of the root is free as well: below zero there is no indentation, and
a depth whose indentation is no machine number is refused before anything is written.
-/

namespace MirListing

/-! ## The tree of scopes -/

/-- The children of each scope. -/
abbrev ScopeTree := OrderedMap Int (List Int)

namespace ScopeTree

/-- The children of a scope. -/
def childrenOf (tree : ScopeTree) (scope : Int) : List Int := (OrderedMap.get? tree scope).getD []

/-- Adds a child behind the others. -/
def addChild (tree : ScopeTree) (parent child : Int) : ScopeTree :=
  OrderedMap.put tree parent (childrenOf tree parent ++ [child])

/-- Adds scopes, the first of which has a number. -/
def addScopes (tree : ScopeTree) (index : Nat) : List Scope → Except BodyFault ScopeTree
  | [] => .ok tree
  | scope :: rest =>
      match scope.parent?, index with
      | some _, 0 => .error .rootHasParent
      | some parent, index => addScopes (tree.addChild parent index) (index + 1) rest
      | none, 0 => addScopes tree 1 rest
      | none, index => .error (.orphanScope index)

/-- The tree of the scopes of a body. -/
def ofScopes (scopes : List Scope) : Except BodyFault ScopeTree :=
  addScopes OrderedMap.empty 0 scopes

end ScopeTree

/-! ## Lines -/

/-- The column at which the comment of a line begins. -/
def commentColumn : Nat := 40

/-- The spaces before a line at a depth. -/
def indentation (depth : Int) : String := String.ofList (List.replicate (4 * depth.toNat) ' ')

/-- A line with the comment that places it. -/
def commentedLine (line words comment : String) : String :=
  Text.padRight commentColumn line ++ " //" ++ words ++ " in " ++ comment ++ "\n"

/-- The line of a debug record. -/
def debugLine (m : SourceMap) (depth : Int) (record : DebugRecord) : Outcome String := do
  let line := indentation depth ++ "debug " ++ record.name.shown ++ " => " ++
    (← record.place.describe) ++ ";"
  return commentedLine line "" (← m.comment record.sourceInfo)

/-- The line of a local. -/
def localLine (m : SourceMap) (depth : Int) (index : Nat) (decl : LocalDecl) : Outcome String := do
  let types := String.join (decl.userTypes.map fun part => " as " ++ part.describe)
  let line := indentation depth ++ "let " ++ (if decl.isMutable then "mut " else "") ++ "_" ++
    index.repr ++ ": " ++ (← decl.ty.text) ++ types ++ ";"
  return commentedLine line (if index = 0 then " return place" else "")
    (← m.comment decl.sourceInfo)

/-- The debug records of a scope. -/
def debugLines (m : SourceMap) (body : Body) (scope depth : Int) : List (Outcome String) :=
  (body.debugRecords.filter fun record => record.sourceInfo.scope = scope).map (debugLine m depth)

/-- The locals of a scope that are no arguments, with their numbers. -/
def scopeLocals (body : Body) (scope : Int) : List (LocalDecl × Nat) :=
  body.locals.zipIdx.filter fun (decl, index) =>
    !body.isArgument index && decl.sourceInfo.scope = scope

/-- The locals of a scope. -/
def localLines (m : SourceMap) (body : Body) (scope depth : Int) : List (Outcome String) :=
  (scopeLocals body scope).map fun (decl, index) => localLine m depth index decl

/-! ## Scopes -/

/-- Every number that a scope of a body has. -/
def Body.scopeNumbers (body : Body) : List Int :=
  (List.range (2 * body.scopes.length)).map fun (n : Nat) => (n : Int) - body.scopes.length

/-- What a child scope must be to stand under its parent. -/
def Body.checkChild (body : Body) (parent child : Int) : Outcome Unit := do
  let scope ← elementAt .noScope body.scopes child
  if scope.parent? = some parent then return () else .error (.body (.misplacedScope child parent))

/-- The listing of a scope and its children.  `unentered` are the scopes that have not been entered
on the way here.  A run of the program has a limit on the calls that are open at once, about a
thousand scopes inside one another; this limit is left out here. -/
def scopeListing (m : SourceMap) (body : Body) (tree : ScopeTree) (unentered : List Int)
    (scope depth : Int) : Listing :=
  let indent := indentation depth
  .concat ((debugLines m body scope depth).map .ofOutcome) ++
  .concat ((localLines m body scope depth).map .ofOutcome) ++
  .concat ((tree.childrenOf scope).map fun child =>
    match body.checkChild scope child with
    | .error failure => .fail failure
    | .ok _ =>
        .text (indent ++ "scope " ++ Text.decimal child ++ " \x7b\n") ++
        (if child ∈ unentered then
          scopeListing m body tree (unentered.erase child) child (depth + 1)
        else .fail .endless) ++
        .text (indent ++ "\x7d\n"))
termination_by unentered.length
decreasing_by
  rename_i hmem
  have := List.length_pos_of_mem hmem
  rw [List.length_erase_of_mem hmem]
  omega

/-- The listing of a scope of a tree at a depth, whose indentation must be a machine number. -/
def scopeTreeListing (m : SourceMap) (body : Body) (tree : ScopeTree) (scope depth : Int) :
    Listing :=
  if ¬IsMachineNumber (4 * depth) then .fail .overflow
  else scopeListing m body tree (body.scopeNumbers.erase scope) scope depth

/-- The listing of the scopes that a body states. -/
def scopesListing (m : SourceMap) (body : Body) : Listing :=
  match ScopeTree.ofScopes body.scopes with
  | .ok tree => scopeTreeListing m body tree 0 1
  | .error fault => .fail (.body fault)

end MirListing
