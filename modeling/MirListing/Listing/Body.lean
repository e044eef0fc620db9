import MirListing.Listing.Appendix
import MirListing.Listing.Comments
import MirListing.Listing.Scopes
import MirListing.Listing.Signature

/-!
# Listings of bodies

A body is listed in this order: its signature, its locals by scope, its blocks, and the allocations
it can reach.  `bodyListing` puts the written types of the body in front; it is what goes into a
file of its own, and it begins and ends at a point.  `programListing` lists the items of a session
one after another.
-/

namespace MirListing

/-! ## Statements and blocks -/

/-- What a statement or terminator contributes to a listing. -/
structure Node where
  /-- Where it comes from. -/
  sourceInfo : SourceInfo
  /-- Its written form. -/
  text : Outcome String
  /-- The comments below it. -/
  comments : List (Outcome String)

/-- A statement as a node. -/
def Statement.node (m : SourceMap) (s : Statement) : Node :=
  ⟨s.sourceInfo, s.kind.describe, s.kind.comments m⟩

/-- A terminator as a node. -/
def Terminator.node (m : SourceMap) (t : Terminator) : Node :=
  ⟨t.sourceInfo, t.kind.describe, t.kind.comments m⟩

/-- The line of a node. -/
def Node.line (m : SourceMap) (location : Location) (node : Node) : Outcome String := do
  let line := Text.padRight commentColumn ("        " ++ (← node.text) ++ ";")
  return line ++ " // " ++ location.text ++ ": " ++ (← m.comment node.sourceInfo) ++ "\n"

/-- A comment on a line of its own. -/
def commentLine (comment : String) : String :=
  Text.padRight commentColumn "" ++ " // " ++ comment ++ "\n"

/-- The listing of a node: its line and its comments, between two points. -/
def nodeListing (m : SourceMap) (location : Location) (node : Node) : Listing :=
  .concat [
    .point (.beforeLocation location),
    .ofOutcome (node.line m location),
    .concat (node.comments.map fun comment => .ofOutcome (comment.map commentLine)),
    .point (.afterLocation location)]

/-- The nodes of a block. -/
def BasicBlock.nodes (m : SourceMap) (b : BasicBlock) : List Node :=
  b.statements.map (Statement.node m) ++ [b.terminator.node m]

/-- The listing of a block. -/
def blockListing (m : SourceMap) (number : Nat) (b : BasicBlock) : Listing :=
  .concat [
    .text ("    bb" ++ number.repr ++ (if b.isCleanup then " (cleanup)" else "") ++ ": \x7b\n"),
    .concat ((b.nodes m).mapIdx fun index node => nodeListing m ⟨number, index⟩ node),
    .point (.afterTerminator number),
    .text "    \x7d\n"]

/-- The listing of blocks from a number on, an empty line between two of them. -/
def blocksFrom (m : SourceMap) (number : Nat) : List BasicBlock → Listing
  | [] => .empty
  | [b] => .point (.beforeBlock number) ++ blockListing m number b
  | b :: rest =>
      .point (.beforeBlock number) ++ blockListing m number b ++ .text "\n" ++
        blocksFrom m (number + 1) rest

/-! ## Bodies -/

/-- The listing of a body without the types that have been written down. -/
def functionListing (ctx : Context) (source : BodySource) (body : Body) : Listing :=
  .concat [
    signature ctx.items source body,
    .text "\x7b\n",
    scopesListing ctx.sourceMap body,
    .text "\n",
    blocksFrom ctx.sourceMap 0 body.blocks,
    .text "\x7d\n",
    appendix ctx body]

/-- The line of a type that has been written down. -/
def userTypeLine (m : SourceMap) (index : Nat) (userType : UserType) : Outcome String := do
  return "| " ++ index.repr ++ ": " ++ userType.text.shown ++ " at " ++
    (← m.spanText userType.span) ++ "\n"

/-- The types that have been written down. -/
def userTypesListing (m : SourceMap) (userTypes : List UserType) : Listing :=
  if userTypes.isEmpty then .empty
  else .concat [
    .text "| User Type Annotations\n",
    .concat (userTypes.mapIdx fun index userType => .ofOutcome (userTypeLine m index userType)),
    .text "|\n"]

/-- The listing of a body. -/
def bodyListing (ctx : Context) (source : BodySource) (body : Body) : Listing :=
  .concat [
    .point .beforeBody,
    userTypesListing ctx.sourceMap body.userTypes,
    functionListing ctx source body,
    .point .afterBody]

/-! ## Programs -/

/-- The lines in front of the listing of a program. -/
def programHeading : String :=
  "// WARNING: This output format is intended for human consumers only\n" ++
  "// and is subject to change without notice. Knock yourself out.\n"

/-- The listings of the promoted constants of an item, each behind an empty line. -/
def promotedListing (ctx : Context) (id : ItemId) : Listing :=
  .concat ((ctx.items.promoted id).mapIdx fun index body =>
    .text "\n" ++ functionListing ctx { item := id, promoted := some (.integer index) } body)

/-- The listing of an item: its main body and its promoted constants. -/
def itemListing (ctx : Context) (id : ItemId) : Listing :=
  match ctx.items.body id with
  | .ok body => functionListing ctx { item := id } body ++ promotedListing ctx id
  | .error failure => .fail failure

/-- The items that are listed: a single one, or all that have a body. -/
def listedItems (items : ItemTable) : Option ItemId → List ItemId
  | some id => [id]
  | none => items.withBody

/-- The listing of a program, or of a single item. -/
def programListing (ctx : Context) (single : Option ItemId) : Listing :=
  .text programHeading ++
    .concat ((listedItems ctx.items single).mapIdx fun position id =>
      (if position = 0 then .empty else .text "\n") ++ itemListing ctx id)

end MirListing
