import MirListing.Listing.Comments
import MirListing.Reader.Body

/-!
# Looking at one node of a document

A node of a document can be read on its own and shown with what a listing would make of it: its
written form, the allocations it refers to and the comments it would have below it.
-/

namespace MirListing

/-- The kinds of nodes that can be read on their own. -/
inductive NodeKind
  /-- A type. -/
  | ty
  /-- The value of a constant. -/
  | constValue
  /-- A constant. -/
  | const
  /-- A place. -/
  | place
  /-- A step from a place to a part of it. -/
  | projection
  /-- An operand. -/
  | operand
  /-- A computed value. -/
  | rvalue
  /-- A statement. -/
  | statement
  /-- A terminator. -/
  | terminator
  /-- A part of a type that has been written down. -/
  | userTypeProjection
deriving DecidableEq, Repr

/-- What is shown about a node. -/
structure Inspection where
  /-- The written forms: for a constant its description, that of its value, and its short form; for
  any other node one text, or the label that stands for it. -/
  texts : List Label
  /-- The allocations that the node refers to. -/
  allocIds : List AllocId
  /-- The comments, none for a bare value. -/
  comments : Option (List String) := some []
  /-- The head and the edges of a terminator. -/
  edges : Option (String × List (String × Int)) := none
deriving Repr

/-- What is shown about a step is what it makes of this place. -/
def projectionSample : String := "X"

/-- Comments that can all be written. -/
def allComments (lines : List (Outcome String)) : Outcome (Option (List String)) := do
  return some (← lines.mapM id)

/-- Reads a node and looks at it. -/
def inspect (m : SourceMap) (kind : NodeKind) (value : Value) : Outcome Inspection := do
  let names := Names.none
  match kind with
  | .ty =>
      let ty ← Ty.read names value
      return { texts := [.string (← ty.text)], allocIds := ty.allocIds.eraseDups }
  | .constValue =>
      let v ← ConstValue.read names value
      return { texts := [.string (← v.describe)], allocIds := v.allocIds, comments := none }
  | .const =>
      let c ← Const.read names value
      return { texts := [← c.describe, ← c.describeValue, ← c.pretty].map .string
               allocIds := c.allocIds.eraseDups }
  | .place =>
      let p ← Place.read names value
      return { texts := [.string (← p.describe)], allocIds := p.allocIds.eraseDups }
  | .projection =>
      let p ← Projection.read names value
      return { texts := [.string (← p.wrap projectionSample)], allocIds := p.allocIds.eraseDups }
  | .operand =>
      let o ← Operand.read names value
      return { texts := [.string (← o.describe)], allocIds := o.allocIds.eraseDups
               comments := ← allComments (o.comments m) }
  | .rvalue =>
      let v ← Rvalue.read names value
      return { texts := [← v.label], allocIds := v.allocIds.eraseDups
               comments := ← allComments (v.comments m) }
  | .statement =>
      let s ← Statement.read names value
      return { texts := [.string (← s.kind.describe)], allocIds := s.kind.allocIds.eraseDups
               comments := ← allComments (s.kind.comments m) }
  | .terminator =>
      let t ← Terminator.read names value
      return { texts := [.string (← t.kind.describe)], allocIds := t.kind.allocIds.eraseDups
               comments := ← allComments (t.kind.comments m)
               edges := some (← t.kind.head, ← t.kind.successors) }
  | .userTypeProjection =>
      let p ← UserTypeProjection.read value
      return { texts := [.string p.describe], allocIds := [] }

end MirListing
