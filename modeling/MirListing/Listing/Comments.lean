import MirListing.Body.Basic
import MirListing.Source.Map
import MirListing.Text.Cut

/-!
# Comments below a statement

The one line of a statement hides where its constants stand and what a closure was made from.  The
comments below it bring that back: a block of lines for each constant among the operands, in order,
and then one for what the statement puts together, if that is a closure, a generator, or a structure
with a written type.

A line that cannot be written is a failure in its place; those before it can.
-/

namespace MirListing

/-! ## Lines -/

/-- The types that a closure or generator was made for, one on a line. -/
def substsText (substs : List Ty) : Outcome String :=
  if substs.isEmpty then .ok "+ substs: []"
  else do
    let lines ← substs.mapM fun ty => do return "    " ++ (← ty.text) ++ ",\n"
    return "+ substs: [\n" ++ String.join lines ++ "]"

/-- The lines of the types that a closure or generator was made for. -/
def substsComments (substs : List Ty) : List (Outcome String) :=
  match substsText substs with
  | .ok text => (Text.cutString '\n' text).map .ok
  | .error failure => [.error failure]

/-- The line about a type that has been written down. -/
def userTypeComment (index : Int) : Outcome String := .ok ("+ user_ty: " ++ userTypeText index)

/-- The line about the item of a closure or generator. -/
def itemComment (item : ItemId) : Outcome String := .ok ("+ def_id: " ++ item.describe)

/-- The lines about a constant. -/
def Constant.comments (m : SourceMap) (c : Constant) : List (Outcome String) :=
  [.ok "ty::Const", do return "+ ty: " ++ (← c.literal.ty.text),
    do return "+ val: " ++ (← c.literal.describeValue), .ok "mir::Constant",
    do return "+ span: " ++ (← m.spanText c.span)] ++
  (c.userType.map userTypeComment).toList ++
  [do return "+ literal: " ++ (← c.literal.describe)]

/-- The lines about what is put together. -/
def AggregateKind.comments : AggregateKind → List (Outcome String)
  | .closure item substs => [.ok "closure", itemComment item] ++ substsComments substs
  | .generator item substs movability =>
      [.ok "generator", itemComment item] ++ substsComments substs ++
        [.ok ("+ movability: " ++ movability.name)]
  | .adt _ _ _ (some userType) => [.ok "adt", userTypeComment userType]
  | .adt _ _ _ none | .array _ | .tuple => []

/-! ## Nodes -/

/-- The lines about constants and what is put together from them. -/
def commentLines (m : SourceMap) (constants : List Constant) (kind? : Option AggregateKind) :
    List (Outcome String) :=
  constants.flatMap (Constant.comments m) ++ (kind?.map AggregateKind.comments).getD []

/-- The comments of an operand. -/
def Operand.comments (m : SourceMap) (o : Operand) : List (Outcome String) :=
  commentLines m o.constants none

/-- The comments of a computed value. -/
def Rvalue.comments (m : SourceMap) (v : Rvalue) : List (Outcome String) :=
  commentLines m v.constants v.aggregateKind?

/-- The comments of a statement. -/
def StatementKind.comments (m : SourceMap) (k : StatementKind) : List (Outcome String) :=
  commentLines m k.constants k.aggregateKind?

/-- The comments of a terminator. -/
def TerminatorKind.comments (m : SourceMap) (k : TerminatorKind) : List (Outcome String) :=
  commentLines m k.constants none

end MirListing
