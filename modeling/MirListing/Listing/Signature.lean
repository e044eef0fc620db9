import MirListing.Context
import MirListing.Listing

/-!
# Signatures

The first line of a body names its item.  A function lists its arguments and the type of its result;
anything else has a type and, for a promoted constant, says which item it was taken from.  Kinds
that have no body are refused, and so are arguments of what is no function.
-/

namespace MirListing

/-- Whether a body is listed with arguments: the main body of a function. -/
def BodySource.isFunction (source : BodySource) (kind? : Option ItemKind) : Bool :=
  source.promoted.isNone && kind?.any ItemKind.isFunctionLike

/-- The words before the path of an item of a kind. -/
def kindWords (isMutableStatic : Bool) (path : String) : Option ItemKind → Except BodyFault String
  | none => .ok ""
  | some .const | some .assocConst => .ok "const "
  | some .static => .ok (if isMutableStatic then "static mut " else "static ")
  | some kind => if kind.isFunctionLike then .ok "fn " else .error (.unexpectedKind kind.name path)

/-- The words before the path. -/
def signatureWords (items : ItemTable) (source : BodySource) : Outcome String :=
  match source.promotedText? with
  | some promoted => .ok (promoted ++ " in ")
  | none =>
      (kindWords (items.isMutableStatic source.item) source.item.pathText
        (items.kind? source.item)).mapError .body

/-- The arguments with their types. -/
def argumentsText (body : Body) : Outcome String := do
  let arguments ← body.arguments.mapM fun (decl, index) => do
    return "_" ++ index.repr ++ ": " ++ (← decl.ty.text)
  return ", ".intercalate arguments

/-- The arguments and the type of the result of a function. -/
def functionText (body : Body) : Outcome String := do
  return "(" ++ (← argumentsText body) ++ ") -> " ++ (← body.returnType.text)

/-- The type of what is no function. -/
def valueText (path : String) (body : Body) : Outcome String :=
  if body.argCount = 0 then do return ": " ++ (← body.returnType.text) ++ " ="
  else .error (.body (.unexpectedArguments path body.argCount))

/-- The type of what a generator hands out. -/
def yieldListing : Option Ty → Listing
  | none => .empty
  | some ty => .text "\n" ++ .ofOutcome do return "yields " ++ (← ty.text) ++ "\n"

/-- The signature of a body, up to the opening brace. -/
def signature (items : ItemTable) (source : BodySource) (body : Body) : Listing :=
  let path := source.item.pathText
  .concat [
    .ofOutcome (signatureWords items source),
    .text path,
    .ofOutcome (if source.isFunction (items.kind? source.item) then functionText body
      else valueText path body),
    yieldListing body.yieldType?,
    .text " "]

end MirListing
