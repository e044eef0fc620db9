import MirListing.Document.Key
import MirListing.Document.Shape

/-!
# Item identities

An item is known by its crate, its path and whether it is local.  A path is written as components
between doubled colons, and a component that shares its name with others carries a disambiguator:
`a::b#1::c`.  Empty components are dropped.  The disambiguator stands after the last `#` of a
component, if something stands before it and only digits after it.

Three written forms: `pathText` leaves the crate out for local items, `fileText` is fit for a file
name, `describe` always names the crate.

Crate and locality are labels: a document may give any value, which is shown, or counts as local,
as it stands.  Two identities are the same item if they have one `key?`; an identity with an array
or an object in it has none and can be shown but not looked up.
-/

namespace MirListing

/-! ## Components -/

/-- One segment of an item path. -/
structure Component where
  /-- The name. -/
  name : String
  /-- The number that tells components of one name apart; zero is not written. -/
  disambiguator : Nat := 0
deriving DecidableEq, Repr

namespace Component

/-- The written form in a path. -/
def describe (c : Component) : String :=
  if c.disambiguator = 0 then c.name else c.name ++ "#" ++ c.disambiguator.repr

/-- The written form in a file name. -/
def fileText (c : Component) : String :=
  if c.disambiguator = 0 then c.name else c.name ++ "[" ++ c.disambiguator.repr ++ "]"

/-- Reads a component. -/
def parse (text : List Char) : Outcome Component :=
  match Text.splitLast '#' text with
  | some (name, suffix) =>
      if !name.isEmpty && !suffix.isEmpty && suffix.all Text.isDigit then do
        let n ← Value.integerOfText (String.ofList suffix)
        return { name := String.ofList name, disambiguator := n.toNat }
      else .ok { name := String.ofList text }
  | none => .ok { name := String.ofList text }

end Component

/-! ## Identities -/

/-- The identity of an item. -/
structure ItemId where
  /-- The crate. -/
  crate : Label
  /-- The path within the crate. -/
  path : List Component
  /-- What says whether the item belongs to the crate at hand. -/
  locality : Label := .bool true
deriving Repr

/-- What items are told apart by. -/
structure ItemKey where
  /-- The crate. -/
  crate : Key
  /-- The path within the crate. -/
  path : List Component
  /-- What says whether the item belongs to the crate at hand. -/
  locality : Key
deriving DecidableEq, Repr

namespace ItemId

/-- The crate of items that name none. -/
def defaultCrate : Label := .string "crate"

/-- Reads a path. -/
def parse (text : String) (crate : Label := defaultCrate) (locality : Label := .bool true) :
    Outcome ItemId :=
  match (Text.cutPairs ':' text.toList).filter (!·.isEmpty) with
  | [] => .error (.document .emptyPath)
  | parts => do return { crate, path := ← parts.mapM Component.parse, locality }

/-- Whether the item belongs to the crate at hand. -/
def isLocal (id : ItemId) : Bool := id.locality.isGiven

/-- What the item is told apart by. -/
def key? (id : ItemId) : Option ItemKey := do
  return { crate := ← id.crate.key?, path := id.path, locality := ← id.locality.key? }

/-- Refuses an identity that cannot be looked up. -/
def checkKey (id : ItemId) : Outcome Unit :=
  if id.key?.isSome then .ok () else .error .wrongShape

/-- The components between doubled colons. -/
def componentsText (id : ItemId) : String := "::".intercalate (id.path.map Component.describe)

/-- The path, with the crate in front of it for items of other crates. -/
def pathText (id : ItemId) : String :=
  if id.isLocal then id.componentsText else id.crate.shown ++ "::" ++ id.componentsText

/-- The path as part of a file name. -/
def fileText (id : ItemId) : String := "-".intercalate (id.path.map Component.fileText)

/-- The identity with its crate. -/
def describe (id : ItemId) : String :=
  "DefId(" ++ id.crate.shown ++ "::" ++ id.componentsText ++ ")"

example : (parse "a::b#1").toOption.map path = some [⟨"a", 0⟩, ⟨"b", 1⟩] := by decide +kernel
example : (parse ":::a#b##2::").toOption.map path = some [⟨":a#b#", 2⟩] := by decide +kernel
example : (parse "::").toOption.map path = none := by decide +kernel
example : (parse "a" (.integer 5) .null).toOption.map pathText = some "5::a" := by decide +kernel

end ItemId

/-! ## Which body -/

/-- Which body of which item.  All shims share one item, so a shim is told apart by the type it is
made for. -/
structure BodySource where
  /-- The item. -/
  item : ItemId
  /-- The number of the promoted constant, none for the main body. -/
  promoted : Option Label := none
  /-- The written form of the type a shim is made for. -/
  shimType : Option Label := none
deriving Repr

/-- How a promoted body is called. -/
def BodySource.promotedText? (source : BodySource) : Option String :=
  source.promoted.map fun number => "promoted[" ++ number.shown ++ "]"

end MirListing
