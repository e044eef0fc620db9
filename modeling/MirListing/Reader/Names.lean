import MirListing.Item.Identity
import MirListing.OrderedMap

/-!
# Names of items

A document refers to items by the texts of their paths.  The entries for items come first in the
reading of a document: each gives its path text the crate and the locality it states, and of several
entries with one text the first counts.  A text that no entry has stands for a local item of the
default crate.  The book of names is complete before anything else is read, so a reference means the
same wherever it stands.  Path texts are told apart as they are spelled, also where a half of a
surrogate pair stands alone in them; in an identity the replacement character stands for such a
half.
-/

namespace MirListing

/-- What the path texts of a document stand for. -/
structure Names where
  /-- The texts that have entries. -/
  known : OrderedMap Spelling ItemId := .empty

namespace Names

/-- The book without entries. -/
def none : Names := {}

/-- What a path text stands for. -/
def resolveText (names : Names) (text : Spelling) : Outcome ItemId :=
  match names.known.get? text with
  | some item => .ok item
  | Option.none => ItemId.parse text.plain

/-- What a value in the place of a path text stands for. -/
def resolve (names : Names) : Value → Outcome ItemId
  | .spelled text => names.resolveText text
  | _ => .error .wrongShape

/-- Adds what an entry says about a path text, unless something is known about it. -/
def addText (names : Names) (text : Spelling) (crate locality : Label) : Outcome Names :=
  if names.known.contains text then .ok names
  else do return ⟨names.known.put text (← ItemId.parse text.plain crate locality)⟩

/-- The crate that an entry states. -/
def crateOf (fields : Fields) : Label :=
  let crate := fields.field "crate"
  if crate.isGiven then crate else ItemId.defaultCrate

/-- Adds what the entry of an item says. -/
def addEntry (names : Names) (entry : Value) : Outcome Names := do
  let path ← entry.require "item" "path"
  let fields ← entry.asObject
  match path with
  | .spelled text => names.addText text (crateOf fields) (fields.fieldOr "local" (.bool true))
  | _ => .error .wrongShape

/-- The book of the entries of a document. -/
def ofEntries (entries : List Value) : Outcome Names := entries.foldlM addEntry none

end Names

end MirListing
