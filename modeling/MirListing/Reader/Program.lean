import MirListing.Item.Table
import MirListing.Memory.Directory
import MirListing.Reader.Body

/-!
# Reading programs

A program document gives a target layout, items and allocations.  It is read in four steps: the
layout, the book of names from the entries of the items, the allocations, and the items themselves.
Only then are references to items resolved, so an entry may come after what refers to it.
-/

namespace MirListing

/-! ## Allocations -/

/-- Reads the entry of an allocation into a directory.  An entry of the kind `deallocated` makes its
handle used and leaves it without meaning. -/
def Directory.readEntry (names : Names) (d : Directory) (value : Value) : Outcome Directory := do
  let id : AllocId := ⟨← (← value.require "allocation" "id").toInteger⟩
  let (kind, fields) ← value.tagged "allocation"
  match kind with
  | .text "memory" => return d.set id (.memory (← Allocation.read value))
  | .text "fn" =>
      return d.set id (.function (← Value.require "fn allocation" "instance" (.object fields)))
  | .text "static" =>
      let path ← Value.require "static allocation" "path" (.object fields)
      return d.set id (.static (← names.resolve path))
  | .text "deallocated" => return (d.set id (.function (.string ""))).deallocate id
  | _ => .error (.document (.unknown "allocation kind" (.spelled kind)))

/-! ## Items -/

/-- Looks up the kind of an item. -/
def ItemKind.read? : Value → Outcome (Option ItemKind)
  | .null => .ok none
  | value => do return some (← value.named "item kind" ItemKind.ofName?)

/-- Reads a body, if there is one. -/
def Body.read? (names : Names) : Value → Outcome (Option Body)
  | .null => .ok none
  | value => do return some (← Body.read names value)

/-- Reads the value of a static, if there is one. -/
def ConstValue.read? (names : Names) : Value → Outcome (Option ConstValue)
  | .null => .ok none
  | value => do return some (← ConstValue.read names value)

/-- Reads an item, which must be one that can be looked up. -/
def Item.read (names : Names) (value : Value) : Outcome Item := do
  let fields ← value.asObject
  let id ← names.resolve (← fields.member "path")
  let kind? ← ItemKind.read? (fields.field "kind")
  let initializer? ← ConstValue.read? names (fields.field "initializer")
  let body? ← Body.read? names (fields.field "body")
  let promoted ← (← (fields.field "promoted").elementsIfGiven).mapM (Body.read names)
  id.checkKey
  return { id, kind?, isMutable := fields.flag "mutable" false,
           isForeign := fields.flag "foreign" false, initializer?,
           initializerFault? := fields.label? "initializer_error", body?, promoted }

/-! ## Programs -/

/-- What a program document holds. -/
structure Program where
  /-- The target layout. -/
  layout : Layout := {}
  /-- The directory of its allocations. -/
  directory : Directory := {}
  /-- Its items in order. -/
  items : List Item := []

namespace Program

/-- The table of the items. -/
def table (p : Program) : ItemTable := ItemTable.registerAll {} p.items

/-- Reads the layout of a program; an object that is not given counts as empty. -/
def readLayout (fields : Fields) : Outcome Layout :=
  let value := fields.field "data_layout"
  if value.isGiven then Layout.read value else .ok {}

/-- Reads a program. -/
def read : Value → Outcome Program
  | .object fields => do
      let layout ← readLayout fields
      let entries ← (Fields.field "items" fields).elementsIfGiven
      let names ← Names.ofEntries entries
      let allocations ← (Fields.field "allocations" fields).elementsIfGiven
      let directory ← allocations.foldlM (Directory.readEntry names) {}
      return { layout, directory, items := ← entries.mapM (Item.read names) }
  | _ => .error (.document (.notAnObject "program document"))

end Program

end MirListing
