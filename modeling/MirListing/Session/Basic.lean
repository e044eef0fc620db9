import MirListing.Dump.Basic
import MirListing.Position
import MirListing.Reader.Program

/-!
# Sessions

A session is what a program document has set up and what has been changed since: the context of
listings, the settings of dumps, and the items in the order in which they were loaded.

An update either gives a new session or fails, and then there is no new session: the old one stays.
What is registered or set later names items by their paths alone, as local items of the default
crate.
-/

namespace MirListing

/-- A session. -/
structure Session where
  /-- What listings depend on. -/
  context : Context := {}
  /-- The settings of dumps. -/
  options : DumpOptions := {}
  /-- The loaded items in order. -/
  loaded : List Item := []

namespace Session

/-- A session with the contents of a program. -/
def ofProgram (options : DumpOptions) (sourceMap : SourceMap) (p : Program) : Session :=
  { context := { items := p.table, directory := p.directory, sourceMap, layout := p.layout }
    options, loaded := p.items }

/-- A session with the contents of a document; without one it is empty. -/
def start (options : DumpOptions) (sourceMap : SourceMap) : Option Value → Outcome Session
  | none => .ok { options, context := { sourceMap } }
  | some document => do return ofProgram options sourceMap (← Program.read document)

/-! ## Bodies -/

/-- Which body of the loaded items is meant. -/
structure Selection where
  /-- The place of the item. -/
  item : Label := .integer 0
  /-- The place of the promoted constant, none for the main body. -/
  promoted : Option Label := none
deriving Repr

/-- The element at the place that a value gives: an integer, or a truth value for one or zero. -/
def elementOf {α : Type} (items : List α) (place : Label) : Outcome α := do
  let position ←
    match place with
    | .integer n => pure n
    | .bool b => pure (if b then 1 else 0)
    | _ => .error .wrongShape
  elementAt .outOfRange items position

/-- Where the body that is meant comes from, and the body, if the item has a main body. -/
def find (s : Session) (selection : Selection) : Outcome (BodySource × Option Body) := do
  let item ← elementOf s.loaded selection.item
  match selection.promoted with
  | none => return ({ item := item.id }, item.body?)
  | some place =>
      return ({ item := item.id, promoted := some place }, some (← elementOf item.promoted place))

/-- The body that is meant, which must be there, and where it comes from. -/
def select (s : Session) (selection : Selection) : Outcome (BodySource × Body) := do
  match ← s.find selection with
  | (source, some body) => return (source, body)
  | (_, none) => .error .wrongShape

/-! ## Updates -/

/-- The same session with another directory. -/
def withDirectory (s : Session) (d : Directory) : Session :=
  { s with context := { s.context with directory := d } }

/-- Sets an allocation from its entry in a document. -/
def setAllocation (s : Session) (entry : Value) : Outcome Session := do
  return s.withDirectory (← s.context.directory.readEntry Names.none entry)

/-- Gives out a handle for memory that is read from a document. -/
def createMemory (s : Session) (value : Value) : Outcome (AllocId × Session) := do
  let (id, directory) := s.context.directory.create (.memory (← Allocation.read value))
  return (id, s.withDirectory directory)

/-- Registers an item that is read from a document. -/
def register (s : Session) (value : Value) : Outcome Session := do
  let item ← Item.read Names.none value
  return { s with
    context := { s.context with items := s.context.items.register item }
    loaded := s.loaded ++ [item] }

/-- Adds a rule to the source map. -/
def addRule (s : Session) (start replacement : Label) : Outcome Session := do
  let sourceMap ← s.context.sourceMap.addLabel start replacement
  return { s with context := { s.context with sourceMap } }

/-- Replaces the layout. -/
def setLayout (s : Session) (layout : Layout) : Session :=
  { s with context := { s.context with layout } }

end Session

end MirListing
