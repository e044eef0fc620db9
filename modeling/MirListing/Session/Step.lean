import MirListing.Dump.FileTree
import MirListing.Session.Basic

/-!
# Steps of a session

A step asks a session something or changes it.  `Session.apply` carries out one step; a failing step
leaves the session as it was, and `Session.run` goes on with the next one.
-/

namespace MirListing

/-! ## Steps and answers -/

/-- An item as a step names it. -/
structure ItemName where
  /-- The path. -/
  path : String
  /-- The crate. -/
  crate : Label := ItemId.defaultCrate
  /-- What says whether the item is local. -/
  locality : Label := .bool true
deriving Repr

/-- The identity that a step names. -/
def ItemName.id (n : ItemName) : Outcome ItemId := ItemId.parse n.path n.crate n.locality

/-- The identity that a step names, which must be one that can be looked up. -/
def ItemName.lookedUp (n : ItemName) : Outcome ItemId := do
  let id ← n.id
  id.checkKey
  return id

/-- The handle that a step names, none if no handle is named so. -/
def handleOf? (value : Value) : Outcome (Option AllocId) :=
  match value.key? with
  | some (.integer n) => .ok (some ⟨n⟩)
  | some _ => .ok none
  | none => .error .wrongShape

/-- A step. -/
inductive Step
  /-- What the session holds. -/
  | summary
  /-- The listing of a body. -/
  | render (which : Session.Selection) (annotated : Bool)
  /-- The listing of all items, or of a single one. -/
  | pretty (single : Option ItemName)
  /-- The dump of a body. -/
  | dump (which : Session.Selection) (shimType : Option Label) (pass : PassInfo) (annotated : Bool)
  /-- The children of each scope of a body. -/
  | scopes (which : Session.Selection)
  /-- The listing of a scope of a body by a given tree. -/
  | scopeTree (which : Session.Selection) (tree : ScopeTree) (scope depth : Int)
  /-- The allocations of all bodies. -/
  | allocations
  /-- A rule for the source map. -/
  | remap (start replacement : Label)
  /-- The written forms of a span. -/
  | span (value : Value)
  /-- Another layout. -/
  | layout (size endian : Value)
  /-- A new handle. -/
  | reserve
  /-- An allocation from its entry in a document. -/
  | set (entry : Value)
  /-- A new handle for memory. -/
  | createMemory (value : Value)
  /-- A new handle for a function. -/
  | createFunction (instanceText : Label)
  /-- A new handle for a static. -/
  | createStatic (item : ItemName)
  /-- A handle that shall refer to nothing. -/
  | deallocate (id : Value)
  /-- What a handle refers to. -/
  | get (id : Value)
  /-- An item that is registered and loaded. -/
  | register (value : Value)
  /-- What is known about an item. -/
  | query (item : ItemName)
  /-- The value of a static. -/
  | evaluate (item : ItemName)
  /-- The size of the body of an item. -/
  | blockCount (item : ItemName)

/-- What is known about an item. -/
structure ItemFacts where
  /-- Whether it is in the table. -/
  isKnown : Bool
  /-- Its kind. -/
  kind? : Option ItemKind
  /-- Whether it is defined elsewhere. -/
  isForeign : Bool
  /-- Whether it is a static that may change. -/
  isMutableStatic : Bool
  /-- The number of its promoted constants. -/
  promoted : Nat
  /-- The items that are listed for it. -/
  listed : List ItemId
deriving Repr

/-- The allocations of a body. -/
structure BodyAllocations where
  /-- The place of the item. -/
  item : Nat
  /-- The place of the promoted constant. -/
  promoted : Option Nat
  /-- The allocations that its constants refer to. -/
  direct : List AllocId
  /-- The allocations reached through memory. -/
  reached : List AllocId
deriving Repr

/-- The answer to a step. -/
inductive Answer
  /-- The step has been carried out. -/
  | done
  /-- The session itself. -/
  | summary (session : Session)
  /-- A text. -/
  | text (s : String)
  /-- The filter does not select the dump. -/
  | noDump
  /-- A dump and its file. -/
  | dumped (path contents : String)
  /-- The children of each scope. -/
  | scopes (tree : ScopeTree)
  /-- The allocations of bodies. -/
  | allocations (rows : List BodyAllocations)
  /-- A span: its file, its written form, and whether it is no place. -/
  | span (file text : String) (isNone : Bool)
  /-- A handle. -/
  | handle (id : AllocId)
  /-- A number of entries. -/
  | count (n : Nat)
  /-- What a handle refers to. -/
  | entry (found? : Option GlobalAlloc)
  /-- What is known about an item. -/
  | facts (facts : ItemFacts)

/-! ## Carrying out steps -/

namespace Session

/-- The text of a listing, with or without the points. -/
def textOf (annotated : Bool) (l : Listing) : Outcome String :=
  if annotated then l.renderWith Point.line else l.render

/-- Whether a file can be made in an empty directory. -/
def checkFile (path : FilePath) : Outcome Unit :=
  match (FileTree.create {} path "").2 with
  | some fault => .error (.file fault)
  | none => .ok ()

/-- The dump of a body in an empty directory.  The file is made before the body is missed. -/
def dumpAnswer (s : Session) (pass : PassInfo) (annotated : Bool) (source : BodySource)
    (body? : Option Body) : Outcome Answer := do
  let path ← dumpPath s.options pass source
  checkFile path
  match body? with
  | none => .error .wrongShape
  | some body =>
      let d ← dump s.context s.options pass source body
      return .dumped path.text (← textOf annotated d.contents)

/-- The allocations of a body. -/
def bodyAllocations (d : Directory) (item : Nat) (promoted : Option Nat) (body : Body) :
    BodyAllocations :=
  { item, promoted, direct := body.allocIds, reached := d.collect body.allocIds }

/-- The allocations of the bodies of an item. -/
def itemAllocations (d : Directory) (place : Nat) (item : Item) : List BodyAllocations :=
  (item.body?.map (bodyAllocations d place none)).toList ++
    item.promoted.mapIdx fun n promoted => bodyAllocations d place (some n) promoted

/-- What is known about an item. -/
def facts (t : ItemTable) (id : ItemId) : ItemFacts :=
  { isKnown := (t.get? id).isSome, kind? := t.kind? id, isForeign := t.isForeign id
    isMutableStatic := t.isMutableStatic id, promoted := (t.promoted id).length
    listed := listedItems t (some id) }

/-- Carries out a step. -/
def apply (s : Session) : Step → Outcome (Answer × Session)
  | .summary => .ok (.summary s, s)
  | .render which annotated => do
      let (source, body) ← s.select which
      return (.text (← textOf annotated (bodyListing s.context source body)), s)
  | .pretty single => do
      let id ← single.mapM ItemName.lookedUp
      return (.text (← (programListing s.context id).render), s)
  | .dump which shimType pass annotated => do
      let (source, body?) ← s.find which
      if ← s.options.selects pass source.item then
        return (← s.dumpAnswer pass annotated { source with shimType } body?, s)
      else return (.noDump, s)
  | .scopes which => do
      let (_, body) ← s.select which
      match ScopeTree.ofScopes body.scopes with
      | .ok tree => return (.scopes tree, s)
      | .error fault => .error (.body fault)
  | .scopeTree which tree scope depth => do
      let (_, body) ← s.select which
      return (.text (← (scopeTreeListing s.context.sourceMap body tree scope depth).render), s)
  | .allocations =>
      let rows := s.loaded.mapIdx fun place item => itemAllocations s.context.directory place item
      .ok (.allocations rows.flatten, s)
  | .remap start replacement => do return (.done, ← s.addRule start replacement)
  | .span value => do
      let span ← Span.read value
      let m := s.context.sourceMap
      return (.span (← m.fileName span) (← m.spanText span) span.isNone, s)
  | .layout size endian => do return (.done, s.setLayout (← Layout.ofValues size endian))
  | .reserve =>
      let (id, d) := s.context.directory.reserve
      .ok (.handle id, s.withDirectory d)
  | .set entry => do
      let s ← s.setAllocation entry
      return (.count s.context.directory.size, s)
  | .createMemory value => do
      let (id, s) ← s.createMemory value
      return (.handle id, s)
  | .createFunction instanceText =>
      let (id, d) := s.context.directory.create (.function instanceText)
      .ok (.handle id, s.withDirectory d)
  | .createStatic item => do
      let (id, d) := s.context.directory.create (.static (← item.id))
      return (.handle id, s.withDirectory d)
  | .deallocate id => do
      let d := s.context.directory
      let d := ((← handleOf? id).map d.deallocate).getD d
      return (.count d.size, s.withDirectory d)
  | .get id => do return (.entry ((← handleOf? id).bind s.context.directory.get?), s)
  | .register value => do
      let s ← s.register value
      return (.count s.context.items.size, s)
  | .query item => do return (.facts (facts s.context.items (← item.lookedUp)), s)
  | .evaluate item => do
      match s.context.items.evaluate (← item.lookedUp) with
      | .ok value => return (.text (← value.describe), s)
      | .error fault => .error (.evaluation fault)
  | .blockCount item => do
      let body ← s.context.items.body (← item.lookedUp)
      return (.count body.blocks.length, s)

/-- The session after a step; a failing step changes nothing. -/
def next (s : Session) (step : Step) : Session :=
  match s.apply step with
  | .ok (_, s) => s
  | .error _ => s

/-- The answer to a step. -/
def answer (s : Session) (step : Step) : Outcome Answer := (s.apply step).map (·.1)

/-- The answers to steps, one after another. -/
def run (s : Session) : List Step → List (Outcome Answer)
  | [] => []
  | step :: rest => s.answer step :: run (s.next step) rest

end Session

end MirListing
