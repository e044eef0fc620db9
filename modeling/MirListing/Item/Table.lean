import MirListing.Body.Basic
import MirListing.Item.Kind
import MirListing.OrderedMap

/-!
# The item table

What is known about the items of a session.  An item that is registered again keeps its place in the
table and takes the newer information; every question is answered from the newest.
-/

namespace MirListing

/-- What is known about an item. -/
structure Item where
  /-- The identity. -/
  id : ItemId
  /-- The kind, none for an anonymous constant. -/
  kind? : Option ItemKind := none
  /-- Whether a static may change. -/
  isMutable : Bool := false
  /-- Whether the item is defined elsewhere. -/
  isForeign : Bool := false
  /-- The value of a static. -/
  initializer? : Option ConstValue := none
  /-- Why the value of a static could not be computed. -/
  initializerFault? : Option Label := none
  /-- The main body. -/
  body? : Option Body := none
  /-- The bodies of promoted constants. -/
  promoted : List Body := []

/-- What is known about the items of a session. -/
structure ItemTable where
  /-- The items by what they are told apart by. -/
  items : OrderedMap ItemKey Item := .empty

namespace ItemTable

/-- Registers an item; one that cannot be looked up changes nothing. -/
def register (t : ItemTable) (item : Item) : ItemTable :=
  match item.id.key? with
  | some key => ⟨t.items.put key item⟩
  | none => t

/-- Registers items one after another. -/
def registerAll (t : ItemTable) (items : List Item) : ItemTable := items.foldl register t

/-- What is known about an identity. -/
def get? (t : ItemTable) (id : ItemId) : Option Item := id.key?.bind t.items.get?

/-- The items in the order of their first registration. -/
def toList (t : ItemTable) : List Item := t.items.values

/-- The number of items. -/
def size (t : ItemTable) : Nat := t.items.size

/-- The kind of an item. -/
def kind? (t : ItemTable) (id : ItemId) : Option ItemKind := (t.get? id).bind Item.kind?

/-- Whether an item is known to be defined elsewhere. -/
def isForeign (t : ItemTable) (id : ItemId) : Bool := (t.get? id).any Item.isForeign

/-- Whether an item is known to be a static that may change. -/
def isMutableStatic (t : ItemTable) (id : ItemId) : Bool :=
  (t.get? id).any fun item => item.kind? = some .static && item.isMutable

/-- The value of a static. -/
def evaluate (t : ItemTable) (id : ItemId) : Except EvaluationFault ConstValue :=
  match t.get? id with
  | none => .error (.unknownStatic id.pathText)
  | some item =>
      match item.initializerFault?, item.initializer? with
      | some reason, _ => .error (.failed reason)
      | none, none => .error (.noInitializer id.pathText)
      | none, some value => .ok value

/-- The main body of an item. -/
def body (t : ItemTable) (id : ItemId) : Outcome Body :=
  match (t.get? id).bind Item.body? with
  | some body => .ok body
  | none => .error (.noBody id.pathText)

/-- The bodies of the promoted constants of an item. -/
def promoted (t : ItemTable) (id : ItemId) : List Body := ((t.get? id).map Item.promoted).getD []

/-- The items that have a body, in order. -/
def withBody (t : ItemTable) : List ItemId :=
  t.toList.filterMap fun item => if item.body?.isSome then some item.id else none

/-- After a registration the item is known by every identity with its key, and what was known by
other identities is as before. -/
theorem get?_register (t : ItemTable) (item : Item) (id : ItemId) :
    (t.register item).get? id =
      if item.id.key? = id.key? ∧ id.key?.isSome then some item else t.get? id := by
  simp only [register, get?]
  cases hitem : item.id.key? with
  | none => cases hid : id.key? <;> simp
  | some key => cases hid : id.key? <;> simp [OrderedMap.get?_put]

end ItemTable

end MirListing
