import MirListing.Item.Identity
import MirListing.Memory.Allocation

/-!
# The allocation directory

A directory says what each handle refers to: a function, a static or memory.  Handles are given out
in ascending order, and a handle that has been set by hand is never given out later, not even after
it has been deallocated.
-/

namespace MirListing

/-- What a handle refers to. -/
inductive GlobalAlloc
  /-- A function, by the written form of its instance. -/
  | function (instanceText : Label)
  /-- A static. -/
  | static (item : ItemId)
  /-- Memory. -/
  | memory (allocation : Allocation)
deriving Repr

/-- What the handles of a session refer to. -/
structure Directory where
  /-- The entries. -/
  entries : OrderedMap AllocId GlobalAlloc := .empty
  /-- The number of the next handle that is given out. -/
  next : Int := 0

namespace Directory

/-- Gives out a handle. -/
def reserve (d : Directory) : AllocId × Directory := (⟨d.next⟩, { d with next := d.next + 1 })

/-- Makes a handle refer to something. -/
def set (d : Directory) (id : AllocId) (entry : GlobalAlloc) : Directory :=
  { entries := d.entries.put id entry, next := max d.next (id.index + 1) }

/-- Gives out a handle that refers to something. -/
def create (d : Directory) (entry : GlobalAlloc) : AllocId × Directory :=
  let (id, d) := d.reserve
  (id, d.set id entry)

/-- Makes a handle refer to nothing; the handle stays used. -/
def deallocate (d : Directory) (id : AllocId) : Directory :=
  { d with entries := d.entries.erase id }

/-- What a handle refers to. -/
def get? (d : Directory) (id : AllocId) : Option GlobalAlloc := d.entries.get? id

/-- The number of entries. -/
def size (d : Directory) : Nat := d.entries.size

theorem get?_set (d : Directory) (id other : AllocId) (entry : GlobalAlloc) :
    (d.set id entry).get? other = if id = other then some entry else d.get? other :=
  OrderedMap.get?_put _ _ _ _

theorem get?_deallocate (d : Directory) (id other : AllocId) :
    (d.deallocate id).get? other = if id = other then none else d.get? other :=
  OrderedMap.get?_erase _ _ _

/-- A used handle is below the next one. -/
theorem lt_next_set (d : Directory) (id : AllocId) (entry : GlobalAlloc) :
    id.index < (d.set id entry).next := by
  simp only [set]
  omega

end Directory

end MirListing
