import MirListing.Memory.Layout
import MirListing.OrderedMap

/-!
# Allocations

An allocation is the memory of a value: a list of cells, one for each byte.  A cell holds the byte,
whether it is defined, and the allocation that a pointer stored from this byte on points into.  The
offset inside that allocation is what the bytes of the pointer hold.  Since pointers belong to
cells, none can be stored outside its allocation, and there is exactly one flag for each byte.

`ofParts` builds an allocation from bytes, a table of pointers by offset and a list of undefined
offsets, and refuses a table with an offset outside.
-/

namespace MirListing

/-- The handle of an allocation. -/
structure AllocId where
  /-- The number. -/
  index : Int
deriving DecidableEq, Repr

namespace AllocId

/-- The written form of a handle. -/
def text (id : AllocId) : String := "alloc" ++ Text.decimal id.index

/-- Handles are ordered by their numbers. -/
instance : LE AllocId := ⟨fun a b => a.index ≤ b.index⟩

instance (a b : AllocId) : Decidable (a ≤ b) := inferInstanceAs (Decidable (a.index ≤ b.index))

end AllocId

/-- One byte of an allocation. -/
structure Cell where
  /-- The byte. -/
  byte : UInt8
  /-- Whether the byte is defined. -/
  isDefined : Bool := true
  /-- The target of a pointer stored from this byte on. -/
  target? : Option AllocId := none
deriving DecidableEq, Repr

/-- The memory of a value. -/
structure Allocation where
  /-- The bytes in order. -/
  cells : List Cell
  /-- The alignment. -/
  align : Int := 1
deriving DecidableEq, Repr

namespace Allocation

/-- The number of bytes. -/
def size (a : Allocation) : Nat := a.cells.length

/-- The bytes, defined or not. -/
def bytes (a : Allocation) : List UInt8 := a.cells.map Cell.byte

/-- Where a byte is defined. -/
def mask (a : Allocation) : List Bool := a.cells.map Cell.isDefined

/-- The targets of stored pointers, in the order of their offsets. -/
def targets (a : Allocation) : List AllocId := a.cells.filterMap Cell.target?

/-- The offsets of stored pointers, with their targets, in order. -/
def relocations (a : Allocation) : List (Nat × AllocId) :=
  a.cells.zipIdx.filterMap fun (cell, offset) => cell.target?.map fun target => (offset, target)

/-- Every pointer is stored inside. -/
theorem lt_size_of_mem_relocations {a : Allocation} {offset : Nat} {target : AllocId}
    (h : (offset, target) ∈ a.relocations) : offset < a.size := by
  simp only [relocations, List.mem_filterMap, Option.map_eq_some_iff, Prod.exists] at h
  obtain ⟨cell, i, hmem, _, _, heq⟩ := h
  have := List.snd_lt_of_mem_zipIdx hmem
  simp only [Prod.mk.injEq] at heq
  simp only [size]
  omega

/-- The first offset outside `size` bytes. -/
def outside? (size : Nat) (offsets : List Int) : Option Int :=
  offsets.find? fun offset => !(0 ≤ offset && offset < size)

/-- The cell of a byte at an offset. -/
def cellAt (pointers : OrderedMap Int AllocId) (undefined : List Int) (byte : UInt8)
    (offset : Nat) : Cell :=
  { byte, isDefined := !undefined.contains offset, target? := pointers.get? offset }

/-- The cells of bytes from an offset on. -/
def cellsFrom (pointers : OrderedMap Int AllocId) (undefined : List Int) (offset : Nat) :
    List UInt8 → List Cell
  | [] => []
  | byte :: rest =>
      cellAt pointers undefined byte offset :: cellsFrom pointers undefined (offset + 1) rest

/-- An allocation of bytes, with pointers by offset and the offsets that are not defined. -/
def ofParts (bytes : List UInt8) (align : Int) (pointers : OrderedMap Int AllocId)
    (undefined : List Int) : Outcome Allocation :=
  match outside? bytes.length pointers.keys with
  | some offset => .error (.document (.relocationOutside offset))
  | none => .ok { cells := cellsFrom pointers undefined 0 bytes, align }

/-- The same memory with other defined bytes; there must be one flag for each byte. -/
def withMask (a : Allocation) (mask : List Bool) : Outcome Allocation :=
  if mask.length = a.size then
    .ok { a with
      cells := List.zipWith (fun cell flag => { cell with isDefined := flag }) a.cells mask }
  else .error (.document .maskLength)

theorem map_byte_cellsFrom (pointers : OrderedMap Int AllocId) (undefined : List Int) (offset : Nat)
    (bytes : List UInt8) : (cellsFrom pointers undefined offset bytes).map Cell.byte = bytes := by
  induction bytes generalizing offset with
  | nil => rfl
  | cons byte rest ih => simp [cellsFrom, cellAt, ih]

end Allocation

end MirListing
