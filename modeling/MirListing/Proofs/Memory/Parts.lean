import MirListing.Position
import MirListing.Proofs.Memory.Scan
import MirListing.Proofs.Reading.Inside
import MirListing.Reader.Memory

/-!
# Memory in parts

A document gives memory in parts that need not fit each other: the bytes, a table of stored pointers
by offset, and a mask of flags if there are undefined bytes.  An allocation that has been read has
been put together from parts that are `Valid`: every pointer is stored inside, and there is one flag
for each byte (`Allocation.exists_parts_of_read`).

`MemoryParts.scan` goes over parts by offset and looks up each byte and each flag where it stands.
For the parts of an allocation it never looks anywhere else, whatever the layout, and finds what a
scan of the cells finds (`MemoryParts.scan_eq`).
-/

namespace MirListing

/-! ## Positions -/

theorem elementAt_natCast {α : Type} (absent : Failure) {items : List α} {n : Nat}
    (h : n < items.length) : elementAt absent items n = .ok items[n] := by
  rw [elementAt_eq_ok_iff, elementAt?_natCast, List.getElem?_eq_getElem h]

/-- Elements that are looked up one after the other are a part of the list. -/
theorem mapM_elementAt {α : Type} (absent : Failure) {items : List α} {start count : Nat}
    (h : start + count ≤ items.length) :
    (List.range' start count).mapM (fun n : Nat => elementAt absent items n) =
      .ok ((items.drop start).take count) := by
  induction count generalizing start with
  | zero => rfl
  | succ count ih =>
    have hstart : start < items.length := by omega
    rw [List.range'_succ, List.mapM_cons, elementAt_natCast absent hstart, ih (by omega),
      List.drop_eq_getElem_cons hstart, List.take_succ_cons]
    rfl

/-! ## Parts -/

/-- Memory as a document gives it. -/
structure MemoryParts where
  /-- The bytes, defined or not. -/
  bytes : List UInt8
  /-- The targets of stored pointers by offset. -/
  pointers : OrderedMap Int AllocId
  /-- Which bytes are defined; without a mask all are. -/
  mask? : Option (List Bool)

namespace MemoryParts

/-- The mask of some bytes, if any are undefined. -/
def maskOf? (size : Nat) (undefined : List Int) : Option (List Bool) :=
  if undefined.isEmpty then none
  else some ((List.range size).map fun (offset : Nat) => !undefined.contains (offset : Int))

/-- Reads the parts of memory, whether or not they fit each other. -/
def read (value : Value) : Outcome MemoryParts := do
  let fields ← value.asObject
  let bytes ← readBytes fields
  let pointers ← readPointers fields
  let undefined ← (fields.field "undefined").elementsIfGiven
  return { bytes, pointers, mask? := maskOf? bytes.length (← undefined.mapM Value.toInteger) }

/-- Parts that fit each other. -/
structure Valid (parts : MemoryParts) : Prop where
  /-- Every pointer is stored inside. -/
  pointers : ∀ offset ∈ parts.pointers.keys, 0 ≤ offset ∧ offset < parts.bytes.length
  /-- There is one flag for each byte. -/
  mask : ∀ flags, parts.mask? = some flags → flags.length = parts.bytes.length

/-- Whether the byte at an offset is defined. -/
def isDefined (parts : MemoryParts) (offset : Nat) : Outcome Bool :=
  match parts.mask? with
  | none => .ok true
  | some flags => elementAt .outOfRange flags offset

/-- The mark of the byte at an offset. -/
def byteMark (parts : MemoryParts) (offset : Nat) : Outcome HexDump.Mark := do
  if ← parts.isDefined offset then return .byte (← elementAt .outOfRange parts.bytes offset)
  else return .hole

/-- Some bytes from an offset on. -/
def bytesFrom (parts : MemoryParts) (offset count : Nat) : Outcome (List UInt8) :=
  (List.range' offset count).mapM fun n : Nat => elementAt .outOfRange parts.bytes n

/-- The marks of memory from an offset on, each byte and each flag being looked up by its offset. -/
def scan (layout : Layout) (parts : MemoryParts) (offset : Nat) :
    Outcome (List HexDump.Mark × Option Failure) :=
  if offset < parts.bytes.length then
    match parts.pointers.get? offset with
    | none => do
        let mark ← parts.byteMark offset
        let (marks, failure?) ← scan layout parts (offset + 1)
        return (mark :: marks, failure?)
    | some target =>
        let count := layout.pointerSize.bytes
        if parts.bytes.length < offset + count then
          .ok ([], some (.body (.pointerPastEnd offset parts.bytes.length)))
        else if !layout.sizeIsInteger then .ok ([], some .wrongShape)
        else do
          let bytes ← parts.bytesFrom offset count
          let (marks, failure?) ← scan layout parts (offset + count)
          return (.pointer (HexDump.pointerLabel layout target bytes) :: marks, failure?)
  else .ok ([], none)
termination_by parts.bytes.length - offset
decreasing_by
  · omega
  · have := layout.pointerSize.bytes_bounds
    omega

end MemoryParts

/-! ## Allocations and their parts -/

namespace Allocation

/-- An allocation holds what its parts say of each offset. -/
structure HasParts (a : Allocation) (parts : MemoryParts) : Prop where
  /-- The bytes. -/
  bytes : a.bytes = parts.bytes
  /-- Whether they are defined. -/
  defined : ∀ (offset : Nat) cell, a.cells[offset]? = some cell →
    parts.isDefined offset = .ok cell.isDefined
  /-- The stored pointers. -/
  pointers : ∀ (offset : Nat) cell, a.cells[offset]? = some cell →
    parts.pointers.get? offset = cell.target?

theorem getElem?_cellsFrom (pointers : OrderedMap Int AllocId) (undefined : List Int)
    (bytes : List UInt8) (start offset : Nat) :
    (cellsFrom pointers undefined start bytes)[offset]? =
      bytes[offset]?.map fun byte => cellAt pointers undefined byte (start + offset) := by
  induction bytes generalizing start offset with
  | nil => rfl
  | cons byte rest ih =>
    cases offset with
    | zero => rfl
    | succ offset =>
      rw [cellsFrom, List.getElem?_cons_succ, List.getElem?_cons_succ, ih]
      congr 2
      funext byte
      congr 1
      omega

theorem outside?_eq_none {size : Nat} {offsets : List Int} (h : outside? size offsets = none) :
    ∀ offset ∈ offsets, 0 ≤ offset ∧ offset < size := by
  intro offset hoffset
  simpa using List.find?_eq_none.1 h offset hoffset

theorem isDefined_maskOf? (bytes : List UInt8) (pointers : OrderedMap Int AllocId)
    (undefined : List Int) {offset : Nat} (h : offset < bytes.length) :
    (MemoryParts.mk bytes pointers (MemoryParts.maskOf? bytes.length undefined)).isDefined offset =
      .ok (!undefined.contains (offset : Int)) := by
  unfold MemoryParts.isDefined MemoryParts.maskOf?
  cases undefined with
  | nil => rfl
  | cons first rest =>
    show elementAt _ ((List.range bytes.length).map _) offset = _
    rw [elementAt_natCast _ (by simpa using h), List.getElem_map, List.getElem_range]

/-- The parts that cells are made of. -/
theorem hasParts_cellsFrom (bytes : List UInt8) (align : Int) (pointers : OrderedMap Int AllocId)
    (undefined : List Int) :
    HasParts { cells := cellsFrom pointers undefined 0 bytes, align }
      ⟨bytes, pointers, MemoryParts.maskOf? bytes.length undefined⟩ := by
  have hcell : ∀ (offset : Nat) cell,
      (cellsFrom pointers undefined 0 bytes)[offset]? = some cell →
        ∃ byte, bytes[offset]? = some byte ∧ cell = cellAt pointers undefined byte offset := by
    intro offset cell h
    rw [getElem?_cellsFrom, Nat.zero_add] at h
    obtain ⟨byte, hbyte, rfl⟩ := Option.map_eq_some_iff.1 h
    exact ⟨byte, hbyte, rfl⟩
  refine ⟨map_byte_cellsFrom _ _ _ _, fun offset cell h => ?_, fun offset cell h => ?_⟩
  · obtain ⟨byte, hbyte, rfl⟩ := hcell offset cell h
    exact isDefined_maskOf? bytes pointers undefined (List.getElem?_eq_some_iff.1 hbyte).1
  · obtain ⟨byte, -, rfl⟩ := hcell offset cell h
    rfl

/-- Allocations are read from parts that fit each other. -/
theorem exists_parts_of_read {v : Value} {a : Allocation} (h : Allocation.read v = .ok a) :
    ∃ parts, MemoryParts.read v = .ok parts ∧ parts.Valid ∧ a.HasParts parts := by
  simp only [Allocation.read, bind_eq_ok_iff] at h
  obtain ⟨fields, hfields, bytes, hbytes, pointers, hpointers, align, -, values, hvalues, undefined,
    hundefined, hparts⟩ := h
  refine ⟨⟨bytes, pointers, MemoryParts.maskOf? bytes.length undefined⟩, ?_, ?_, ?_⟩
  · simp only [MemoryParts.read, bind_eq_ok_iff]
    exact ⟨fields, hfields, bytes, hbytes, pointers, hpointers, values, hvalues, undefined,
      hundefined, rfl⟩
  · unfold ofParts at hparts
    split at hparts
    · cases hparts
    · rename_i hinside
      refine ⟨outside?_eq_none hinside, fun flags hflags => ?_⟩
      rw [MemoryParts.maskOf?] at hflags
      split at hflags
      · cases hflags
      · cases hflags
        rw [List.length_map, List.length_range]
  · unfold ofParts at hparts
    split at hparts
    · cases hparts
    · cases hparts
      exact hasParts_cellsFrom bytes align pointers undefined

end Allocation

namespace MemoryParts

variable {a : Allocation} {parts : MemoryParts}

theorem length_bytes (h : a.HasParts parts) : parts.bytes.length = a.size := by
  rw [← h.bytes, Allocation.bytes, List.length_map, Allocation.size]

/-- What stands at an offset is the first of the cells from there on. -/
theorem exists_cell (h : a.HasParts parts) {offset : Nat} (hlt : offset < parts.bytes.length) :
    ∃ cell, a.cells.drop offset = cell :: a.cells.drop (offset + 1) ∧
      cell.target? = parts.pointers.get? offset ∧ parts.byteMark offset = .ok (.ofCell cell) := by
  have hsize : offset < a.cells.length := Nat.lt_of_lt_of_eq hlt (length_bytes h)
  have hcell := List.getElem?_eq_getElem hsize
  refine ⟨a.cells[offset], List.drop_eq_getElem_cons hsize, (h.pointers offset _ hcell).symm, ?_⟩
  have hbyte : parts.bytes[offset] = a.cells[offset].byte := by
    simp only [← h.bytes, Allocation.bytes]
    exact List.getElem_map _
  rw [byteMark, h.defined offset _ hcell, elementAt_natCast _ hlt, hbyte, HexDump.Mark.ofCell]
  cases a.cells[offset].isDefined <;> rfl

theorem bytesFrom_eq (h : a.HasParts parts) {offset count : Nat}
    (hle : offset + count ≤ parts.bytes.length) :
    parts.bytesFrom offset count = .ok (((a.cells.drop offset).take count).map Cell.byte) := by
  rw [bytesFrom, mapM_elementAt _ hle, ← h.bytes, Allocation.bytes, List.map_take, List.map_drop]

/-- Looking up each byte and each flag by its offset finds what the cells hold. -/
theorem scan_eq (h : a.HasParts parts) (layout : Layout) (offset : Nat) :
    parts.scan layout offset =
      .ok (HexDump.scan layout a.size offset (a.cells.drop offset)) := by
  have hlength (n : Nat) : (a.cells.drop n).length = parts.bytes.length - n := by
    rw [List.length_drop, length_bytes h, Allocation.size]
  fun_induction scan layout parts offset with
  | case1 offset hlt hnone ih =>
    obtain ⟨cell, hdrop, htarget, hmark⟩ := exists_cell h hlt
    rw [hmark, ih, hdrop, HexDump.scan, htarget, hnone]
    rfl
  | case2 offset hlt target hsome count hshort =>
    obtain ⟨cell, hdrop, htarget, -⟩ := exists_cell h hlt
    have hrest : (a.cells.drop (offset + 1)).length + 1 < count := by
      rw [hlength]
      omega
    rw [hdrop, HexDump.scan, htarget, hsome, length_bytes h]
    simp only [count, if_pos hrest]
  | case3 offset hlt target hsome count hlong hsize =>
    obtain ⟨cell, hdrop, htarget, -⟩ := exists_cell h hlt
    have hrest : ¬(a.cells.drop (offset + 1)).length + 1 < count := by
      rw [hlength]
      omega
    rw [hdrop, HexDump.scan, htarget, hsome]
    simp only [count, if_neg hrest, if_pos hsize]
  | case4 offset hlt target hsome count hlong hsize ih =>
    obtain ⟨cell, hdrop, htarget, -⟩ := exists_cell h hlt
    have hrest : ¬(a.cells.drop (offset + 1)).length + 1 < count := by
      rw [hlength]
      omega
    -- the cells behind those of the pointer
    have hbehind :
        (a.cells.drop (offset + 1)).drop (count - 1) = a.cells.drop (offset + count) := by
      rw [← HexDump.drop_pointer layout cell, ← hdrop, List.drop_drop]
    rw [bytesFrom_eq h (by omega), ih, hdrop, HexDump.scan, htarget, hsome]
    simp only [count, if_neg hrest, if_neg hsize] at hbehind ⊢
    rw [hbehind]
    rfl
  | case5 offset hge =>
    rw [length_bytes h, Nat.not_lt] at hge
    rw [List.drop_eq_nil_of_le hge, HexDump.scan_nil]

end MemoryParts

end MirListing
