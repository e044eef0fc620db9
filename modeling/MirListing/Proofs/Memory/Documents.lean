import MirListing.Proofs.Memory.Parts
import MirListing.Proofs.OrderedMaps
import MirListing.Proofs.Text.Numerals

/-!
# Memory in documents

`Contents` is what a document may say about memory: bytes, an alignment, pointers by offset, and
offsets that are undefined.  `Contents.WrittenAs` says which objects write it down.  The bytes are
hexadecimal digits of either case, two to a byte and with blanks anywhere between bytes
(`WritesBytes`), and the offsets of pointers are in decimal form.

An allocation read from such an object holds what has been written down (`Contents.HeldBy`),
whatever the undefined offsets are: those outside the bytes have no effect.  Reading succeeds if all
pointers are stored inside and is refused for one that is not (`read_of_writtenAs`).  Before that it
is refused for an offset over the digit limit, whose numeral is never read.
-/

namespace MirListing

/-! ## Bytes -/

/-- A hexadecimal digit of either case writes a value. -/
def WritesDigit (c : Char) (value : Nat) : Prop :=
  c = Nat.digitChar value ∨ c = (Nat.digitChar value).toUpper

/-- A text writes bytes, two digits to a byte, with blanks between bytes. -/
inductive WritesBytes : List UInt8 → List Char → Prop
  | nil : WritesBytes [] []
  | blank {bytes : List UInt8} {text : List Char} {c : Char} : Text.isPlainBlank c = true →
      WritesBytes bytes text → WritesBytes bytes (c :: text)
  | byte {bytes : List UInt8} {text : List Char} {byte : UInt8} {c d : Char} :
      WritesDigit c (byte.toNat / 16) → WritesDigit d (byte.toNat % 16) →
      WritesBytes bytes text → WritesBytes (byte :: bytes) (c :: d :: text)

/-- Two lower-case digits for each byte and no blanks. -/
def hexText (bytes : List UInt8) : List Char :=
  bytes.flatMap fun byte => [Nat.digitChar (byte.toNat / 16), Nat.digitChar (byte.toNat % 16)]

theorem writesBytes_hexText (bytes : List UInt8) : WritesBytes bytes (hexText bytes) := by
  induction bytes with
  | nil => exact .nil
  | cons byte rest ih => exact .byte (.inl rfl) (.inl rfl) ih

section

variable {c d : Char} {value high low position : Nat} {bytes : List UInt8} {text : List Char}

/-- A digit is read back, is no blank and stands in ASCII. -/
theorem WritesDigit.read_back (hvalue : value < 16) (h : WritesDigit c value) :
    Text.hexValue? c = some value ∧ Text.isPlainBlank c = false ∧ c.toNat < 0x80 := by
  have hlower : ∀ value < 16, Text.hexValue? (Nat.digitChar value) = some value ∧
      Text.isPlainBlank (Nat.digitChar value) = false ∧ (Nat.digitChar value).toNat < 0x80 := by
    decide
  have hupper : ∀ value < 16, Text.hexValue? (Nat.digitChar value).toUpper = some value ∧
      Text.isPlainBlank (Nat.digitChar value).toUpper = false ∧
        (Nat.digitChar value).toUpper.toNat < 0x80 := by
    decide
  obtain rfl | rfl := h
  · exact hlower value hvalue
  · exact hupper value hvalue

theorem Text.toNat_lt_of_isPlainBlank (h : Text.isPlainBlank c = true) : c.toNat < 0x80 := by
  simp only [Text.isPlainBlank, Bool.or_eq_true, Bool.and_eq_true, beq_iff_eq,
    decide_eq_true_eq] at h
  obtain rfl | hrange := h
  · decide
  · omega

theorem readHexFrom_blank (h : Text.isPlainBlank c = true) :
    readHexFrom position (c :: text) = readHexFrom (position + 1) text := by
  cases text with
  | nil => simp only [readHexFrom, h, if_true]
  | cons d rest => rw [readHexFrom, if_pos h]

theorem readHexFrom_digits (hblank : Text.isPlainBlank c = false)
    (hc : Text.hexValue? c = some high) (hd : Text.hexValue? d = some low) :
    readHexFrom position (c :: d :: text) = do
      return UInt8.ofNat (16 * high + low) :: (← readHexFrom (position + 2) text) := by
  rw [readHexFrom, if_neg (Bool.not_eq_true _ ▸ hblank), hc, hd]

theorem WritesBytes.toNat_lt (h : WritesBytes bytes text) : ∀ c ∈ text, c.toNat < 0x80 := by
  induction h with
  | nil =>
    intro c hc
    cases hc
  | blank hblank _ ih =>
    intro x hx
    obtain rfl | hrest := List.mem_cons.1 hx
    · exact Text.toNat_lt_of_isPlainBlank hblank
    · exact ih x hrest
  | @byte _ _ byte _ _ hc hd _ ih =>
    intro x hx
    have hbyte := byte.toNat_lt
    simp only [List.mem_cons] at hx
    obtain rfl | rfl | hrest := hx
    · exact (hc.read_back (by omega)).2.2
    · exact (hd.read_back (by omega)).2.2
    · exact ih x hrest

theorem WritesBytes.readHexFrom_eq (h : WritesBytes bytes text) :
    readHexFrom position text = .ok bytes := by
  induction h generalizing position with
  | nil => rfl
  | blank hblank _ ih => rw [readHexFrom_blank hblank, ih]
  | @byte _ _ byte _ _ hc hd _ ih =>
    have hbyte := byte.toNat_lt
    obtain ⟨hhigh, hblank, -⟩ := hc.read_back (by omega)
    obtain ⟨hlow, -, -⟩ := hd.read_back (by omega)
    rw [readHexFrom_digits hblank hhigh hlow, ih, Nat.div_add_mod, UInt8.ofNat_toNat]
    rfl

/-- Bytes are read back from any text that writes them. -/
theorem WritesBytes.readHex_eq (h : WritesBytes bytes text) : readHex text = .ok bytes := by
  have hascii : text.findIdx? (fun c => 0x80 ≤ c.toNat) = none := by
    refine List.findIdx?_eq_none_iff.2 fun c hc => ?_
    simpa using h.toNat_lt c hc
  rw [readHex, hascii]
  exact h.readHexFrom_eq

example : (readHex "0a Ff\t1B\n".toList).toOption = some [0x0a, 0xff, 0x1b] := by decide +kernel

end

/-! ## Numbers -/

namespace Value

theorem mapM_toInteger_integer (numbers : List Int) :
    (numbers.map integer).mapM toInteger = .ok numbers := by
  rw [mapM_eq_ok_iff, List.map_map]
  rfl

theorem integerOf_repr (n : Nat) :
    integerOf (.text n.repr) =
      if Text.digitLimit < n.repr.length then .error (.document (.numeralTooLong n.repr.length))
      else .ok n := by
  rw [integerOf, Spelling.plain_text, Text.readInteger_repr]
  by_cases hlong : Text.digitLimit < n.repr.length
  · rw [if_pos hlong, if_pos hlong]
  · rw [if_neg hlong, if_neg hlong]

end Value

/-! ## Contents -/

/-- Memory as a document may describe it. -/
structure Contents where
  /-- The bytes. -/
  bytes : List UInt8
  /-- The alignment. -/
  align : Int
  /-- The offsets of stored pointers with the numbers of their targets, in any order. -/
  pointers : List (Nat × Int)
  /-- No offset has two pointers. -/
  nodup : (pointers.map Prod.fst).Nodup
  /-- The offsets that are not defined, in any order, perhaps repeated or outside the bytes. -/
  undefined : List Int

namespace Contents

/-- The field of a pointer. -/
def pointerField (pointer : Nat × Int) : Spelling × Value :=
  (.text pointer.1.repr, .integer pointer.2)

/-- A pointer as it is read. -/
def pointerEntry (pointer : Nat × Int) : Int × AllocId := (pointer.1, ⟨pointer.2⟩)

/-- An object writes the contents down. -/
structure WrittenAs (contents : Contents) (fields : Fields) : Prop where
  /-- The bytes are in hexadecimal digits. -/
  bytes : ∃ text : String, fields.field? "bytes" = some (.string text) ∧
    WritesBytes contents.bytes text.toList
  /-- The alignment is an integer. -/
  align : fields.field? "align" = some (.integer contents.align)
  /-- The pointers are fields, named by their offsets in decimal form. -/
  pointers : fields.field? "relocations" = some (.object (contents.pointers.map pointerField))
  /-- The undefined offsets are a list of integers. -/
  undefined : fields.field? "undefined" = some (.array (contents.undefined.map .integer))

/-- The contents written down without blanks. -/
def written (contents : Contents) : Fields :=
  [(.text "bytes", .string (String.ofList (hexText contents.bytes))),
    (.text "align", .integer contents.align),
    (.text "relocations", .object (contents.pointers.map pointerField)),
    (.text "undefined", .array (contents.undefined.map .integer))]

/-- All contents can be written down. -/
theorem writtenAs_written (contents : Contents) : contents.WrittenAs contents.written where
  bytes := by
    refine ⟨_, rfl, ?_⟩
    rw [String.toList_ofList]
    exact writesBytes_hexText contents.bytes
  align := rfl
  pointers := rfl
  undefined := rfl

/-- Every pointer is stored inside. -/
def Fits (contents : Contents) : Prop :=
  ∀ pointer ∈ contents.pointers, pointer.1 < contents.bytes.length

/-- Every offset of a pointer keeps to the digit limit. -/
def WithinLimit (contents : Contents) : Prop :=
  ∀ pointer ∈ contents.pointers, Text.WithinLimit pointer.1

/-- An allocation holds the contents. -/
structure HeldBy (contents : Contents) (a : Allocation) : Prop where
  /-- The bytes. -/
  bytes : a.bytes = contents.bytes
  /-- The alignment. -/
  align : a.align = contents.align
  /-- The pointers. -/
  pointers : ∀ offset target,
    (offset, target) ∈ a.relocations ↔ (offset, target.index) ∈ contents.pointers
  /-- A byte is defined unless it is listed. -/
  mask : a.mask = (List.range contents.bytes.length).map fun offset : Nat =>
    decide ((offset : Int) ∉ contents.undefined)
  /-- The targets are in the order of the offsets. -/
  targets : a.targets =
    (contents.pointers.mergeSort fun p q => decide (p.1 ≤ q.1)).map fun pointer => ⟨pointer.2⟩

variable {contents : Contents} {fields : Fields}

/-! ## Reading the fields -/

theorem WrittenAs.readBytes_eq (h : contents.WrittenAs fields) :
    readBytes fields = .ok contents.bytes := by
  obtain ⟨text, hfield, htext⟩ := h.bytes
  rw [readBytes, Fields.fieldOr, hfield]
  exact htext.readHex_eq

theorem WrittenAs.align_eq (h : contents.WrittenAs fields) :
    fields.integerOr "align" 1 = .ok contents.align := by
  rw [Fields.integerOr, Fields.fieldOr, h.align]
  rfl

theorem WrittenAs.undefined_eq (h : contents.WrittenAs fields) :
    (fields.field "undefined").elementsIfGiven = .ok (contents.undefined.map .integer) := by
  rw [Fields.field, h.undefined, Option.getD_some]
  cases contents.undefined <;> rfl

theorem readPointer_pointerField (pointer : Nat × Int) :
    readPointer (pointerField pointer) =
      if Text.digitLimit < pointer.1.repr.length then
        .error (.document (.numeralTooLong pointer.1.repr.length))
      else .ok (pointerEntry pointer) := by
  rw [readPointer, pointerField, Value.integerOf_repr]
  split <;> rfl

/-- The pointers are those of the fields, whether or not there are any. -/
theorem WrittenAs.readPointers_eq (h : contents.WrittenAs fields) :
    readPointers fields = do
      return OrderedMap.ofList (← (contents.pointers.map pointerField).mapM readPointer) := by
  rw [readPointers, Fields.field, h.pointers, Option.getD_some]
  cases contents.pointers <;> rfl

/-- What is read of the pointers. -/
def table (contents : Contents) : OrderedMap Int AllocId :=
  OrderedMap.ofList (contents.pointers.map pointerEntry)

theorem WrittenAs.readPointers_of_withinLimit (h : contents.WrittenAs fields)
    (hlimit : contents.WithinLimit) : readPointers fields = .ok contents.table := by
  have hentries : (contents.pointers.map pointerField).mapM readPointer =
      .ok (contents.pointers.map pointerEntry) := by
    rw [mapM_eq_ok_iff, List.map_map, List.map_map]
    refine List.map_congr_left fun pointer hpointer => ?_
    have hshort := mt Text.digitLimit_lt_iff.1 (not_not.2 (hlimit pointer hpointer))
    exact (readPointer_pointerField pointer).trans (if_neg hshort)
  rw [h.readPointers_eq, hentries]
  rfl

theorem WrittenAs.readPointers_of_not_withinLimit (h : contents.WrittenAs fields)
    (hlimit : ¬contents.WithinLimit) :
    ∃ pointer ∈ contents.pointers, ¬Text.WithinLimit pointer.1 ∧ readPointers fields =
      .error (.document (.numeralTooLong pointer.1.repr.length)) := by
  have hsome : ∃ entry ∈ contents.pointers.map pointerField, ∃ failure,
      readPointer entry = .error failure := by
    simp only [WithinLimit, not_forall] at hlimit
    obtain ⟨pointer, hpointer, hlong⟩ := hlimit
    exact ⟨_, List.mem_map_of_mem hpointer, _,
      (readPointer_pointerField pointer).trans (if_pos (Text.digitLimit_lt_iff.2 hlong))⟩
  obtain ⟨entry, hentry, failure, hfails, hall⟩ := exists_error_of_mapM hsome
  obtain ⟨pointer, hpointer, rfl⟩ := List.mem_map.1 hentry
  rw [readPointer_pointerField] at hfails
  split at hfails
  · rename_i hlong
    obtain rfl := Except.error.inj hfails
    refine ⟨pointer, hpointer, Text.digitLimit_lt_iff.1 hlong, ?_⟩
    rw [h.readPointers_eq, hall]
    rfl
  · cases hfails

/-! ## The pointers that are read -/

theorem nodup_entries (contents : Contents) :
    ((contents.pointers.map pointerEntry).map Prod.fst).Nodup := by
  have hoffsets : (contents.pointers.map pointerEntry).map Prod.fst =
      (contents.pointers.map Prod.fst).map Int.ofNat := by
    rw [List.map_map, List.map_map]
    rfl
  rw [hoffsets]
  exact contents.nodup.map Int.ofNat_injective

theorem get?_table {offset : Nat} {target : AllocId} :
    contents.table.get? offset = some target ↔ (offset, target.index) ∈ contents.pointers := by
  rw [table, OrderedMap.get?_ofList, OrderedMap.lastPut?_eq_some_iff contents.nodup_entries,
    List.mem_map]
  constructor
  · rintro ⟨⟨n, id⟩, hmem, heq⟩
    obtain ⟨hoffset, rfl⟩ := Prod.mk.inj heq
    obtain rfl := Int.ofNat.inj hoffset
    exact hmem
  · intro hmem
    exact ⟨_, hmem, rfl⟩

theorem mem_keys_table {offset : Int} :
    offset ∈ contents.table.keys ↔ ∃ pointer ∈ contents.pointers, (pointer.1 : Int) = offset := by
  rw [table, OrderedMap.mem_keys_ofList, List.map_map, List.mem_map]
  rfl

/-! ## The allocation that is read -/

/-- The allocation of the contents. -/
def allocation (contents : Contents) : Allocation where
  cells := Allocation.cellsFrom contents.table contents.undefined 0 contents.bytes
  align := contents.align

theorem mem_relocations_allocation (h : contents.Fits) {offset : Nat} {target : AllocId} :
    (offset, target) ∈ contents.allocation.relocations ↔
      (offset, target.index) ∈ contents.pointers := by
  rw [Allocation.mem_relocations]
  simp only [allocation, Allocation.getElem?_cellsFrom, Nat.zero_add, Option.map_eq_some_iff]
  constructor
  · rintro ⟨_, ⟨byte, -, rfl⟩, htarget⟩
    exact get?_table.1 htarget
  · intro hmem
    have hbyte := List.getElem?_eq_getElem (h _ hmem)
    exact ⟨_, ⟨_, hbyte, rfl⟩, get?_table.2 hmem⟩

theorem mask_allocation (contents : Contents) :
    contents.allocation.mask = (List.range contents.bytes.length).map fun offset : Nat =>
      decide ((offset : Int) ∉ contents.undefined) := by
  refine List.ext_getElem? fun offset => ?_
  simp only [Allocation.mask, allocation, List.getElem?_map, Allocation.getElem?_cellsFrom,
    Nat.zero_add, Option.map_map]
  by_cases hoffset : offset < contents.bytes.length
  · rw [List.getElem?_eq_getElem hoffset, List.getElem?_range hoffset]
    simp [Allocation.cellAt]
  · rw [List.getElem?_eq_none (Nat.le_of_not_lt hoffset),
      List.getElem?_eq_none (by simpa using hoffset)]
    rfl

/-- Sorting the pointers by their offsets gives those of the allocation, in order. -/
theorem mergeSort_pointers (h : contents.Fits) :
    contents.pointers.mergeSort (fun p q => decide (p.1 ≤ q.1)) =
      contents.allocation.relocations.map fun (offset, target) => (offset, target.index) := by
  have hlt := (targets_eq_relocations contents.allocation).2
  have hstored : ((contents.allocation.relocations.map fun (offset, target) =>
      (offset, target.index)).map Prod.fst).Pairwise (· < ·) := by
    rw [List.map_map]
    exact hlt
  have hperm : contents.pointers.Perm (contents.allocation.relocations.map
      fun (offset, target) => (offset, target.index)) := by
    refine (List.perm_ext_iff_of_nodup (.of_map _ contents.nodup)
      (.of_map _ (hstored.imp Nat.ne_of_lt))).2 fun pointer => ?_
    obtain ⟨offset, id⟩ := pointer
    rw [List.mem_map]
    constructor
    · intro hmem
      exact ⟨(offset, ⟨id⟩), (mem_relocations_allocation h).2 hmem, rfl⟩
    · rintro ⟨⟨_, target⟩, hmem, heq⟩
      cases heq
      exact (mem_relocations_allocation h).1 hmem
  have hsorted : (contents.pointers.mergeSort fun p q => decide (p.1 ≤ q.1)).Pairwise
      fun p q => p.1 ≤ q.1 := by
    refine (List.pairwise_mergeSort ?_ ?_ _).imp of_decide_eq_true
    · intro p q r hpq hqr
      simp only [decide_eq_true_eq] at hpq hqr ⊢
      exact Nat.le_trans hpq hqr
    · intro p q
      simpa using Nat.le_total p.1 q.1
  refine List.Perm.eq_of_pairwise ?_ hsorted ((List.pairwise_map.1 hstored).imp Nat.le_of_lt)
    ((List.mergeSort_perm _ _).trans hperm)
  -- pointers of one offset are one pointer
  intro p q hp hq hle hge
  have hp := (List.mergeSort_perm _ _).subset hp
  have hq := hperm.symm.subset hq
  exact List.inj_on_of_nodup_map contents.nodup hp hq (Nat.le_antisymm hle hge)

theorem heldBy_allocation (h : contents.Fits) : contents.HeldBy contents.allocation where
  bytes := Allocation.map_byte_cellsFrom _ _ _ _
  align := rfl
  pointers _ _ := mem_relocations_allocation h
  mask := mask_allocation contents
  targets := by
    rw [mergeSort_pointers h, List.map_map, (targets_eq_relocations _).1]
    rfl

/-! ## Reading -/

theorem WrittenAs.read_of_withinLimit (h : contents.WrittenAs fields)
    (hlimit : contents.WithinLimit) :
    Allocation.read (.object fields) =
      Allocation.ofParts contents.bytes contents.align contents.table contents.undefined := by
  simp only [Allocation.read, Value.asObject, h.readBytes_eq, h.readPointers_of_withinLimit hlimit,
    h.align_eq, h.undefined_eq, Value.mapM_toInteger_integer, bind, Except.bind]

theorem WrittenAs.read_of_not_withinLimit (h : contents.WrittenAs fields)
    (hlimit : ¬contents.WithinLimit) :
    ∃ pointer ∈ contents.pointers, ¬Text.WithinLimit pointer.1 ∧
      Allocation.read (.object fields) =
        .error (.document (.numeralTooLong pointer.1.repr.length)) := by
  obtain ⟨pointer, hpointer, hlong, hfails⟩ := h.readPointers_of_not_withinLimit hlimit
  refine ⟨pointer, hpointer, hlong, ?_⟩
  simp only [Allocation.read, Value.asObject, h.readBytes_eq, hfails, bind, Except.bind]

theorem ofParts_of_fits (h : contents.Fits) :
    Allocation.ofParts contents.bytes contents.align contents.table contents.undefined =
      .ok contents.allocation := by
  have hinside : Allocation.outside? contents.bytes.length contents.table.keys = none := by
    refine List.find?_eq_none.2 fun offset hoffset => ?_
    obtain ⟨pointer, hpointer, rfl⟩ := mem_keys_table.1 hoffset
    have hlt := h pointer hpointer
    simpa using hlt
  rw [Allocation.ofParts, hinside]
  rfl

theorem ofParts_of_not_fits (h : ¬contents.Fits) :
    ∃ pointer ∈ contents.pointers, contents.bytes.length ≤ pointer.1 ∧
      Allocation.ofParts contents.bytes contents.align contents.table contents.undefined =
        .error (.document (.relocationOutside pointer.1)) := by
  cases houtside : Allocation.outside? contents.bytes.length contents.table.keys with
  | none =>
    refine absurd (fun pointer hpointer => ?_) h
    have hkey := mem_keys_table.2 ⟨pointer, hpointer, rfl⟩
    have hinside := (Allocation.outside?_eq_none houtside _ hkey).2
    exact_mod_cast hinside
  | some offset =>
    obtain ⟨pointer, hpointer, rfl⟩ := mem_keys_table.1 (List.mem_of_find?_eq_some houtside)
    have hfar := List.find?_some houtside
    refine ⟨pointer, hpointer, by simpa using hfar, ?_⟩
    rw [Allocation.ofParts, houtside]

/-- What has been written down is read if all its pointers are stored inside, and the allocation
holds it.  It is refused for a pointer that is not; before that for an offset over the digit limit.
-/
theorem read_of_writtenAs (h : contents.WrittenAs fields) :
    (contents.WithinLimit →
      ((∃ a, Allocation.read (.object fields) = .ok a) ↔ contents.Fits) ∧
      (∀ a, Allocation.read (.object fields) = .ok a → contents.HeldBy a) ∧
      (¬contents.Fits → ∃ pointer ∈ contents.pointers, contents.bytes.length ≤ pointer.1 ∧
        Allocation.read (.object fields) =
          .error (.document (.relocationOutside pointer.1)))) ∧
    (¬contents.WithinLimit → ∃ pointer ∈ contents.pointers, ¬Text.WithinLimit pointer.1 ∧
      Allocation.read (.object fields) =
        .error (.document (.numeralTooLong pointer.1.repr.length))) := by
  refine ⟨fun hlimit => ?_, h.read_of_not_withinLimit⟩
  rw [h.read_of_withinLimit hlimit]
  by_cases hfits : contents.Fits
  · rw [ofParts_of_fits hfits]
    refine ⟨⟨fun _ => hfits, fun _ => ⟨_, rfl⟩⟩, ?_, fun hnot => absurd hfits hnot⟩
    rintro _ ⟨⟩
    exact heldBy_allocation hfits
  · obtain ⟨pointer, hpointer, hfar, hfails⟩ := ofParts_of_not_fits hfits
    refine ⟨⟨?_, fun hall => absurd hall hfits⟩, ?_, fun _ => ⟨pointer, hpointer, hfar, hfails⟩⟩
    · rintro ⟨a, hread⟩
      rw [hfails] at hread
      cases hread
    · intro a hread
      rw [hfails] at hread
      cases hread

/-- Eleven bytes with pointers in the last two, the last one first. -/
def unsorted : Contents where
  bytes := [0, 1, 2, 3, 4, 5, 6, 7, 8, 9, 0xff]
  align := 8
  pointers := [(10, 5), (9, 7)]
  nodup := by decide
  undefined := [3, 3, -1, 11]

theorem read_of_writtenAs_unsorted :
    unsorted.WrittenAs unsorted.written ∧ unsorted.WithinLimit ∧
      ∃ a, Allocation.read (.object unsorted.written) = .ok a ∧ a.targets = [⟨7⟩, ⟨5⟩] ∧
        a.mask = (List.range 11).map fun offset : Nat => decide (offset ≠ 3) := by
  have hlimit : unsorted.WithinLimit := by
    intro pointer hpointer
    refine Text.withinLimit_of_lt ?_
    revert pointer
    decide
  have hwritten := writtenAs_written unsorted
  obtain ⟨hreads, hholds, -⟩ := (read_of_writtenAs hwritten).1 hlimit
  obtain ⟨a, ha⟩ := hreads.2 (by unfold Fits; decide)
  refine ⟨hwritten, hlimit, a, ha, ?_, ?_⟩
  · rw [(hholds a ha).targets]
    simp [unsorted, List.mergeSort]
  · rw [(hholds a ha).mask]
    decide

/-- No bytes, and yet a pointer. -/
def lonePointer (offset : Nat) : Contents where
  bytes := []
  align := 1
  pointers := [(offset, 0)]
  nodup := List.nodup_singleton _
  undefined := []

theorem not_withinLimit_lonePointer {offset : Nat} (h : 10 ^ Text.digitLimit ≤ offset) :
    ¬(lonePointer offset).WithinLimit :=
  fun hlimit => Nat.not_lt.2 h (hlimit _ List.mem_cons_self)

/-- The pointer is stored outside, but with an offset over the digit limit that is not found out. -/
theorem not_relocationOutside_lonePointer :
    (lonePointer (10 ^ Text.digitLimit)).WrittenAs (lonePointer (10 ^ Text.digitLimit)).written ∧
      ¬(lonePointer (10 ^ Text.digitLimit)).Fits ∧
      ∀ pointer ∈ (lonePointer (10 ^ Text.digitLimit)).pointers,
        Allocation.read (.object (lonePointer (10 ^ Text.digitLimit)).written) ≠
          .error (.document (.relocationOutside pointer.1)) := by
  have hwritten := writtenAs_written (lonePointer (10 ^ Text.digitLimit))
  have hlong := not_withinLimit_lonePointer (Nat.le_refl (10 ^ Text.digitLimit))
  obtain ⟨_, -, -, hfails⟩ := hwritten.read_of_not_withinLimit hlong
  refine ⟨hwritten, fun h => Nat.not_lt_zero _ (h _ List.mem_cons_self), ?_⟩
  intro pointer _ houtside
  rw [hfails] at houtside
  cases houtside

end Contents

end MirListing
