import MirListing.Memory.HexDump
import MirListing.Proofs.Lists

/-!
# Where a scan stands

A scan of memory goes from byte to byte and takes the bytes of a pointer together.  `Meets` says at
which offsets it stands, by the table of stored pointers alone; a pointer stored at such an offset
is `Drawn`, and its bytes are `Covered`.  One stored elsewhere is never looked at.

`scan_cons` opens a `scan` that succeeds: what the first mark is, that its bytes are there, and that
the scan goes on behind them.  From it follow that the marks of a scan that succeeds
stand for all bytes (`markBytes_scan`), and that the marks from any met offset on are themselves a
scan (`splitsAt_of_meets`), which is how a mark is found by its offset.
-/

namespace MirListing

namespace Allocation

/-- A stored pointer belongs to the cell of its offset. -/
theorem mem_relocations {a : Allocation} {offset : Nat} {target : AllocId} :
    (offset, target) ∈ a.relocations ↔
      ∃ cell, a.cells[offset]? = some cell ∧ cell.target? = some target := by
  simp only [relocations, List.mem_filterMap, Option.map_eq_some_iff, Prod.exists,
    List.mem_zipIdx_iff_getElem?, Prod.mk.injEq]
  constructor
  · rintro ⟨cell, i, hcell, t, ht, rfl, rfl⟩
    exact ⟨cell, hcell, ht⟩
  · rintro ⟨cell, hcell, ht⟩
    exact ⟨cell, offset, hcell, target, ht, rfl, rfl⟩

/-- The targets are those of the stored pointers. -/
theorem mem_targets {a : Allocation} {target : AllocId} :
    target ∈ a.targets ↔ ∃ offset, (offset, target) ∈ a.relocations := by
  simp only [targets, List.mem_filterMap, mem_relocations]
  constructor
  · rintro ⟨cell, hmem, ht⟩
    obtain ⟨i, hi⟩ := List.mem_iff_getElem?.1 hmem
    exact ⟨i, cell, hi, ht⟩
  · rintro ⟨i, cell, hi, ht⟩
    exact ⟨cell, List.mem_of_getElem? hi, ht⟩

end Allocation

/-- The targets of stored pointers stand in the order of the offsets. -/
theorem targets_eq_relocations (a : Allocation) :
    a.targets = a.relocations.map Prod.snd ∧
      (a.relocations.map Prod.fst).Pairwise (· < ·) := by
  constructor
  · calc
      a.targets = (a.cells.zipIdx.map Prod.fst).filterMap Cell.target? := by
        rw [List.zipIdx_map_fst, Allocation.targets]
      _ = a.relocations.map Prod.snd := by
        rw [Allocation.relocations, List.filterMap_map, List.map_filterMap]
        congr 1
        funext numbered
        obtain ⟨cell, offset⟩ := numbered
        simp [Function.comp_def]
  · rw [List.pairwise_map]
    refine (pairwise_zipIdx a.cells).filterMap _ ?_
    rintro ⟨cell, i⟩ ⟨cell', j⟩ hlt _ hfirst _ hsecond
    obtain ⟨_, -, rfl⟩ := Option.map_eq_some_iff.1 hfirst
    obtain ⟨_, -, rfl⟩ := Option.map_eq_some_iff.1 hsecond
    exact hlt

namespace HexDump

/-! ## Met offsets -/

/-- A scan from the first byte on comes to stand at an offset: it goes on by one byte, and by the
size of a pointer where one is stored. -/
inductive Meets (layout : Layout) (a : Allocation) : Nat → Prop
  | start : Meets layout a 0
  | byte {i : Nat} : Meets layout a i → i < a.size → (∀ t, (i, t) ∉ a.relocations) →
      Meets layout a (i + 1)
  | pointer {i : Nat} {t : AllocId} : Meets layout a i → (i, t) ∈ a.relocations →
      Meets layout a (i + layout.pointerSize.bytes)

/-- A pointer that is drawn: it is stored where a scan stands. -/
def Drawn (layout : Layout) (a : Allocation) (i : Nat) (t : AllocId) : Prop :=
  Meets layout a i ∧ (i, t) ∈ a.relocations

/-- An offset is covered by the bytes of a drawn pointer. -/
def Covered (layout : Layout) (a : Allocation) (i : Nat) : Prop :=
  ∃ j t, Drawn layout a j t ∧ j ≤ i ∧ i < j + layout.pointerSize.bytes

/-- A scan stands at every offset that it does not step over. -/
theorem meets_or_covered (layout : Layout) (a : Allocation) {i : Nat} (hi : i ≤ a.size) :
    Meets layout a i ∨ Covered layout a i := by
  induction i with
  | zero => exact .inl .start
  | succ i ih =>
    rcases ih (by omega) with hmeets | ⟨j, t, hdrawn, hle, hlt⟩
    · by_cases hstored : ∃ t, (i, t) ∈ a.relocations
      · obtain ⟨t, ht⟩ := hstored
        have := layout.pointerSize.bytes_bounds
        exact .inr ⟨i, t, ⟨hmeets, ht⟩, by omega, by omega⟩
      · exact .inl (hmeets.byte hi fun t ht => hstored ⟨t, ht⟩)
    · by_cases hend : i + 1 = j + layout.pointerSize.bytes
      · rw [hend]
        exact .inl (hdrawn.1.pointer hdrawn.2)
      · exact .inr ⟨j, t, hdrawn, by omega, by omega⟩

/-- Where no pointer covers an offset, a scan stands there and no pointer is stored. -/
theorem meets_of_not_covered {layout : Layout} {a : Allocation} {i : Nat} (hi : i < a.size)
    (h : ¬Covered layout a i) : Meets layout a i ∧ ∀ t, (i, t) ∉ a.relocations := by
  have hmeets := (meets_or_covered layout a (Nat.le_of_lt hi)).resolve_right h
  refine ⟨hmeets, fun t ht => h ⟨i, t, ⟨hmeets, ht⟩, by omega, ?_⟩⟩
  have := layout.pointerSize.bytes_bounds
  omega

/-! ## Marks by offset -/

/-- The mark of the first of some cells, with those behind it. -/
def markOf (layout : Layout) (cell : Cell) (rest : List Cell) : Mark :=
  match cell.target? with
  | none => .ofCell cell
  | some target =>
      .pointer (pointerLabel layout target
        (((cell :: rest).take layout.pointerSize.bytes).map Cell.byte))

/-- The number of bytes that marks stand for. -/
def markBytes (pointerBytes : Nat) : List Mark → Nat
  | [] => 0
  | mark :: rest => mark.bytes pointerBytes + markBytes pointerBytes rest

@[simp] theorem markBytes_nil (pointerBytes : Nat) : markBytes pointerBytes [] = 0 := rfl

@[simp] theorem markBytes_cons (pointerBytes : Nat) (mark : Mark) (marks : List Mark) :
    markBytes pointerBytes (mark :: marks) =
      mark.bytes pointerBytes + markBytes pointerBytes marks := rfl

@[simp] theorem markBytes_append (pointerBytes : Nat) (marks more : List Mark) :
    markBytes pointerBytes (marks ++ more) =
      markBytes pointerBytes marks + markBytes pointerBytes more := by
  induction marks with
  | nil => simp
  | cons mark rest ih => simp [ih, Nat.add_assoc]

@[simp] theorem bytes_ofCell (pointerBytes : Nat) (cell : Cell) :
    (Mark.ofCell cell).bytes pointerBytes = 1 := by
  unfold Mark.ofCell
  split <;> rfl

@[simp] theorem scan_nil (layout : Layout) (size offset : Nat) :
    scan layout size offset [] = ([], none) := by
  rw [scan]

theorem drop_pointer (layout : Layout) (cell : Cell) (rest : List Cell) :
    (cell :: rest).drop layout.pointerSize.bytes = rest.drop (layout.pointerSize.bytes - 1) := by
  obtain ⟨hmin, -⟩ := layout.pointerSize.bytes_bounds
  rw [show layout.pointerSize.bytes = layout.pointerSize.bytes - 1 + 1 by omega,
    List.drop_succ_cons, Nat.add_sub_cancel]

/-- A scan that succeeds takes the bytes of its first mark and goes on behind them. -/
theorem scan_cons {layout : Layout} {size offset : Nat} {cell : Cell} {rest : List Cell}
    {marks : List Mark} (h : scan layout size offset (cell :: rest) = (marks, none)) :
    ∃ after, marks = markOf layout cell rest :: after ∧
      (markOf layout cell rest).bytes layout.pointerSize.bytes ≤ (cell :: rest).length ∧
      scan layout size (offset + (markOf layout cell rest).bytes layout.pointerSize.bytes)
        ((cell :: rest).drop ((markOf layout cell rest).bytes layout.pointerSize.bytes)) =
          (after, none) := by
  rw [scan] at h
  cases htarget : cell.target? with
  | none =>
    simp only [htarget, Prod.mk.injEq] at h
    obtain ⟨rfl, hnone⟩ := h
    refine ⟨(scan layout size (offset + 1) rest).1, ?_, ?_, ?_⟩
    · simp [markOf, htarget]
    · simp [markOf, htarget]
    · simp only [markOf, htarget, bytes_ofCell, List.drop_succ_cons, List.drop_zero]
      rw [← hnone]
  | some target =>
    simp only [htarget] at h
    split at h
    · simp at h
    · rename_i henough
      split at h
      · simp at h
      · simp only [Prod.mk.injEq] at h
        obtain ⟨rfl, hnone⟩ := h
        refine ⟨(scan layout size (offset + layout.pointerSize.bytes)
          (rest.drop (layout.pointerSize.bytes - 1))).1, ?_, ?_, ?_⟩
        · simp [markOf, htarget]
        · simp only [markOf, htarget, Mark.bytes, List.length_cons]
          omega
        · simp only [markOf, htarget, Mark.bytes]
          rw [drop_pointer, ← hnone]

/-- The marks of a scan that succeeds stand for all bytes. -/
theorem markBytes_scan {layout : Layout} {size offset : Nat} {cells : List Cell}
    {marks : List Mark} (h : scan layout size offset cells = (marks, none)) :
    markBytes layout.pointerSize.bytes marks = cells.length := by
  induction marks generalizing offset cells with
  | nil =>
    cases cells with
    | nil => rfl
    | cons cell rest =>
      obtain ⟨after, hmarks, -, -⟩ := scan_cons h
      simp at hmarks
  | cons mark marks ih =>
    cases cells with
    | nil => simp at h
    | cons cell rest =>
      obtain ⟨after, hmarks, hle, hafter⟩ := scan_cons h
      obtain ⟨rfl, rfl⟩ := List.cons.inj hmarks
      have hrest := ih hafter
      rw [List.length_drop] at hrest
      rw [markBytes_cons, hrest]
      omega

/-- The cells from an offset on begin with the cell of that offset. -/
theorem drop_cells {a : Allocation} {i : Nat} {cell : Cell} (h : a.cells[i]? = some cell) :
    a.cells.drop i = cell :: a.cells.drop (i + 1) := by
  obtain ⟨hi, rfl⟩ := List.getElem?_eq_some_iff.1 h
  exact List.drop_eq_getElem_cons hi

/-- Marks are those of the bytes before an offset, and those that a scan from the offset on finds.
-/
def SplitsAt (layout : Layout) (a : Allocation) (marks : List Mark) (i : Nat) : Prop :=
  ∃ before after, marks = before ++ after ∧ markBytes layout.pointerSize.bytes before = i ∧
    scan layout a.size i (a.cells.drop i) = (after, none)

/-- Where a scan stands at a cell, the next mark is that of the cell, and behind its bytes the marks
split again. -/
theorem SplitsAt.next {layout : Layout} {a : Allocation} {marks : List Mark} {i : Nat}
    {cell : Cell} (h : SplitsAt layout a marks i) (hcell : a.cells[i]? = some cell) :
    ∃ before after, marks = before ++ markOf layout cell (a.cells.drop (i + 1)) :: after ∧
      markBytes layout.pointerSize.bytes before = i ∧
      i + (markOf layout cell (a.cells.drop (i + 1))).bytes layout.pointerSize.bytes ≤ a.size ∧
      SplitsAt layout a marks
        (i + (markOf layout cell (a.cells.drop (i + 1))).bytes layout.pointerSize.bytes) := by
  obtain ⟨before, after, rfl, hbefore, hscan⟩ := h
  have hlt : i < a.size := (List.getElem?_eq_some_iff.1 hcell).1
  rw [drop_cells hcell] at hscan
  obtain ⟨after, rfl, hle, hafter⟩ := scan_cons hscan
  rw [← drop_cells hcell, List.length_drop] at hle
  rw [← drop_cells hcell, List.drop_drop] at hafter
  refine ⟨before, after, rfl, hbefore, ?_, ?_⟩
  · simp only [Allocation.size] at hlt ⊢
    omega
  · refine ⟨before ++ [markOf layout cell (a.cells.drop (i + 1))], after, ?_, ?_, hafter⟩
    · rw [List.append_assoc, List.singleton_append]
    · rw [markBytes_append, hbefore, markBytes_cons, markBytes_nil, Nat.add_zero]

/-- The marks of a scan that succeeds split at every offset that it meets. -/
theorem splitsAt_of_meets {layout : Layout} {a : Allocation} {marks : List Mark}
    (h : scan layout a.size 0 a.cells = (marks, none)) {i : Nat} (hi : Meets layout a i) :
    SplitsAt layout a marks i := by
  induction hi with
  | start => exact ⟨[], marks, rfl, rfl, h⟩
  | @byte i _ hlt hnone ih =>
    have hcell : a.cells[i]? = some a.cells[i] := List.getElem?_eq_getElem hlt
    have hmark : a.cells[i].target? = none := by
      cases htarget : a.cells[i].target? with
      | none => rfl
      | some t => exact absurd (Allocation.mem_relocations.2 ⟨_, hcell, htarget⟩) (hnone t)
    obtain ⟨-, -, -, -, -, hnext⟩ := ih.next hcell
    simpa [markOf, hmark] using hnext
  | pointer _ hstored ih =>
    obtain ⟨cell, hcell, htarget⟩ := Allocation.mem_relocations.1 hstored
    obtain ⟨-, -, -, -, -, hnext⟩ := ih.next hcell
    simpa [markOf, htarget, Mark.bytes] using hnext

/-! ## The marks of uncovered bytes and of drawn pointers -/

/-- An uncovered byte has a mark of its own. -/
theorem exists_mark_of_not_covered {layout : Layout} {a : Allocation} {marks : List Mark}
    (h : scan layout a.size 0 a.cells = (marks, none)) {i : Nat} {cell : Cell}
    (hcell : a.cells[i]? = some cell) (hfree : ¬Covered layout a i) :
    ∃ before after, marks = before ++ Mark.ofCell cell :: after ∧
      markBytes layout.pointerSize.bytes before = i := by
  have hlt : i < a.size := (List.getElem?_eq_some_iff.1 hcell).1
  obtain ⟨hmeets, hnone⟩ := meets_of_not_covered hlt hfree
  obtain ⟨before, after, hmarks, hbefore, -⟩ := (splitsAt_of_meets h hmeets).next hcell
  have htarget : cell.target? = none := by
    cases htarget : cell.target? with
    | none => rfl
    | some t => exact absurd (Allocation.mem_relocations.2 ⟨cell, hcell, htarget⟩) (hnone t)
  refine ⟨before, after, ?_, hbefore⟩
  rw [hmarks, markOf, htarget]

/-- The label of a pointer stored at an offset. -/
def labelAt (layout : Layout) (a : Allocation) (i : Nat) (t : AllocId) : List Char :=
  pointerLabel layout t (((a.cells.drop i).take layout.pointerSize.bytes).map Cell.byte)

/-- A drawn pointer has a mark with its label, and all its bytes are there. -/
theorem exists_mark_of_drawn {layout : Layout} {a : Allocation} {marks : List Mark}
    (h : scan layout a.size 0 a.cells = (marks, none)) {i : Nat} {t : AllocId}
    (hdrawn : Drawn layout a i t) :
    i + layout.pointerSize.bytes ≤ a.size ∧
      ∃ before after, marks = before ++ Mark.pointer (labelAt layout a i t) :: after ∧
        markBytes layout.pointerSize.bytes before = i := by
  obtain ⟨cell, hcell, htarget⟩ := Allocation.mem_relocations.1 hdrawn.2
  obtain ⟨before, after, hmarks, hbefore, hle, -⟩ := (splitsAt_of_meets h hdrawn.1).next hcell
  simp only [markOf, htarget, Mark.bytes] at hmarks hle
  refine ⟨hle, before, after, ?_, hbefore⟩
  rw [hmarks, labelAt, drop_cells hcell]

end HexDump

end MirListing
