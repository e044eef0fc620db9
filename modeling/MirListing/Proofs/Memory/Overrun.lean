import MirListing.Proofs.Listing.Failing
import MirListing.Proofs.Memory.Scan

/-!
# Pointers that run past the end

A dump stops at the first pointer it would draw whose bytes are not all there.  Memory with such a
pointer `Overruns`.  A pointer that is stored inside another one is never looked at, so whether it
would run past the end makes no difference: `Overruns` speaks of drawn pointers only.

Besides, the bytes of a pointer cannot be counted if the pointer size of the layout is no integer.
A dump fails for these two reasons only (`failsOnly_block`), and one that does not fail overruns
nowhere (`not_overruns_of_block`).
-/

namespace MirListing.HexDump

/-- Some pointer that is drawn reaches past the end of its memory. -/
def Overruns (layout : Layout) (a : Allocation) : Prop :=
  ∃ i t, Drawn layout a i t ∧ a.size < i + layout.pointerSize.bytes

/-- Why a dump may fail. -/
def DumpFailure (layout : Layout) (a : Allocation) (failure : Failure) : Prop :=
  (∃ i, failure = .body (.pointerPastEnd i a.size) ∧ Overruns layout a) ∨
    failure = .wrongShape ∧ layout.sizeIsInteger = false

/-- A scan that fails does so at its first cell, where a pointer is stored, or behind the mark of
the cell. -/
theorem scan_cons_failure {layout : Layout} {size offset : Nat} {cell : Cell} {rest : List Cell}
    {marks : List Mark} {failure : Failure}
    (h : scan layout size offset (cell :: rest) = (marks, some failure)) :
    (∃ t, cell.target? = some t ∧
      ((rest.length + 1 < layout.pointerSize.bytes ∧
          failure = .body (.pointerPastEnd offset size)) ∨
        failure = .wrongShape ∧ layout.sizeIsInteger = false)) ∨
    ∃ after, scan layout size (offset + (markOf layout cell rest).bytes layout.pointerSize.bytes)
      ((cell :: rest).drop ((markOf layout cell rest).bytes layout.pointerSize.bytes)) =
        (after, some failure) := by
  rw [scan] at h
  cases htarget : cell.target? with
  | none =>
    simp only [htarget, Prod.mk.injEq] at h
    refine .inr ⟨(scan layout size (offset + 1) rest).1, ?_⟩
    simp only [markOf, htarget, bytes_ofCell, List.drop_succ_cons, List.drop_zero]
    exact Prod.ext rfl h.2
  | some t =>
    simp only [htarget] at h
    split at h
    · rename_i hshort
      exact .inl ⟨t, rfl, .inl ⟨hshort, (Option.some.inj (Prod.mk.inj h).2).symm⟩⟩
    · split at h
      · rename_i hsize
        refine .inl ⟨t, rfl, .inr ⟨(Option.some.inj (Prod.mk.inj h).2).symm, ?_⟩⟩
        simpa using hsize
      · refine .inr ⟨(scan layout size (offset + layout.pointerSize.bytes)
          (rest.drop (layout.pointerSize.bytes - 1))).1, ?_⟩
        simp only [markOf, htarget, Mark.bytes]
        rw [drop_pointer]
        exact Prod.ext rfl (Prod.mk.inj h).2

/-- Behind the mark of a cell a scan stands again. -/
theorem Meets.next {layout : Layout} {a : Allocation} {i : Nat} {cell : Cell} {rest : List Cell}
    (hi : Meets layout a i) (hcell : a.cells[i]? = some cell) :
    Meets layout a (i + (markOf layout cell rest).bytes layout.pointerSize.bytes) := by
  cases htarget : cell.target? with
  | none =>
    have hnone : ∀ t, (i, t) ∉ a.relocations := by
      intro t ht
      obtain ⟨other, hother, hsome⟩ := Allocation.mem_relocations.1 ht
      rw [hcell] at hother
      obtain rfl := Option.some.inj hother
      rw [htarget] at hsome
      cases hsome
    simp only [markOf, htarget, bytes_ofCell]
    exact hi.byte (List.getElem?_eq_some_iff.1 hcell).1 hnone
  | some t =>
    simp only [markOf, htarget, Mark.bytes]
    exact hi.pointer (Allocation.mem_relocations.2 ⟨cell, hcell, htarget⟩)

theorem bytes_mark_pos (layout : Layout) (cell : Cell) (rest : List Cell) :
    0 < (markOf layout cell rest).bytes layout.pointerSize.bytes := by
  obtain ⟨hmin, -⟩ := layout.pointerSize.bytes_bounds
  cases htarget : cell.target? with
  | none => simp [markOf, htarget]
  | some t =>
    simp only [markOf, htarget, Mark.bytes]
    omega

/-- From where a scan stands it fails at a pointer only. -/
theorem scan_failure {layout : Layout} {a : Allocation} {i : Nat} (hi : Meets layout a i)
    {marks : List Mark} {failure : Failure}
    (h : scan layout a.size i (a.cells.drop i) = (marks, some failure)) :
    DumpFailure layout a failure := by
  -- the scan goes on behind each mark, so fewer cells are left at every offset it stands at
  induction hleft : a.size - i using Nat.strongRecOn generalizing i marks with
  | ind left ih =>
    subst hleft
    cases hcell : a.cells[i]? with
    | none =>
      rw [List.drop_eq_nil_of_le (List.getElem?_eq_none_iff.1 hcell), scan_nil] at h
      cases h
    | some cell =>
      have hlt : i < a.cells.length := (List.getElem?_eq_some_iff.1 hcell).1
      have hsize : a.size = a.cells.length := rfl
      rw [drop_cells hcell] at h
      obtain ⟨t, htarget, ⟨hshort, rfl⟩ | ⟨rfl, hinteger⟩⟩ | ⟨after, hafter⟩ := scan_cons_failure h
      · have hdrawn : Drawn layout a i t :=
          ⟨hi, Allocation.mem_relocations.2 ⟨cell, hcell, htarget⟩⟩
        rw [List.length_drop] at hshort
        exact .inl ⟨i, rfl, i, t, hdrawn, by omega⟩
      · exact .inr ⟨rfl, hinteger⟩
      · have hpos := bytes_mark_pos layout cell (a.cells.drop (i + 1))
        rw [← drop_cells hcell, List.drop_drop] at hafter
        exact ih _ (by omega) (hi.next hcell) hafter rfl

theorem failsOnly_listing (layout : Layout) (start : List Char) (a : Allocation) :
    Listing.FailsOnly (DumpFailure layout a) (listing layout start a) := by
  unfold listing scannedRows
  by_cases hsize : a.size = 0
  · rw [if_pos hsize]
    exact Listing.failsOnly_text _
  · rw [if_neg hsize]
    cases hscan : scan layout a.size 0 a.cells with
    | mk marks failure? =>
      cases failure? with
      | none => exact Listing.failsOnly_text _
      | some failure =>
        have hfailure : DumpFailure layout a failure := scan_failure .start hscan
        exact (Listing.failsOnly_text _).append (Listing.failsOnly_fail hfailure)

/-- A dump fails at a pointer that runs past the end, or because of its layout. -/
theorem failsOnly_block (layout : Layout) (a : Allocation) :
    Listing.FailsOnly (DumpFailure layout a) (block layout a) := by
  refine (Listing.failsOnly_text _).append ?_
  split
  · exact Listing.failsOnly_text _
  · exact ((Listing.failsOnly_text _).append (failsOnly_listing _ _ _)).append
      (Listing.failsOnly_text _)

/-- Memory that is dumped overruns nowhere. -/
theorem not_overruns_of_block {layout : Layout} {a : Allocation}
    (h : (block layout a).failure? = none) : ¬Overruns layout a := by
  rintro ⟨i, t, hdrawn, hpast⟩
  have hsize : a.size ≠ 0 := by
    have := Allocation.lt_size_of_mem_relocations hdrawn.2
    omega
  rw [block, if_neg hsize] at h
  have hlisting := (Listing.failure?_append.1
    (Listing.failure?_append.1 (Listing.failure?_append.1 h).2).1).2
  rw [listing, scannedRows, if_neg hsize] at hlisting
  cases hscan : scan layout a.size 0 a.cells with
  | mk marks failure? =>
    rw [hscan] at hlisting
    cases failure? with
    | some failure => cases hlisting
    | none =>
      have := (exists_mark_of_drawn hscan hdrawn).1
      omega

end MirListing.HexDump
