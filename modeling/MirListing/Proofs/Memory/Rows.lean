import MirListing.Proofs.Memory.Columns

/-!
# Rows of a dump

`rows` fills lines from the left.  Where no segment crosses the end of a line, it does nothing but
cut after every sixteenth byte: whatever each segment contributes in proportion to its bytes, row
`k` has the part from byte `16 * k` on (`flatMap_row`), and there is a row for every sixteen bytes
begun (`length_rows`).

So a segment is found by the bytes before it alone: its columns begin at three times their number
(`flatMap_segment`), on the line and at the place that this number gives.
-/

namespace MirListing.HexDump

/-! ## Cutting after every sixteenth byte -/

theorem rows_nil (row : List Segment) : rows row [] = if row.isEmpty then [] else [row] := by
  rw [rows]

theorem rows_cons (row : List Segment) (s : Segment) (rest : List Segment) :
    rows row (s :: rest) =
      if segmentBytes (row ++ [s]) < lineBytes then rows (row ++ [s]) rest
      else (row ++ [s]) :: rows [] rest := by
  rw [rows]

/-- Rows leave nothing out. -/
theorem flatten_rows (row segments : List Segment) :
    (rows row segments).flatten = row ++ segments := by
  induction segments generalizing row with
  | nil =>
    rw [rows_nil]
    cases row with
    | nil => rfl
    | cons s row => simp
  | cons s rest ih =>
    rw [rows_cons]
    split
    · rw [ih, List.append_assoc, List.singleton_append]
    · rw [List.flatten_cons, ih, List.nil_append, List.append_assoc, List.singleton_append]

theorem ne_nil_of_mem_rows {row segments r : List Segment} (h : r ∈ rows row segments) :
    r ≠ [] := by
  induction segments generalizing row with
  | nil =>
    rw [rows_nil] at h
    cases row with
    | nil => simp at h
    | cons s row =>
      obtain rfl : r = s :: row := by simpa using h
      exact List.cons_ne_nil _ _
  | cons s rest ih =>
    rw [rows_cons] at h
    split at h
    · exact ih h
    · rcases List.mem_cons.1 h with rfl | h
      · exact List.append_ne_nil_of_right_ne_nil _ (List.cons_ne_nil _ _)
      · exact ih h

/-- What a row holds so far, and what stands behind it: the bytes of the row are those before the
offset on its line. -/
structure Filling (offset : Nat) (row segments : List Segment) : Prop where
  /-- The row ends at the offset. -/
  bytes : segmentBytes row = offset % lineBytes
  /-- The row has no empty segment. -/
  fits : ∀ s ∈ row, s.Fits
  /-- The other segments stand within lines. -/
  inLines : InLines offset segments

theorem Filling.open {offset : Nat} {row rest : List Segment} {s : Segment}
    (h : Filling offset row (s :: rest)) (hopen : segmentBytes (row ++ [s]) < lineBytes) :
    Filling (offset + s.bytes) (row ++ [s]) rest := by
  obtain ⟨hbytes, hfits, hs, -, hrest⟩ := h
  refine ⟨?_, ?_, hrest⟩
  · simp only [segmentBytes_append, segmentBytes_cons, segmentBytes_nil, lineBytes]
      at hopen hbytes ⊢
    omega
  · intro s' hs'
    rcases List.mem_append.1 hs' with hs' | hs'
    · exact hfits s' hs'
    · obtain rfl := List.mem_singleton.1 hs'
      exact hs

theorem Filling.full {offset : Nat} {row rest : List Segment} {s : Segment}
    (h : Filling offset row (s :: rest)) (hfull : ¬segmentBytes (row ++ [s]) < lineBytes) :
    segmentBytes (row ++ [s]) = lineBytes ∧ Filling (offset + s.bytes) [] rest := by
  obtain ⟨hbytes, -, -, hle, hrest⟩ := h
  have htotal : segmentBytes (row ++ [s]) = offset % lineBytes + s.bytes := by
    simp [hbytes]
  refine ⟨by omega, ?_, by simp, hrest⟩
  simp only [htotal, lineBytes] at hfull hle
  simp only [segmentBytes_nil, lineBytes]
  omega

/-- Row `k` has what the segments contribute from byte `16 * k` on. -/
theorem flatMap_row {α : Type} {f : Segment → List α} {width offset : Nat}
    {row segments : List Segment} (h : Filling offset row segments)
    (hf : ∀ s ∈ row ++ segments, (f s).length = width * s.bytes) {k : Nat} {r : List Segment}
    (hr : (rows row segments)[k]? = some r) :
    r.flatMap f =
      (((row ++ segments).flatMap f).drop (width * (lineBytes * k))).take (width * lineBytes) := by
  induction segments generalizing offset row k with
  | nil =>
    have hlt : segmentBytes row ≤ lineBytes := by
      rw [h.bytes]
      exact Nat.le_of_lt (Nat.mod_lt _ (by decide))
    have hle : (row.flatMap f).length ≤ width * lineBytes := by
      rw [List.append_nil] at hf
      rw [length_flatMap hf]
      exact Nat.mul_le_mul_left _ hlt
    rw [rows_nil] at hr
    split at hr
    · simp at hr
    · obtain ⟨rfl, rfl⟩ : k = 0 ∧ row = r := by simpa [List.getElem?_singleton] using hr
      rw [List.append_nil, Nat.mul_zero, Nat.mul_zero, List.drop_zero, List.take_of_length_le hle]
  | cons s rest ih =>
    have hsplit : row ++ s :: rest = (row ++ [s]) ++ rest := by simp
    rw [rows_cons] at hr
    rw [hsplit] at hf ⊢
    split at hr
    · rename_i hopen
      exact ih (h.open hopen) hf hr
    · rename_i hfull
      obtain ⟨hbytes, hrest⟩ := h.full hfull
      have hlength : ((row ++ [s]).flatMap f).length = width * lineBytes := by
        rw [length_flatMap fun s' hs' => hf s' (List.mem_append_left _ hs'), hbytes]
      rw [List.flatMap_append]
      cases k with
      | zero =>
        obtain rfl : row ++ [s] = r := by simpa using hr
        rw [Nat.mul_zero, Nat.mul_zero, List.drop_zero, List.take_left' hlength]
      | succ k =>
        rw [List.getElem?_cons_succ] at hr
        have hdrop : width * (lineBytes * (k + 1)) =
            ((row ++ [s]).flatMap f).length + width * (lineBytes * k) := by
          rw [hlength, Nat.mul_succ, Nat.mul_add, Nat.add_comm]
        rw [hdrop, List.drop_length_add_append]
        exact ih hrest (fun s' hs' => hf s' (List.mem_append_right _ hs')) hr

/-- There is a row for every sixteen bytes begun. -/
theorem length_rows {offset : Nat} {row segments : List Segment} (h : Filling offset row segments) :
    (rows row segments).length =
      (segmentBytes (row ++ segments) + (lineBytes - 1)) / lineBytes := by
  induction segments generalizing offset row with
  | nil =>
    have hbytes := h.bytes
    rw [rows_nil, List.append_nil]
    cases row with
    | nil => rfl
    | cons s row =>
      have hpos := (h.fits s (List.mem_cons_self ..)).pos
      simp only [segmentBytes_cons, lineBytes] at hbytes
      simp only [List.isEmpty_cons, List.length_singleton, segmentBytes_cons, lineBytes,
        Bool.false_eq_true, if_false]
      omega
  | cons s rest ih =>
    have hsplit : row ++ s :: rest = (row ++ [s]) ++ rest := by simp
    rw [rows_cons, hsplit]
    split
    · rename_i hopen
      exact ih (h.open hopen)
    · rename_i hfull
      obtain ⟨hbytes, hrest⟩ := h.full hfull
      rw [List.length_cons, ih hrest, segmentBytes_append (row ++ [s]), hbytes, List.nil_append]
      simp only [lineBytes]
      omega

/-! ## Finding a segment -/

theorem filling_zero {segments : List Segment} (h : InLines 0 segments) : Filling 0 [] segments :=
  ⟨rfl, by simp, h⟩

/-- The row of a segment is there. -/
theorem exists_segment_row {before after : List Segment} {s : Segment}
    (h : InLines 0 (before ++ s :: after)) :
    ∃ r, (rows [] (before ++ s :: after))[segmentBytes before / lineBytes]? = some r := by
  have hpos := (h.fits s (by simp)).pos
  have hlt : segmentBytes before / lineBytes < (rows [] (before ++ s :: after)).length := by
    rw [length_rows (filling_zero h)]
    simp only [List.nil_append, segmentBytes_append, segmentBytes_cons, lineBytes]
    omega
  exact ⟨_, List.getElem?_eq_getElem hlt⟩

/-- On its row, what a segment contributes stands behind what the bytes before it contribute. -/
theorem flatMap_segment {α : Type} {f : Segment → List α} {width : Nat}
    {before after : List Segment} {s : Segment} (h : InLines 0 (before ++ s :: after))
    (hf : ∀ s' ∈ before ++ s :: after, (f s').length = width * s'.bytes) {r : List Segment}
    (hr : (rows [] (before ++ s :: after))[segmentBytes before / lineBytes]? = some r) :
    ((r.flatMap f).drop (width * (segmentBytes before % lineBytes))).take (width * s.bytes) =
      f s := by
  obtain ⟨-, -, hle, -⟩ := inLines_append.1 h
  rw [Nat.zero_add] at hle
  have hbefore : (before.flatMap f).length = width * segmentBytes before :=
    length_flatMap fun s' hs' => hf s' (List.mem_append_left _ hs')
  have hposition : width * (lineBytes * (segmentBytes before / lineBytes)) +
      width * (segmentBytes before % lineBytes) = (before.flatMap f).length := by
    rw [← Nat.mul_add, Nat.div_add_mod, hbefore]
  have hroom : width * s.bytes ≤
      width * lineBytes - width * (segmentBytes before % lineBytes) := by
    rw [← Nat.mul_sub]
    exact Nat.mul_le_mul_left _ (by omega)
  rw [flatMap_row (filling_zero h) hf hr, List.drop_take, List.drop_drop, hposition,
    List.take_take, Nat.min_eq_left hroom, List.nil_append, List.flatMap_append, List.drop_left,
    List.flatMap_cons, List.take_left' (hf s (by simp))]

end MirListing.HexDump
