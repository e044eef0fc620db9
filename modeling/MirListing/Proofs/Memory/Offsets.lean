import MirListing.Proofs.Memory.Lines

/-!
# What a dump shows at an offset

The lines of a dump can be read by offset: a segment with `n` bytes before it stands on line
`n / 16` of the dump, and its cells begin at column `3 * (n % 16)` there (`Written.exists_cells`).
The characters of all lines, one line after another, are those of the segments
(`Written.characters_eq`), so the line ends inside a pointer are not seen in them.

With the marks of a scan found by their offsets, this says for every byte what is drawn for it,
whatever pointers and line ends stand before it (`listing_offsets`).
-/

namespace MirListing.HexDump

section

variable {layout : Layout} {start : List Char} {a : Allocation} {marks : List Mark}
  {ls : List (List Char)}

/-! ## Reading lines by offset -/

/-- What is appended behind a part is not read with it. -/
theorem take_drop_append {α : Type} {front back : List α} {i n : Nat} (h : i + n ≤ front.length) :
    ((front ++ back).drop i).take n = (front.drop i).take n := by
  rw [List.drop_append_of_le_length (by omega), List.take_append_of_le_length]
  rw [List.length_drop]
  omega

/-- As far as the columns of its segments go, the cell area of a line has these. -/
theorem LineOf.take_cellArea {size k i n : Nat} {row : List Segment} {line : List Char}
    (h : LineOf start size k row line) (hrow : row ≠ []) (harea : i + n ≤ 47)
    (hcolumns : i + n ≤ (row.flatMap Segment.columns).length) :
    ((cellArea start size line).drop i).take n = ((row.flatMap Segment.columns).drop i).take n := by
  have hlength := h.length_area
  calc ((cellArea start size line).drop i).take n
      = ((lineArea row ++ [' ']).drop i).take n := by
        rw [h.cellArea_eq, take_drop_append (by omega)]
    _ = ((row.flatMap Segment.columns).drop i).take n := by
        rw [lineArea_append_space hrow, take_drop_append hcolumns]

/-- From its first column on, the cell area of a line has the cells of a segment. -/
theorem Written.exists_cells (h : Written layout start a marks ls)
    {before after : List Segment} {s : Segment}
    (hdrawing : drawing layout marks = before ++ s :: after) :
    ∃ line, ls[segmentBytes before / 16]? = some line ∧
      ((cellArea start a.size line).drop (3 * (segmentBytes before % 16))).take (3 * s.bytes - 1) =
        s.cells := by
  have hlines := (inLines_drawing layout marks).1
  rw [hdrawing] at hlines
  have hfits : ∀ s' ∈ before ++ s :: after, s'.columns.length = 3 * s'.bytes := fun s' hs' =>
    (hlines.fits s' hs').length_columns
  have hpos := (hlines.fits s (by simp)).pos
  obtain ⟨-, -, hend, -⟩ := inLines_append.1 hlines
  simp only [Nat.zero_add, lineBytes] at hend
  obtain ⟨row, hrow⟩ := exists_segment_row hlines
  have hcolumns := flatMap_segment hlines hfits hrow
  rw [← hdrawing] at hrow
  obtain ⟨line, hline, hof⟩ := h.exists_line hrow
  have hcells : s.cells.length = 3 * s.bytes - 1 := by
    have hlength := hfits s (by simp)
    rw [Segment.columns, List.length_append, List.length_singleton] at hlength
    omega
  -- the row has the columns of the segment, so the filling of the area is behind them
  have hroom : 3 * (segmentBytes before % 16) + 3 * s.bytes ≤
      (row.flatMap Segment.columns).length := by
    have hlength := congrArg List.length hcolumns
    rw [List.length_take, List.length_drop, hfits s (by simp)] at hlength
    simp only [lineBytes] at hlength
    omega
  have hne := ne_nil_of_mem_rows (List.mem_of_getElem? hrow)
  refine ⟨line, hline, ?_⟩
  calc ((cellArea start a.size line).drop (3 * (segmentBytes before % 16))).take (3 * s.bytes - 1)
      = ((row.flatMap Segment.columns).drop (3 * (segmentBytes before % 16))).take
          (3 * s.bytes - 1) := hof.take_cellArea hne (by omega) (by omega)
    _ = s.columns.take (3 * s.bytes - 1) := by
        rw [← hcolumns, List.take_take, Nat.min_eq_left (Nat.sub_le _ _)]
        rfl
    _ = s.cells := by
        rw [Segment.columns, List.take_left' hcells]

/-- The characters of lines, one line after another. -/
def characters (start : List Char) (size : Nat) (ls : List (List Char)) : List Char :=
  ls.flatMap (asciiColumn start size)

/-- The characters of a dump are those of its segments. -/
theorem Written.characters_eq (h : Written layout start a marks ls) :
    characters start a.size ls = (drawing layout marks).flatMap Segment.ascii := by
  have hcolumns : ls.map (asciiColumn start a.size) =
      (rows [] (drawing layout marks)).map rowAscii := by
    apply List.ext_getElem?
    intro k
    rw [List.getElem?_map, List.getElem?_map]
    cases hrow : (rows [] (drawing layout marks))[k]? with
    | none =>
      have hline : ls[k]? = none := by
        rw [h.lines_eq, List.getElem?_mapIdx, hrow, Option.map_none]
      rw [hline, Option.map_none, Option.map_none]
    | some row =>
      obtain ⟨line, hline, hof⟩ := h.exists_line hrow
      rw [hline, Option.map_some, Option.map_some, hof.asciiColumn_eq]
  have hflatten := flatten_rows [] (drawing layout marks)
  rw [List.nil_append] at hflatten
  calc characters start a.size ls
      = (rows [] (drawing layout marks)).flatMap rowAscii := by
        rw [characters, List.flatMap_def, hcolumns, List.flatMap_def]
    _ = ((rows [] (drawing layout marks)).flatMap id).flatMap Segment.ascii := by
        rw [List.flatMap_assoc]
        rfl
    _ = (drawing layout marks).flatMap Segment.ascii := by
        rw [List.flatMap_id, hflatten]

theorem drawing_append (layout : Layout) (before : List Mark) (mark : Mark) (after : List Mark) :
    drawing layout (before ++ mark :: after) =
      drawing layout before ++
        (mark.segments layout.pointerSize.bytes
          (markBytes layout.pointerSize.bytes before % 16) ++
        segments layout.pointerSize.bytes (markBytes layout.pointerSize.bytes before +
          mark.bytes layout.pointerSize.bytes) after) := by
  rw [drawing, segments_append, segments, Nat.zero_add]
  rfl

/-- A mark is found by the number of bytes before it. -/
theorem Written.characters_mark {before after : List Mark} {mark : Mark}
    (h : Written layout start a (before ++ mark :: after) ls) :
    ((characters start a.size ls).drop (markBytes layout.pointerSize.bytes before)).take
        (mark.bytes layout.pointerSize.bytes) =
      (mark.segments layout.pointerSize.bytes
        (markBytes layout.pointerSize.bytes before % 16)).flatMap Segment.ascii := by
  obtain ⟨hmin, hmax⟩ := layout.pointerSize.bytes_bounds
  have hbytes := (inLines_mark hmin (Nat.le_trans hmax (by decide))
    (markBytes layout.pointerSize.bytes before) mark).2
  rw [h.characters_eq, drawing_append, List.flatMap_append, List.flatMap_append]
  rw [List.drop_left', List.take_left']
  · rw [length_ascii]
    exact hbytes
  · rw [length_ascii, (inLines_drawing layout before).2]

/-! ## Bytes -/

/-- The two columns of a byte: its hexadecimal digits, or a mark where it is not defined. -/
def byteColumns (cell : Cell) : List Char :=
  if cell.isDefined then
    [Nat.digitChar (cell.byte.toNat / 16), Nat.digitChar (cell.byte.toNat % 16)]
  else ['_', '_']

/-- The character of a byte: itself where it is a printable one, or a mark. -/
def byteChar (cell : Cell) : Char :=
  if cell.isDefined then
    if 0x20 ≤ cell.byte.toNat ∧ cell.byte.toNat ≤ 0x7e then Char.ofNat cell.byte.toNat else '.'
  else '░'

theorem asciiChar_eq (value : UInt8) :
    asciiChar value =
      if 0x20 ≤ value.toNat ∧ value.toNat ≤ 0x7e then Char.ofNat value.toNat else '.' := by
  by_cases hprintable : 0x20 ≤ value.toNat ∧ value.toNat ≤ 0x7e
  · have hother : ¬(value.toNat < 0x20 || 0x7f ≤ value.toNat) = true := by
      simp only [Bool.or_eq_true, decide_eq_true_eq]
      omega
    rw [asciiChar, if_neg hother, if_pos hprintable]
  · have hother : (value.toNat < 0x20 || 0x7f ≤ value.toNat) = true := by
      simp only [Bool.or_eq_true, decide_eq_true_eq]
      omega
    rw [asciiChar, if_pos hother, if_neg hprintable]

/-- A byte is drawn by one segment. -/
theorem segments_ofCell (pointerBytes column : Nat) (cell : Cell) :
    (Mark.ofCell cell).segments pointerBytes column =
      [{ cells := byteColumns cell, ascii := [byteChar cell] }] := by
  unfold Mark.ofCell byteColumns byteChar
  cases cell.isDefined with
  | true =>
    show [_] = [_]
    rw [hexPadded_byte, asciiChar_eq]
    rfl
  | false => rfl

/-- A pointer that ends on its line is drawn by one segment. -/
theorem segments_pointer_of_le {bytes column : Nat} (h : column + bytes ≤ 16)
    (label : List Char) :
    (Mark.pointer label).segments bytes column = [wholePointer bytes label] := by
  rw [Mark.segments]
  exact if_pos h

/-- A pointer that does not is drawn in two parts. -/
theorem segments_pointer_of_lt {bytes column : Nat} (h : 16 < column + bytes)
    (label : List Char) :
    (Mark.pointer label).segments bytes column =
      brokenPointer (16 - column) (bytes - (16 - column)) label := by
  rw [Mark.segments]
  exact if_neg (Nat.not_le_of_lt h)

/-- The characters of a pointer are the same whether or not a line ends inside it. -/
theorem ascii_pointer {pointerBytes column : Nat} (hbytes : 2 ≤ pointerBytes)
    (hcolumn : column < 16) (label : List Char) :
    ((Mark.pointer label).segments pointerBytes column).flatMap Segment.ascii =
      '╾' :: List.replicate (pointerBytes - 2) '─' ++ ['╼'] := by
  by_cases hwhole : column + pointerBytes ≤ 16
  · rw [segments_pointer_of_le hwhole, List.flatMap_singleton]
    rfl
  · obtain ⟨before, behind, heq, -, -⟩ :=
      brokenPointer_eq (16 - column) (pointerBytes - (16 - column)) label
    have hfill : pointerBytes - 2 =
        (16 - column - 1) + (pointerBytes - (16 - column) - 1) := by omega
    rw [segments_pointer_of_lt (Nat.lt_of_not_le hwhole), heq, hfill]
    simp only [List.flatMap_cons, List.flatMap_nil, pointerHead, pointerTail, pointerStart,
      pointerStop, fill, List.append_nil, List.cons_append]
    rw [← List.append_assoc, List.replicate_append_replicate]

theorem Written.exists_byteColumns (h : Written layout start a marks ls) {i : Nat} {cell : Cell}
    (hcell : a.cells[i]? = some cell) (hfree : ¬Covered layout a i) :
    ∃ line, ls[i / 16]? = some line ∧
      ((cellArea start a.size line).drop (3 * (i % 16))).take 2 = byteColumns cell := by
  obtain ⟨before, after, rfl, hbefore⟩ := exists_mark_of_not_covered h.scan_eq hcell hfree
  have hdrawing := drawing_append layout before (Mark.ofCell cell) after
  rw [segments_ofCell, List.singleton_append] at hdrawing
  have hcells := h.exists_cells hdrawing
  rw [(inLines_drawing layout before).2, hbefore] at hcells
  exact hcells

theorem Written.characters_getElem? (h : Written layout start a marks ls) {i : Nat} {cell : Cell}
    (hcell : a.cells[i]? = some cell) (hfree : ¬Covered layout a i) :
    (characters start a.size ls)[i]? = some (byteChar cell) := by
  obtain ⟨before, after, rfl, hbefore⟩ := exists_mark_of_not_covered h.scan_eq hcell hfree
  have hchars := h.characters_mark
  rw [segments_ofCell, bytes_ofCell, hbefore, List.flatMap_singleton] at hchars
  have hfirst := congrArg (·[0]?) hchars
  simpa using hfirst

end

/-! ## A dump by offset -/

/-- Where no pointer is drawn over a byte, its digits stand at the column and its character at the
place that its offset alone gives.  The characters of a drawn pointer are those of one stroke. -/
theorem listing_offsets {layout : Layout} {start : List Char} {a : Allocation} {text : String}
    (hsize : 1 ≤ a.size) (h : (listing layout start a).render = .ok text) :
    ∃ ls, lines layout start a = .ok ls ∧ text = joined ls ∧
      (∀ i cell, a.cells[i]? = some cell → ¬Covered layout a i →
        ∃ line, ls[i / 16]? = some line ∧
          ((cellArea start a.size line).drop (3 * (i % 16))).take 2 = byteColumns cell) ∧
      (characters start a.size ls).length = a.size ∧
      (∀ i cell, a.cells[i]? = some cell → ¬Covered layout a i →
        (characters start a.size ls)[i]? = some (byteChar cell)) ∧
      ∀ i t, Drawn layout a i t →
        ((characters start a.size ls).drop i).take layout.pointerSize.bytes =
          '╾' :: List.replicate (layout.pointerSize.bytes - 2) '─' ++ ['╼'] := by
  obtain ⟨ls, hls, rfl⟩ := render_listing_eq_ok.1 h
  obtain ⟨marks, hwritten⟩ := exists_written hsize hls
  refine ⟨ls, hls, rfl, ?_, ?_, ?_, ?_⟩
  · intro i cell hcell hfree
    exact hwritten.exists_byteColumns hcell hfree
  · rw [hwritten.characters_eq, length_ascii, hwritten.bytes_drawing]
  · intro i cell hcell hfree
    exact hwritten.characters_getElem? hcell hfree
  · intro i t hdrawn
    obtain ⟨-, before, after, rfl, hbefore⟩ := exists_mark_of_drawn hwritten.scan_eq hdrawn
    have hchars := hwritten.characters_mark
    have hcolumn : i % 16 < 16 := Nat.mod_lt i (by decide)
    rw [hbefore, ascii_pointer layout.pointerSize.bytes_bounds.1 hcolumn] at hchars
    exact hchars

theorem relocations_endsBroken : endsBroken.relocations = [(13, ⟨7⟩)] := by decide

theorem drawn_endsBroken : Drawn {} endsBroken 13 ⟨7⟩ := by
  have hmeets : ∀ i ≤ 13, Meets {} endsBroken i := by
    intro i hi
    induction i with
    | zero => exact .start
    | succ i ih =>
      have hsize : i < endsBroken.size := Nat.lt_trans hi (by decide)
      refine (ih (by omega)).byte hsize ?_
      intro t ht
      rw [relocations_endsBroken, List.mem_singleton, Prod.mk.injEq] at ht
      omega
  refine ⟨hmeets 13 (by decide), ?_⟩
  rw [relocations_endsBroken]
  exact List.mem_singleton_self _

theorem not_covered_endsBroken : ¬Covered {} endsBroken 2 := by
  rintro ⟨j, t, ⟨-, hstored⟩, hle, -⟩
  rw [relocations_endsBroken, List.mem_singleton, Prod.mk.injEq] at hstored
  omega

theorem listing_offsets_endsBroken :
    1 ≤ endsBroken.size ∧ ¬Covered {} endsBroken 2 ∧ Drawn {} endsBroken 13 ⟨7⟩ ∧
      ∃ ls, lines {} "> ".toList endsBroken = .ok ls ∧ endsBrokenText = joined ls ∧
        (∃ line, ls[0]? = some line ∧
          ((cellArea "> ".toList 21 line).drop 6).take 2 = ['_', '_']) ∧
        (characters "> ".toList 21 ls).length = 21 ∧
        (characters "> ".toList 21 ls)[2]? = some '░' ∧
        ((characters "> ".toList 21 ls).drop 13).take 8 = "╾──────╼".toList := by
  obtain ⟨ls, hls, htext, hcolumns, hlength, hchars, hpointers⟩ :=
    listing_offsets (by decide) render_endsBroken
  have hfree := not_covered_endsBroken
  have hdrawn := drawn_endsBroken
  exact ⟨by decide, hfree, hdrawn, ls, hls, htext, hcolumns 2 _ rfl hfree, hlength,
    hchars 2 _ rfl hfree, hpointers 13 _ hdrawn⟩

end MirListing.HexDump
