import MirListing.Proofs.Listing.Render
import MirListing.Proofs.Memory.Rows

/-!
# Lines of a dump

A dump that succeeds is its lines with a newline behind each (`render_listing_eq_ok`).  Every line
is the given text, the address if there are several lines, a cell area of 47 columns, a column mark
and one character for each byte (`lineText_eq`).  The address is as wide on every line, so cell area
and characters are found on a line by counting: `cellArea` and `asciiColumn` read them off.

Where the text that begins the lines has no newline, none stands inside a line, and the dump cut at
its newlines is just these lines (`listing_lines`).
-/

namespace MirListing.HexDump

/-! ## Rows that are written -/

/-- Lines as a text, with a newline behind each. -/
def joined (ls : List (List Char)) : String := String.ofList (ls.flatMap (· ++ ['\n']))

/-- The segments that marks are drawn with. -/
def drawing (layout : Layout) (marks : List Mark) : List Segment :=
  segments layout.pointerSize.bytes 0 marks

theorem inLines_drawing (layout : Layout) (marks : List Mark) :
    InLines 0 (drawing layout marks) ∧
      segmentBytes (drawing layout marks) = markBytes layout.pointerSize.bytes marks := by
  obtain ⟨hmin, hmax⟩ := layout.pointerSize.bytes_bounds
  exact inLines_segments hmin (Nat.le_trans hmax (by decide)) 0 marks

/-- A dump succeeds if its lines can be drawn, and writes them. -/
theorem render_listing_eq_ok {layout : Layout} {start : List Char} {a : Allocation}
    {text : String} :
    (listing layout start a).render = .ok text ↔
      ∃ ls, lines layout start a = .ok ls ∧ text = joined ls := by
  unfold listing lines joined
  cases hscanned : scannedRows layout a with
  | mk scanned failure? =>
    cases failure? with
    | some failure =>
      simp [Listing.render_append_eq_ok, Listing.render_fail]
    | none =>
      have hlines : (scanned.mapIdx fun line row => lineText start a.size line row ++ ['\n']) =
          (scanned.mapIdx fun line row => lineText start a.size line row).map (· ++ ['\n']) := by
        rw [List.mapIdx_eq_zipIdx_map, List.mapIdx_eq_zipIdx_map, List.map_map]
        rfl
      simp only [Listing.render_text, Except.ok.injEq, exists_eq_left', List.flatMap_def, hlines]
      exact eq_comm

/-- Lines are drawn from the marks of a scan that succeeds. -/
structure Written (layout : Layout) (start : List Char) (a : Allocation) (marks : List Mark)
    (ls : List (List Char)) : Prop where
  /-- The marks are those of all bytes. -/
  scan_eq : scan layout a.size 0 a.cells = (marks, none)
  /-- The lines are those of their rows. -/
  lines_eq : ls = (rows [] (drawing layout marks)).mapIdx fun line row =>
    lineText start a.size line row

/-- The lines of memory that has bytes are drawn from the marks of a scan. -/
theorem exists_written {layout : Layout} {start : List Char} {a : Allocation}
    {ls : List (List Char)} (hsize : 1 ≤ a.size) (h : lines layout start a = .ok ls) :
    ∃ marks, Written layout start a marks ls := by
  unfold lines scannedRows at h
  rw [if_neg (by omega)] at h
  cases hscan : scan layout a.size 0 a.cells with
  | mk marks failure? =>
    simp only [hscan] at h
    cases failure? with
    | some failure => simp at h
    | none =>
      simp only [Except.ok.injEq] at h
      exact ⟨marks, hscan, h.symm⟩

/-- The segments of a dump that succeeds are just as many bytes as there are. -/
theorem Written.bytes_drawing {layout : Layout} {start : List Char} {a : Allocation}
    {marks : List Mark} {ls : List (List Char)} (h : Written layout start a marks ls) :
    segmentBytes (drawing layout marks) = a.size := by
  rw [(inLines_drawing layout marks).2, markBytes_scan h.scan_eq]
  rfl

/-! ## The parts of a line -/

/-- The address of a line: the hexadecimal number of its first byte, as wide as the number of all
bytes, between the base mark and a column mark; nothing if there is one line only. -/
def address (size line : Nat) : List Char :=
  if lineBytes < size then
    ['0', 'x'] ++ (Nat.toDigits 16 (lineBytes * line)).leftpad (Nat.toDigits 16 size).length '0' ++
      [' ', columnMark, ' ']
  else []

/-- The number of columns of an address. -/
def addressWidth (size : Nat) : Nat :=
  if lineBytes < size then (Nat.toDigits 16 size).length + 5 else 0

/-- The cell area of a row, filled up with spaces for missing bytes. -/
def lineArea (row : List Segment) : List Char :=
  rowCells row ++ List.replicate (3 * (lineBytes - (rowAscii row).length)) ' '

theorem lineHead_eq (start : List Char) (size line : Nat) :
    lineHead start size line = start ++ address size line := by
  unfold lineHead address
  by_cases h : size ≤ lineBytes
  · rw [if_pos h, if_neg (Nat.not_lt.2 h), List.append_nil]
  · rw [if_neg h, if_pos (Nat.lt_of_not_le h)]
    simp [Text.hexPadded, Text.hexDigits, List.leftpad]

theorem lineText_eq (start : List Char) (size line : Nat) (row : List Segment) :
    lineText start size line row =
      start ++ address size line ++ lineArea row ++ [' ', columnMark, ' '] ++ rowAscii row := by
  unfold lineText lineTail lineArea
  rw [lineHead_eq]
  simp only [List.append_assoc, List.cons_append, List.nil_append]

/-- A number has no more digits than a greater one. -/
theorem length_toDigits_le {m n : Nat} (h : m ≤ n) :
    (Nat.toDigits 16 m).length ≤ (Nat.toDigits 16 n).length := by
  have hpos : 0 < (Nat.toDigits 16 n).length := Nat.length_toDigits_pos
  have hn := (Nat.length_toDigits_le_iff (n := n) (by decide) hpos).1 (Nat.le_refl _)
  exact (Nat.length_toDigits_le_iff (by decide) hpos).2 (Nat.lt_of_le_of_lt h hn)

theorem length_address {size line : Nat} (h : lineBytes * line ≤ size) :
    (address size line).length = addressWidth size := by
  unfold address addressWidth
  split
  · have hdigits := length_toDigits_le h
    simp only [List.length_append, List.length_leftpad, List.length_cons, List.length_nil]
    omega
  · rfl

theorem rowCells_append_space {row : List Segment} (h : row ≠ []) :
    rowCells row ++ [' '] = row.flatMap Segment.columns := by
  unfold rowCells
  induction row with
  | nil => exact absurd rfl h
  | cons s rest ih =>
    cases rest with
    | nil => simp [Segment.columns]
    | cons s' rest =>
      rw [List.map_cons, List.map_cons, List.intercalate_cons_cons, List.flatMap_cons,
        ← ih (List.cons_ne_nil _ _), List.map_cons]
      simp [Segment.columns]

/-- Behind the columns of its segments the area has only spaces. -/
theorem lineArea_append_space {row : List Segment} (h : row ≠ []) :
    lineArea row ++ [' '] =
      row.flatMap Segment.columns ++ List.replicate (3 * (lineBytes - segmentBytes row)) ' ' := by
  have hascii : (rowAscii row).length = segmentBytes row := length_ascii row
  rw [lineArea, hascii, ← rowCells_append_space h, List.append_assoc, List.append_assoc,
    ← List.replicate_succ', List.singleton_append, List.replicate_succ]

/-! ## Reading a line -/

/-- The cell area of a line. -/
def cellArea (start : List Char) (size : Nat) (line : List Char) : List Char :=
  (line.drop (start.length + addressWidth size)).take 47

/-- The characters of a line. -/
def asciiColumn (start : List Char) (size : Nat) (line : List Char) : List Char :=
  line.drop (start.length + addressWidth size + 47 + 3)

/-- A row of a dump has the bytes of its line. -/
theorem Written.bytes_row {layout : Layout} {start : List Char} {a : Allocation}
    {marks : List Mark} {ls : List (List Char)} (h : Written layout start a marks ls) {k : Nat}
    {row : List Segment} (hrow : (rows [] (drawing layout marks))[k]? = some row) :
    segmentBytes row = min lineBytes (a.size - lineBytes * k) ∧ lineBytes * k < a.size := by
  have hfilling := filling_zero (inLines_drawing layout marks).1
  have hlt := (List.getElem?_eq_some_iff.1 hrow).1
  have hascii : ∀ s ∈ [] ++ drawing layout marks, s.ascii.length = 1 * s.bytes :=
    fun s _ => (Nat.one_mul _).symm
  have hpart := congrArg List.length (flatMap_row hfilling hascii hrow)
  rw [length_ascii, List.length_take, List.length_drop, length_ascii, List.nil_append,
    h.bytes_drawing, Nat.one_mul, Nat.one_mul] at hpart
  rw [length_rows hfilling, List.nil_append, h.bytes_drawing] at hlt
  refine ⟨hpart, ?_⟩
  simp only [lineBytes] at hlt ⊢
  omega

/-- A row of a dump has segments of the dump only. -/
theorem mem_drawing {layout : Layout} {marks : List Mark} {k : Nat} {row : List Segment}
    (hrow : (rows [] (drawing layout marks))[k]? = some row) {s : Segment} (hs : s ∈ row) :
    s ∈ drawing layout marks := by
  have hflatten := flatten_rows [] (drawing layout marks)
  rw [List.nil_append] at hflatten
  rw [← hflatten]
  exact List.mem_flatten.2 ⟨row, List.mem_of_getElem? hrow, hs⟩

/-- The cell area of a row is as wide as that of any other. -/
theorem length_lineArea {layout : Layout} {marks : List Mark} {k : Nat} {row : List Segment}
    (hrow : (rows [] (drawing layout marks))[k]? = some row)
    (hbytes : segmentBytes row ≤ lineBytes) : (lineArea row).length = 47 := by
  have hfits : ∀ s ∈ row, s.columns.length = 3 * s.bytes := fun s hs =>
    ((inLines_drawing layout marks).1.fits s (mem_drawing hrow hs)).length_columns
  have hlength := congrArg List.length
    (lineArea_append_space (ne_nil_of_mem_rows (List.mem_of_getElem? hrow)))
  rw [List.length_append, List.length_append, length_flatMap hfits, List.length_replicate,
    List.length_singleton] at hlength
  simp only [lineBytes] at hlength hbytes
  omega

/-- What a line of a dump is made of. -/
structure LineOf (start : List Char) (size k : Nat) (row : List Segment) (line : List Char) :
    Prop where
  /-- Its address is as wide as any other. -/
  length_address : (address size k).length = addressWidth size
  /-- Its cell area is as wide as any other. -/
  length_area : (lineArea row).length = 47
  /-- It has a character for each of its bytes. -/
  length_ascii : (rowAscii row).length = min lineBytes (size - lineBytes * k)
  /-- Its parts, in order. -/
  eq : line = start ++ address size k ++ lineArea row ++ [' ', columnMark, ' '] ++ rowAscii row

theorem LineOf.cellArea_eq {start line : List Char} {size k : Nat} {row : List Segment}
    (h : LineOf start size k row line) : cellArea start size line = lineArea row := by
  rw [cellArea, h.eq, ← h.length_address, ← List.length_append, List.append_assoc,
    List.append_assoc, List.drop_left, List.take_left' h.length_area]

theorem LineOf.asciiColumn_eq {start line : List Char} {size k : Nat} {row : List Segment}
    (h : LineOf start size k row line) : asciiColumn start size line = rowAscii row := by
  rw [asciiColumn, h.eq]
  apply List.drop_left'
  simp [h.length_address, h.length_area, Nat.add_assoc]

/-- A row of a dump is drawn on the line with its number. -/
theorem Written.exists_line {layout : Layout} {start : List Char} {a : Allocation}
    {marks : List Mark} {ls : List (List Char)} (h : Written layout start a marks ls) {k : Nat}
    {row : List Segment} (hrow : (rows [] (drawing layout marks))[k]? = some row) :
    ∃ line, ls[k]? = some line ∧ LineOf start a.size k row line := by
  obtain ⟨hbytes, hlt⟩ := h.bytes_row hrow
  refine ⟨lineText start a.size k row, ?_, length_address (Nat.le_of_lt hlt),
    length_lineArea hrow ?_, ?_, lineText_eq _ _ _ _⟩
  · rw [h.lines_eq, List.getElem?_mapIdx, hrow, Option.map_some]
  · rw [hbytes]
    exact Nat.min_le_left _ _
  · rw [← hbytes]
    exact length_ascii row

/-- Every line of a dump is that of the row with its number. -/
theorem Written.exists_row {layout : Layout} {start : List Char} {a : Allocation}
    {marks : List Mark} {ls : List (List Char)} (h : Written layout start a marks ls) {k : Nat}
    {line : List Char} (hline : ls[k]? = some line) :
    ∃ row, (rows [] (drawing layout marks))[k]? = some row ∧ LineOf start a.size k row line := by
  have hrow := hline
  rw [h.lines_eq, List.getElem?_mapIdx, Option.map_eq_some_iff] at hrow
  obtain ⟨row, hrow, -⟩ := hrow
  obtain ⟨line', hline', hof⟩ := h.exists_line hrow
  obtain rfl : line = line' := Option.some.inj (hline.symm.trans hline')
  exact ⟨row, hrow, hof⟩

/-! ## Newlines -/

theorem newline_notMem_toDigits {b : Nat} (hb : 1 < b) (n : Nat) :
    '\n' ∉ Nat.toDigits b n := by
  induction n using Nat.strongRecOn with
  | ind n ih =>
    rw [Nat.toDigits_eq_if hb]
    split
    · simp
    · rename_i hle
      have := ih (n / b) (Nat.div_lt_self (by omega) hb)
      simp [this]

theorem newline_notMem_pointerLabel (layout : Layout) (t : AllocId) (bytes : List UInt8) :
    '\n' ∉ pointerLabel layout t bytes := by
  have hdigits : ∀ n, '\n' ∉ Nat.toDigits 10 n := newline_notMem_toDigits (by decide)
  have hindex : '\n' ∉ (Text.decimal t.index).toList := by
    cases t.index with
    | ofNat n => simp [Text.decimal, hdigits]
    | negSucc n => simp [Text.decimal, hdigits]
  simp [pointerLabel, AllocId.text, hindex, hdigits]

theorem newline_notMem_centre {c : Char} (hc : '\n' ≠ c) {label : List Char} (h : '\n' ∉ label)
    (width : Nat) : '\n' ∉ Text.centre c width label := by
  simp [Text.centre, h, hc]

theorem newline_notMem_fitLabel {label : List Char} (h : '\n' ∉ label) (width bytes : Nat) :
    '\n' ∉ fitLabel label width bytes := by
  have hdigits : '\n' ∉ Nat.toDigits 10 bytes := newline_notMem_toDigits (by decide) bytes
  unfold fitLabel
  split
  · exact h
  · simp only
    split
    · simp [hdigits]
    · simp

theorem asciiChar_ne_newline (value : UInt8) : asciiChar value ≠ '\n' := by
  have h : ∀ n < 256, (if n < 0x20 || 0x7f ≤ n then '.' else Char.ofNat n) ≠ '\n' := by
    decide +kernel
  exact h value.toNat value.toNat_lt

/-- No newline is drawn for a mark. -/
theorem newline_notMem_mark {pointerBytes column : Nat} {mark : Mark}
    (h : ∀ label, mark = .pointer label → '\n' ∉ label) {s : Segment}
    (hs : s ∈ mark.segments pointerBytes column) : '\n' ∉ s.cells ∧ '\n' ∉ s.ascii := by
  have hstart : '\n' ≠ pointerStart := by decide
  have hstop : '\n' ≠ pointerStop := by decide
  have hfill : '\n' ≠ fill := by decide
  cases mark with
  | byte value =>
    obtain rfl : s = _ := List.mem_singleton.1 hs
    have hdigits : '\n' ∉ Text.hexDigits value.toNat := newline_notMem_toDigits (by decide) _
    simp [Text.hexPadded, hdigits, (asciiChar_ne_newline value).symm]
  | hole =>
    obtain rfl : s = _ := List.mem_singleton.1 hs
    simp [undefinedMark]
  | pointer label =>
    have hlabel := h label rfl
    have hempty : '\n' ∉ ([] : List Char) := List.not_mem_nil
    have hfit : ∀ width bytes, '\n' ∉ fitLabel label width bytes :=
      newline_notMem_fitLabel hlabel
    simp only [Mark.segments, brokenPointer] at hs
    split at hs
    · obtain rfl : s = _ := List.mem_singleton.1 hs
      have hcentre := newline_notMem_centre hfill (hfit (3 * (pointerBytes - 1)) pointerBytes)
      simp [wholePointer, hstart, hstop, hfill, hcentre]
    · split at hs
      · simp only [List.mem_cons, List.not_mem_nil, or_false] at hs
        rcases hs with rfl | rfl
        · simp [pointerHead, hstart, hfill, newline_notMem_centre hfill hempty]
        · simp [pointerTail, hstop, hfill, newline_notMem_centre hfill hlabel]
      · simp only [List.mem_cons, List.not_mem_nil, or_false] at hs
        rcases hs with rfl | rfl
        · simp [pointerHead, hstart, hfill, newline_notMem_centre hfill (hfit _ _)]
        · simp [pointerTail, hstop, hfill, newline_notMem_centre hfill hempty]

/-- The pointers of a scan that succeeds have labels that are made from a target and bytes. -/
theorem eq_pointerLabel_of_mem_scan {layout : Layout} {size offset : Nat} {cells : List Cell}
    {marks : List Mark} (h : scan layout size offset cells = (marks, none)) {label : List Char}
    (hlabel : Mark.pointer label ∈ marks) : ∃ t bytes, label = pointerLabel layout t bytes := by
  induction marks generalizing offset cells with
  | nil => simp at hlabel
  | cons mark marks ih =>
    cases cells with
    | nil => simp at h
    | cons cell rest =>
      obtain ⟨after, hmarks, -, hafter⟩ := scan_cons h
      obtain ⟨rfl, rfl⟩ := List.cons.inj hmarks
      rcases List.mem_cons.1 hlabel with hfirst | hlabel
      · cases htarget : cell.target? with
        | none =>
          simp only [markOf, htarget, Mark.ofCell] at hfirst
          split at hfirst <;> simp at hfirst
        | some t =>
          simp only [markOf, htarget, Mark.pointer.injEq] at hfirst
          exact ⟨t, _, hfirst⟩
      · exact ih hafter hlabel

theorem newline_notMem_segments {pointerBytes offset : Nat} {marks : List Mark}
    (h : ∀ label, Mark.pointer label ∈ marks → '\n' ∉ label) {s : Segment}
    (hs : s ∈ segments pointerBytes offset marks) : '\n' ∉ s.cells ∧ '\n' ∉ s.ascii := by
  induction marks generalizing offset with
  | nil => simp [segments] at hs
  | cons mark rest ih =>
    rw [segments] at hs
    rcases List.mem_append.1 hs with hs | hs
    · exact newline_notMem_mark (fun label hmark => h label (by simp [hmark])) hs
    · exact ih (fun label hlabel => h label (List.mem_cons_of_mem _ hlabel)) hs

theorem newline_notMem_address (size line : Nat) : '\n' ∉ address size line := by
  have hdigits : '\n' ∉ Nat.toDigits 16 (lineBytes * line) :=
    newline_notMem_toDigits (by decide) _
  unfold address
  split
  · simp [List.leftpad, hdigits, columnMark]
  · simp

theorem newline_notMem_rowCells {row : List Segment} (h : ∀ s ∈ row, '\n' ∉ s.cells) :
    '\n' ∉ rowCells row := by
  by_cases hempty : row = []
  · subst hempty
    simp [rowCells]
  · intro hmem
    have hcolumns : '\n' ∈ row.flatMap Segment.columns := by
      rw [← rowCells_append_space hempty]
      exact List.mem_append_left _ hmem
    obtain ⟨s, hs, hmem⟩ := List.mem_flatMap.1 hcolumns
    rcases List.mem_append.1 hmem with hmem | hmem
    · exact h s hs hmem
    · simp at hmem

/-- Only the text that begins a line can hold a newline. -/
theorem LineOf.newline_notMem {start line : List Char} {size k : Nat} {row : List Segment}
    (h : LineOf start size k row line) (hstart : '\n' ∉ start)
    (hrow : ∀ s ∈ row, '\n' ∉ s.cells ∧ '\n' ∉ s.ascii) : '\n' ∉ line := by
  have haddress := newline_notMem_address size k
  have hcells := newline_notMem_rowCells fun s hs => (hrow s hs).1
  have hascii : '\n' ∉ rowAscii row := by
    intro hmem
    obtain ⟨s, hs, hmem⟩ := List.mem_flatMap.1 hmem
    exact (hrow s hs).2 hmem
  rw [h.eq]
  simp [lineArea, columnMark, hstart, haddress, hcells, hascii]

/-- No line of a dump has a newline inside. -/
theorem Written.newline_notMem {layout : Layout} {start : List Char} {a : Allocation}
    {marks : List Mark} {ls : List (List Char)} (h : Written layout start a marks ls)
    (hstart : '\n' ∉ start) : ∀ line ∈ ls, '\n' ∉ line := by
  intro line hmem
  obtain ⟨k, hline⟩ := List.mem_iff_getElem?.1 hmem
  obtain ⟨row, hrow, hof⟩ := h.exists_row hline
  apply hof.newline_notMem hstart
  intro s hs
  apply newline_notMem_segments _ (mem_drawing hrow hs)
  intro label hlabel
  obtain ⟨t, bytes, rfl⟩ := eq_pointerLabel_of_mem_scan h.scan_eq hlabel
  exact newline_notMem_pointerLabel layout t bytes

/-- Lines without newlines are found again by cutting at the newlines. -/
theorem splitOn_joined {ls : List (List Char)} (h : ∀ line ∈ ls, '\n' ∉ line) :
    (joined ls).toList.splitOn '\n' = ls ++ [[]] := by
  rw [joined, String.toList_ofList]
  induction ls with
  | nil => rfl
  | cons line rest ih =>
    rw [List.flatMap_cons, List.append_assoc, List.singleton_append,
      List.splitOn_append_cons_self_of_not_mem (h line (List.mem_cons_self ..)),
      ih fun l hl => h l (List.mem_cons_of_mem _ hl), List.cons_append]

/-! ## The lines of a dump -/

/-- A dump that succeeds has a line for every sixteen bytes begun, and nothing behind the last.
Each line has an address if there are several of them, a cell area of 47 columns and a character for
every byte. -/
theorem listing_lines {layout : Layout} {start : List Char} {a : Allocation} {text : String}
    (hsize : 1 ≤ a.size) (hstart : '\n' ∉ start) (h : (listing layout start a).render = .ok text) :
    ∃ ls, lines layout start a = .ok ls ∧ text = joined ls ∧
      text.toList.splitOn '\n' = ls ++ [[]] ∧ ls.length = (a.size + 15) / 16 ∧
      ∀ k line, ls[k]? = some line → ∃ cells ascii,
        line = start ++ address a.size k ++ cells ++ [' ', '│', ' '] ++ ascii ∧
        cells.length = 47 ∧ ascii.length = min 16 (a.size - 16 * k) := by
  obtain ⟨ls, hls, rfl⟩ := render_listing_eq_ok.1 h
  obtain ⟨marks, hwritten⟩ := exists_written hsize hls
  refine ⟨ls, hls, rfl, splitOn_joined (hwritten.newline_notMem hstart), ?_, ?_⟩
  · rw [hwritten.lines_eq, List.length_mapIdx,
      length_rows (filling_zero (inLines_drawing layout marks).1), List.nil_append,
      hwritten.bytes_drawing]
    rfl
  · intro k line hline
    obtain ⟨row, -, hof⟩ := hwritten.exists_row hline
    exact ⟨lineArea row, rowAscii row, hof.eq, hof.length_area, hof.length_ascii⟩

/-- Bytes, an undefined one, and behind them a pointer that crosses the end of the line. -/
def endsBroken : Allocation where
  cells := [{ byte := 0x68 }, { byte := 0x0a }, { byte := 0, isDefined := false }] ++
    List.replicate 10 { byte := 0x2e } ++
    { byte := 4, target? := some ⟨7⟩ } :: List.replicate 7 { byte := 0 }

/-- The dump of `endsBroken`. -/
def endsBrokenText : String :=
  "> 0x00 │ 68 0a __ 2e 2e 2e 2e 2e 2e 2e 2e 2e 2e ╾─────── │ h.░..........╾──\n" ++
  "> 0x10 │ ──alloc7+4───╼                                  │ ────╼\n"

theorem render_endsBroken :
    (listing {} "> ".toList endsBroken).render = .ok endsBrokenText :=
  Listing.render_eq_ok.2 (by decide +kernel)

theorem listing_lines_endsBroken :
    1 ≤ endsBroken.size ∧ '\n' ∉ "> ".toList ∧
      ∃ ls, lines {} "> ".toList endsBroken = .ok ls ∧ endsBrokenText = joined ls ∧
        endsBrokenText.toList.splitOn '\n' = ls ++ [[]] ∧ ls.length = 2 ∧
        ∀ k line, ls[k]? = some line → ∃ cells ascii,
          line = "> ".toList ++ address 21 k ++ cells ++ [' ', '│', ' '] ++ ascii ∧
          cells.length = 47 ∧ ascii.length = min 16 (21 - 16 * k) :=
  ⟨by decide, by decide, listing_lines (by decide) (by decide) render_endsBroken⟩

end MirListing.HexDump
