import MirListing.Proofs.Memory.Scan

/-!
# Columns of a dump

Every byte has three columns of the cell area, whatever is drawn there.  `Segment.columns` are the
cells of a segment with the space behind them, so that a segment of `n` bytes has `3 * n` of them
(`Segment.Fits`), and the columns of segments one after another are those of a single ribbon.  A
mark that begins at byte `i` begins at column `3 * i` of the ribbon, whatever stands before it.

`InLines` adds that no segment crosses the end of a line.  The segments of marks are such
(`inLines_segments`), since a pointer that would cross it is drawn in two parts.
-/

namespace MirListing.HexDump

/-! ## Segments of a line -/

/-- The cells of a segment and the space behind them. -/
def Segment.columns (s : Segment) : List Char := s.cells ++ [' ']

/-- A segment has bytes, and three columns for each. -/
structure Segment.Fits (s : Segment) : Prop where
  /-- It has a byte. -/
  pos : 0 < s.bytes
  /-- It has three columns for each byte. -/
  length_columns : s.columns.length = 3 * s.bytes

@[simp] theorem segmentBytes_nil : segmentBytes [] = 0 := rfl

@[simp] theorem segmentBytes_cons (s : Segment) (rest : List Segment) :
    segmentBytes (s :: rest) = s.bytes + segmentBytes rest := rfl

@[simp] theorem segmentBytes_append (segments more : List Segment) :
    segmentBytes (segments ++ more) = segmentBytes segments + segmentBytes more := by
  induction segments with
  | nil => simp
  | cons s rest ih => simp [ih, Nat.add_assoc]

/-- Segments from a byte on fit, and none crosses the end of a line. -/
def InLines (offset : Nat) : List Segment → Prop
  | [] => True
  | s :: rest => s.Fits ∧ offset % lineBytes + s.bytes ≤ lineBytes ∧ InLines (offset + s.bytes) rest

theorem inLines_append {offset : Nat} {segments more : List Segment} :
    InLines offset (segments ++ more) ↔
      InLines offset segments ∧ InLines (offset + segmentBytes segments) more := by
  induction segments generalizing offset with
  | nil => simp [InLines]
  | cons s rest ih =>
    simp only [List.cons_append, InLines, ih, segmentBytes_cons, Nat.add_assoc, and_assoc]

/-- Segments that fit have as many columns and characters as their bytes ask for. -/
theorem length_flatMap {α : Type} {f : Segment → List α} {width : Nat} {segments : List Segment}
    (h : ∀ s ∈ segments, (f s).length = width * s.bytes) :
    (segments.flatMap f).length = width * segmentBytes segments := by
  induction segments with
  | nil => simp
  | cons s rest ih =>
    rw [List.flatMap_cons, List.length_append, h s (List.mem_cons_self ..),
      ih fun s' hs' => h s' (List.mem_cons_of_mem _ hs'), segmentBytes_cons, Nat.mul_add]

theorem InLines.fits {offset : Nat} {segments : List Segment} (h : InLines offset segments) :
    ∀ s ∈ segments, s.Fits := by
  induction segments generalizing offset with
  | nil => simp
  | cons s rest ih =>
    obtain ⟨hfits, -, hrest⟩ := h
    intro s' hs'
    rcases List.mem_cons.1 hs' with rfl | hs'
    · exact hfits
    · exact ih hrest s' hs'

theorem length_ascii (segments : List Segment) :
    (segments.flatMap Segment.ascii).length = segmentBytes segments := by
  have h : ∀ s ∈ segments, s.ascii.length = 1 * s.bytes := fun s _ => (Nat.one_mul _).symm
  rw [length_flatMap h, Nat.one_mul]

/-! ## The segments of a mark -/

/-- A label that is put into a field fits it. -/
theorem length_fitLabel_le (label : List Char) (width bytes : Nat) :
    (fitLabel label width bytes).length ≤ width := by
  unfold fitLabel
  split
  · assumption
  · simp only
    split
    · assumption
    · exact Nat.zero_le _

theorem bytes_wholePointer {bytes : Nat} (h : 2 ≤ bytes) (label : List Char) :
    (wholePointer bytes label).bytes = bytes := by
  simp only [wholePointer, Segment.bytes, List.length_cons, List.length_append,
    List.length_replicate, List.length_nil]
  omega

theorem bytes_pointerHead {bytes : Nat} (h : 1 ≤ bytes) (label : List Char) :
    (pointerHead bytes label).bytes = bytes := by
  simp only [pointerHead, Segment.bytes, List.length_cons, List.length_replicate]
  omega

theorem bytes_pointerTail {bytes : Nat} (h : 1 ≤ bytes) (label : List Char) :
    (pointerTail bytes label).bytes = bytes := by
  simp only [pointerTail, Segment.bytes, List.length_append, List.length_replicate,
    List.length_cons, List.length_nil]
  omega

theorem fits_wholePointer {bytes : Nat} (h : 2 ≤ bytes) (label : List Char) :
    (wholePointer bytes label).Fits := by
  have hlabel := length_fitLabel_le label (3 * (bytes - 1)) bytes
  have hbytes := bytes_wholePointer h label
  refine ⟨by omega, ?_⟩
  rw [hbytes]
  simp only [Segment.columns, wholePointer, List.length_cons, List.length_append,
    Text.length_centre, List.length_nil]
  omega

theorem fits_pointerHead {bytes : Nat} (h : 1 ≤ bytes) {label : List Char}
    (hlabel : label.length ≤ 3 * bytes - 2) : (pointerHead bytes label).Fits := by
  have hbytes := bytes_pointerHead h label
  refine ⟨by omega, ?_⟩
  rw [hbytes]
  simp only [Segment.columns, pointerHead, List.length_cons, List.length_append,
    Text.length_centre, List.length_nil]
  omega

theorem fits_pointerTail {bytes : Nat} (h : 1 ≤ bytes) {label : List Char}
    (hlabel : label.length ≤ 3 * bytes - 2) : (pointerTail bytes label).Fits := by
  have hbytes := bytes_pointerTail h label
  refine ⟨by omega, ?_⟩
  rw [hbytes]
  simp only [Segment.columns, pointerTail, List.length_cons, List.length_append,
    Text.length_centre, List.length_nil]
  omega

/-- A pointer that crosses the end of a line has a part before it and a part behind it, and at most
one of them holds a label. -/
theorem brokenPointer_eq (first second : Nat) (label : List Char) :
    ∃ before behind, brokenPointer first second label =
        [pointerHead first before, pointerTail second behind] ∧
      before.length ≤ 3 * first - 2 ∧ behind.length ≤ 3 * second - 2 := by
  unfold brokenPointer
  simp only
  split
  · rename_i hsecond
    exact ⟨[], label, rfl, Nat.zero_le _, hsecond.2⟩
  · exact ⟨_, [], rfl, length_fitLabel_le _ _ _, Nat.zero_le _⟩

/-- A byte has two hexadecimal digits. -/
theorem hexPadded_byte (value : UInt8) :
    Text.hexPadded 2 value.toNat =
      [Nat.digitChar (value.toNat / 16), Nat.digitChar (value.toNat % 16)] := by
  have hvalue := value.toNat_lt
  unfold Text.hexPadded Text.hexDigits
  by_cases hlow : value.toNat < 16
  · rw [Nat.toDigits_of_lt_base hlow, Nat.div_eq_of_lt hlow, Nat.mod_eq_of_lt hlow]
    rfl
  · have hhigh : value.toNat / 16 < 16 := by omega
    rw [Nat.toDigits_eq_if (by decide), if_neg hlow, Nat.toDigits_of_lt_base hhigh]
    rfl

/-- A mark is drawn within lines, over just its bytes. -/
theorem inLines_mark {pointerBytes : Nat} (hmin : 2 ≤ pointerBytes)
    (hmax : pointerBytes ≤ lineBytes) (offset : Nat) (mark : Mark) :
    InLines offset (mark.segments pointerBytes (offset % lineBytes)) ∧
      segmentBytes (mark.segments pointerBytes (offset % lineBytes)) = mark.bytes pointerBytes := by
  have hcolumn : offset % lineBytes < lineBytes := Nat.mod_lt _ (by decide)
  cases mark with
  | byte value =>
    refine ⟨⟨⟨Nat.one_pos, ?_⟩, hcolumn, trivial⟩, rfl⟩
    rw [Segment.columns, hexPadded_byte]
    rfl
  | hole => exact ⟨⟨⟨Nat.one_pos, rfl⟩, hcolumn, trivial⟩, rfl⟩
  | pointer label =>
    simp only [Mark.segments, Mark.bytes]
    split
    · rename_i hwhole
      have hfits := fits_wholePointer hmin label
      have hbytes := bytes_wholePointer hmin label
      simp only [InLines, segmentBytes_cons, segmentBytes_nil, hbytes]
      exact ⟨⟨hfits, hwhole, trivial⟩, rfl⟩
    · rename_i hbroken
      obtain ⟨before, behind, heq, hbefore, hbehind⟩ :=
        brokenPointer_eq (lineBytes - offset % lineBytes)
          (pointerBytes - (lineBytes - offset % lineBytes)) label
      have hfirst := fits_pointerHead (by omega) hbefore
      have hsecond := fits_pointerTail (by omega) hbehind
      rw [heq]
      simp only [InLines, segmentBytes_cons, segmentBytes_nil]
      rw [bytes_pointerHead (by omega), bytes_pointerTail (by omega)]
      refine ⟨⟨hfirst, by omega, hsecond, ?_, trivial⟩, by omega⟩
      -- the second part begins a line
      have hstart : (offset + (lineBytes - offset % lineBytes)) % lineBytes = 0 := by
        simp only [lineBytes] at hcolumn ⊢
        omega
      rw [hstart]
      omega

theorem segments_append (pointerBytes offset : Nat) (marks more : List Mark) :
    segments pointerBytes offset (marks ++ more) =
      segments pointerBytes offset marks ++
        segments pointerBytes (offset + markBytes pointerBytes marks) more := by
  induction marks generalizing offset with
  | nil => simp [segments]
  | cons mark rest ih =>
    simp only [List.cons_append, segments, ih, markBytes_cons, List.append_assoc, Nat.add_assoc]

/-- Marks are drawn within lines, over just their bytes. -/
theorem inLines_segments {pointerBytes : Nat} (hmin : 2 ≤ pointerBytes)
    (hmax : pointerBytes ≤ lineBytes) (offset : Nat) (marks : List Mark) :
    InLines offset (segments pointerBytes offset marks) ∧
      segmentBytes (segments pointerBytes offset marks) = markBytes pointerBytes marks := by
  induction marks generalizing offset with
  | nil => exact ⟨trivial, rfl⟩
  | cons mark rest ih =>
    obtain ⟨hmark, hbytes⟩ := inLines_mark hmin hmax offset mark
    obtain ⟨hrest, hrestBytes⟩ := ih (offset + mark.bytes pointerBytes)
    rw [segments, inLines_append, hbytes, segmentBytes_append, hbytes, hrestBytes, markBytes_cons]
    exact ⟨⟨hmark, hrest⟩, rfl⟩

end MirListing.HexDump
