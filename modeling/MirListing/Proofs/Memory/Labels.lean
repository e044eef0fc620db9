import Mathlib.Algebra.Group.Nat.Defs
import MirListing.Proofs.Memory.Offsets

/-!
# Labels of drawn pointers

The label of a drawn pointer is its target and the number that its bytes hold (`Holds`).  It stands
in the middle of its field, whole or not at all.  Within a line there is one field (`Shows`).  Where
a line ends inside the pointer there are two, and the label stands in the second only if that is the
wider one (`ShowsBroken`); so it is seen just when the wider of the two holds it.

`inField_centre` places a text in its field.  `infix_iff` of either structure rests on the label
having a character that is not of the filling, its first: a field of filling alone never shows it.
-/

namespace MirListing.HexDump

/-! ## The number that a pointer holds -/

theorem littleValue_lt (bytes : List UInt8) : Endian.littleValue bytes < 256 ^ bytes.length := by
  induction bytes with
  | nil => simp [Endian.littleValue]
  | cons byte rest ih =>
    have := byte.toNat_lt
    simp only [Endian.littleValue, List.length_cons, Nat.pow_succ]
    omega

/-- A number of `n` bytes is below `256 ^ n`. -/
theorem unsigned_lt (e : Endian) (bytes : List UInt8) : e.unsigned bytes < 256 ^ bytes.length := by
  cases e with
  | little => exact littleValue_lt bytes
  | big => simpa [Endian.unsigned] using littleValue_lt bytes.reverse

/-- The digit to the base 256 with a given weight is a byte. -/
theorem littleValue_digit {bytes : List UInt8} {j : Nat} {byte : UInt8}
    (h : bytes[j]? = some byte) : Endian.littleValue bytes / 256 ^ j % 256 = byte.toNat := by
  induction bytes generalizing j with
  | nil => simp at h
  | cons first rest ih =>
    have hfirst := first.toNat_lt
    cases j with
    | zero =>
      obtain rfl : first = byte := by simpa using h
      rw [Endian.littleValue, Nat.pow_zero, Nat.div_one]
      omega
    | succ j =>
      have hshift : Endian.littleValue (first :: rest) / 256 = Endian.littleValue rest := by
        rw [Endian.littleValue]
        omega
      rw [Nat.pow_succ, Nat.mul_comm, ← Nat.div_div_eq_div_mul, hshift]
      exact ih (by simpa using h)

/-- Which of `n` bytes has the weight `256 ^ j`. -/
def digitIndex (n j : Nat) : Endian → Nat
  | .little => j
  | .big => n - 1 - j

theorem digitIndex_lt {n j : Nat} (h : j < n) (e : Endian) : digitIndex n j e < n := by
  cases e with
  | little => exact h
  | big =>
    rw [digitIndex]
    omega

theorem unsigned_digit {e : Endian} {bytes : List UInt8} {j : Nat} {byte : UInt8}
    (hj : j < bytes.length) (h : bytes[digitIndex bytes.length j e]? = some byte) :
    e.unsigned bytes / 256 ^ j % 256 = byte.toNat := by
  cases e with
  | little => exact littleValue_digit h
  | big =>
    apply littleValue_digit
    rw [List.getElem?_reverse hj]
    exact h

/-- The bytes of a pointer from an offset on are the digits of a number to the base 256. -/
def Holds (layout : Layout) (a : Allocation) (i v : Nat) : Prop :=
  v < 256 ^ layout.pointerSize.bytes ∧
    ∀ j < layout.pointerSize.bytes, ∃ cell,
      a.cells[i + digitIndex layout.pointerSize.bytes j layout.endian]? = some cell ∧
        v / 256 ^ j % 256 = cell.byte.toNat

/-- The bytes of a pointer. -/
def storedBytes (layout : Layout) (a : Allocation) (i : Nat) : List UInt8 :=
  ((a.cells.drop i).take layout.pointerSize.bytes).map Cell.byte

/-- The number that is read from the bytes of a pointer is the one they hold. -/
theorem holds_unsigned {layout : Layout} {a : Allocation} {i : Nat}
    (hend : i + layout.pointerSize.bytes ≤ a.size) :
    Holds layout a i (layout.endian.unsigned (storedBytes layout a i)) := by
  have hlength : (storedBytes layout a i).length = layout.pointerSize.bytes := by
    rw [storedBytes, List.length_map, List.length_take, List.length_drop]
    simp only [Allocation.size] at hend
    omega
  have hbound := unsigned_lt layout.endian (storedBytes layout a i)
  rw [hlength] at hbound
  refine ⟨hbound, ?_⟩
  intro j hj
  have hindex := digitIndex_lt hj layout.endian
  have hlt : i + digitIndex layout.pointerSize.bytes j layout.endian < a.cells.length := by
    simp only [Allocation.size] at hend
    omega
  have hcell := List.getElem?_eq_getElem hlt
  refine ⟨_, hcell, ?_⟩
  apply unsigned_digit
  · rw [hlength]
    exact hj
  · rw [hlength, storedBytes, List.getElem?_map, List.getElem?_take, if_pos hindex,
      List.getElem?_drop, hcell, Option.map_some]

/-! ## Texts in fields -/

/-- A text in the middle of a field that is filled up on both sides, the smaller half of the filling
on the left. -/
def InField (width : Nat) (text field : List Char) : Prop :=
  ∃ left right, field = List.replicate left '─' ++ text ++ List.replicate right '─' ∧
    field.length = width ∧ left ≤ right ∧ right ≤ left + 1

theorem inField_centre {width : Nat} {text : List Char} (h : text.length ≤ width) :
    InField width text (Text.centre fill width text) := by
  refine ⟨_, _, rfl, ?_, ?_, ?_⟩
  · rw [Text.length_centre]
    omega
  · omega
  · omega

theorem InField.shown {width : Nat} {text field : List Char} (h : InField width text field) :
    text <:+: field := by
  obtain ⟨left, right, rfl, -, -, -⟩ := h
  exact List.infix_append _ _ _

/-- A field shows nothing that is longer than it. -/
theorem InField.length_le {width : Nat} {text field label : List Char}
    (h : InField width text field) (hlabel : label <:+: field) : label.length ≤ width := by
  obtain ⟨-, -, -, hlength, -, -⟩ := h
  rw [← hlength]
  exact hlabel.length_le

/-- A field of filling alone shows nothing that has another character. -/
theorem InField.not_shown {width : Nat} {label field : List Char} {c : Char}
    (h : InField width [] field) (hc : c ∈ label) (hfill : c ≠ '─') : ¬label <:+: field := by
  intro hlabel
  obtain ⟨left, right, rfl, -, -, -⟩ := h
  have hmem := hlabel.subset hc
  rw [List.append_nil, List.replicate_append_replicate] at hmem
  exact hfill (List.eq_of_mem_replicate hmem)

/-- The number of bytes of a pointer, as it stands in place of a label. -/
def byteCount (bytes : Nat) : List Char :=
  "(".toList ++ bytes.repr.toList ++ " ptr bytes)".toList

theorem fitLabel_of_le {label : List Char} {width bytes : Nat} (h : label.length ≤ width) :
    fitLabel label width bytes = label := by
  rw [fitLabel, if_pos h]

theorem fitLabel_of_lt {label : List Char} {width bytes : Nat} (h : width < label.length) :
    fitLabel label width bytes =
      if (byteCount bytes).length ≤ width then byteCount bytes else [] := by
  rw [fitLabel, if_neg (Nat.not_le_of_lt h)]
  rfl

/-- What the field of a pointer shows of its label: the whole, or the number of bytes in its place,
or nothing. -/
structure Shows (bytes width : Nat) (label field : List Char) : Prop where
  /-- A label that fits stands in the field. -/
  label_of_le : label.length ≤ width → InField width label field
  /-- In place of one that does not, the number of bytes stands there if it fits. -/
  count_of_lt : width < label.length → (byteCount bytes).length ≤ width →
    InField width (byteCount bytes) field
  /-- Otherwise the field has nothing but filling. -/
  nil_of_lt : width < label.length → width < (byteCount bytes).length → InField width [] field
  /-- The whole label is seen just when it fits. -/
  infix_iff : label <:+: field ↔ label.length ≤ width

theorem shows_fitLabel (bytes width : Nat) (label : List Char) :
    Shows bytes width label (Text.centre fill width (fitLabel label width bytes)) where
  label_of_le hle := by
    rw [fitLabel_of_le hle]
    exact inField_centre hle
  count_of_lt hlt hcount := by
    rw [fitLabel_of_lt hlt, if_pos hcount]
    exact inField_centre hcount
  nil_of_lt hlt hcount := by
    rw [fitLabel_of_lt hlt, if_neg (Nat.not_le_of_lt hcount)]
    exact inField_centre (Nat.zero_le _)
  infix_iff := by
    constructor
    · exact (inField_centre (length_fitLabel_le label width bytes)).length_le
    · intro hle
      rw [fitLabel_of_le hle]
      exact (inField_centre hle).shown

/-- What the two fields of a pointer show where a line ends inside it. -/
structure ShowsBroken (bytes firstWidth secondWidth : Nat) (label first second : List Char) :
    Prop where
  /-- A label stands in the second field if that is the wider one and holds it. -/
  second_of_lt : firstWidth < secondWidth → label.length ≤ secondWidth →
    InField firstWidth [] first ∧ InField secondWidth label second
  /-- It stands in the first field if that is no narrower and holds it. -/
  first_of_le : secondWidth ≤ firstWidth → label.length ≤ firstWidth →
    InField firstWidth label first ∧ InField secondWidth [] second
  /-- In place of one that neither holds, the number of bytes stands in the first if it fits. -/
  count_of_lt : max firstWidth secondWidth < label.length →
    (byteCount bytes).length ≤ firstWidth →
      InField firstWidth (byteCount bytes) first ∧ InField secondWidth [] second
  /-- Otherwise the fields have nothing but filling. -/
  nil_of_lt : max firstWidth secondWidth < label.length →
    firstWidth < (byteCount bytes).length →
      InField firstWidth [] first ∧ InField secondWidth [] second
  /-- The whole label is seen just when the wider field holds it. -/
  infix_iff : label <:+: first ∨ label <:+: second ↔ label.length ≤ max firstWidth secondWidth
  /-- It is seen in the second only if that is the wider one. -/
  infix_second_iff : label <:+: second ↔
    label.length ≤ max firstWidth secondWidth ∧ firstWidth < secondWidth

theorem inField_nil (width : Nat) : InField width [] (Text.centre fill width []) :=
  inField_centre (Nat.zero_le width)

/-- A label that only the wider second field is to hold. -/
theorem showsBroken_second {bytes firstWidth secondWidth : Nat} {label : List Char}
    (hlt : firstWidth < secondWidth) (hle : label.length ≤ secondWidth) :
    ShowsBroken bytes firstWidth secondWidth label (Text.centre fill firstWidth [])
      (Text.centre fill secondWidth label) where
  second_of_lt _ _ := ⟨inField_nil _, inField_centre hle⟩
  first_of_le hnarrow := by omega
  count_of_lt hlong := by omega
  nil_of_lt hlong := by omega
  infix_iff := by
    constructor
    · intro _
      omega
    · intro _
      exact .inr (inField_centre hle).shown
  infix_second_iff := by
    constructor
    · intro _
      omega
    · intro _
      exact (inField_centre hle).shown

/-- Any other label is left to the first field.  The second has none of its characters, as long as
one of them is not of the filling. -/
theorem showsBroken_first {bytes firstWidth secondWidth : Nat} {label : List Char} {c : Char}
    (hc : c ∈ label) (hfill : c ≠ '─')
    (hsecond : ¬(firstWidth < secondWidth ∧ label.length ≤ secondWidth)) :
    ShowsBroken bytes firstWidth secondWidth label
      (Text.centre fill firstWidth (fitLabel label firstWidth bytes))
      (Text.centre fill secondWidth []) := by
  have hshows := shows_fitLabel bytes firstWidth label
  have hnone := (inField_nil secondWidth).not_shown hc hfill
  refine ⟨?_, ?_, ?_, ?_, ?_, ?_⟩
  · intro hlt hle
    exact absurd ⟨hlt, hle⟩ hsecond
  · intro _ hle
    exact ⟨hshows.label_of_le hle, inField_nil _⟩
  · intro hlong hcount
    exact ⟨hshows.count_of_lt (by omega) hcount, inField_nil _⟩
  · intro hlong hcount
    exact ⟨hshows.nil_of_lt (by omega) hcount, inField_nil _⟩
  · rw [hshows.infix_iff, or_iff_left hnone]
    omega
  · constructor
    · intro hseen
      exact absurd hseen hnone
    · rintro ⟨hle, hlt⟩
      omega

/-- The parts of a pointer have fields that show its label. -/
theorem exists_showsBroken (first second : Nat) {label : List Char} {c : Char} (hc : c ∈ label)
    (hfill : c ≠ '─') :
    ∃ before behind, brokenPointer first second label =
        [pointerHead first before, pointerTail second behind] ∧
      ShowsBroken (first + second) (3 * first - 2) (3 * second - 2) label
        (Text.centre fill (3 * first - 2) before) (Text.centre fill (3 * second - 2) behind) := by
  unfold brokenPointer
  by_cases hsecond : 3 * first - 2 < 3 * second - 2 ∧ label.length ≤ 3 * second - 2
  · exact ⟨[], label, if_pos hsecond, showsBroken_second hsecond.1 hsecond.2⟩
  · exact ⟨_, [], if_neg hsecond, showsBroken_first hc hfill hsecond⟩

/-! ## The fields of a drawn pointer -/

/-- The label of a pointer is its target and the number that its bytes hold. -/
theorem labelAt_eq (layout : Layout) (a : Allocation) (i : Nat) (t : AllocId) :
    labelAt layout a i t =
      (t.text ++ "+" ++ (layout.endian.unsigned (storedBytes layout a i)).repr).toList := by
  simp [labelAt, pointerLabel, storedBytes]

theorem mem_labelAt (layout : Layout) (a : Allocation) (i : Nat) (t : AllocId) :
    'a' ∈ labelAt layout a i t := by
  simp [labelAt, pointerLabel, AllocId.text]

section

variable {layout : Layout} {start : List Char} {a : Allocation} {marks : List Mark}
  {ls : List (List Char)}

/-- The columns of a pointer within a line. -/
theorem Written.exists_field (h : Written layout start a marks ls) {i : Nat} {t : AllocId}
    (hdrawn : Drawn layout a i t) (hwhole : i % 16 + layout.pointerSize.bytes ≤ 16) :
    ∃ line field, ls[i / 16]? = some line ∧
      ((cellArea start a.size line).drop (3 * (i % 16))).take (3 * layout.pointerSize.bytes - 1) =
        '╾' :: field ++ ['╼'] ∧
      Shows layout.pointerSize.bytes (3 * (layout.pointerSize.bytes - 1)) (labelAt layout a i t)
        field := by
  obtain ⟨-, before, after, rfl, hbefore⟩ := exists_mark_of_drawn h.scan_eq hdrawn
  have hdrawing := drawing_append layout before (.pointer (labelAt layout a i t)) after
  rw [hbefore, segments_pointer_of_le hwhole, List.singleton_append] at hdrawing
  obtain ⟨line, hline, hcells⟩ := h.exists_cells hdrawing
  rw [(inLines_drawing layout before).2, hbefore] at hline hcells
  rw [bytes_wholePointer layout.pointerSize.bytes_bounds.1] at hcells
  exact ⟨line, _, hline, hcells, shows_fitLabel _ _ _⟩

/-- The columns of a pointer that a line ends in, at the end of that line and at the beginning of
the next. -/
theorem Written.exists_fields (h : Written layout start a marks ls) {i : Nat} {t : AllocId}
    (hdrawn : Drawn layout a i t) (hbroken : 16 < i % 16 + layout.pointerSize.bytes) :
    ∃ line next first second, ls[i / 16]? = some line ∧ ls[i / 16 + 1]? = some next ∧
      (cellArea start a.size line).drop (3 * (i % 16)) = '╾' :: first ∧
      (cellArea start a.size next).take (3 * (layout.pointerSize.bytes - (16 - i % 16)) - 1) =
        second ++ ['╼'] ∧
      ShowsBroken layout.pointerSize.bytes (3 * (16 - i % 16) - 2)
        (3 * (layout.pointerSize.bytes - (16 - i % 16)) - 2) (labelAt layout a i t) first
        second := by
  obtain ⟨-, before, after, rfl, hbefore⟩ := exists_mark_of_drawn h.scan_eq hdrawn
  have hmax := layout.pointerSize.bytes_bounds.2
  have hcolumn : i % 16 < 16 := Nat.mod_lt _ (by decide)
  generalize hfirst : 16 - i % 16 = first
  generalize hsecond : layout.pointerSize.bytes - first = second
  have hsum : first + second = layout.pointerSize.bytes := by omega
  obtain ⟨headText, tailText, hparts, hshows⟩ :=
    exists_showsBroken first second (mem_labelAt layout a i t) (by decide)
  have hdrawing := drawing_append layout before (.pointer (labelAt layout a i t)) after
  rw [hbefore, segments_pointer_of_lt hbroken, hfirst, hsecond, hparts] at hdrawing
  simp only [List.cons_append, List.nil_append] at hdrawing
  -- the first part stands behind the marks before the pointer, the second behind the first
  obtain ⟨line, hline, hhead⟩ := h.exists_cells hdrawing
  obtain ⟨next, hnext, htail⟩ := h.exists_cells (hdrawing.trans (List.append_cons ..))
  have hstart : (i + first) / 16 = i / 16 + 1 ∧ (i + first) % 16 = 0 := by omega
  rw [(inLines_drawing layout before).2, hbefore] at hline hhead
  rw [segmentBytes_append, (inLines_drawing layout before).2, hbefore, segmentBytes_cons,
    segmentBytes_nil, Nat.add_zero, bytes_pointerHead (by omega)] at hnext htail
  rw [hstart.1] at hnext
  rw [bytes_pointerHead (by omega)] at hhead
  rw [bytes_pointerTail (by omega), hstart.2, Nat.mul_zero, List.drop_zero] at htail
  -- the area ends with the first part
  have hend : ((cellArea start a.size line).drop (3 * (i % 16))).length ≤ 3 * first - 1 := by
    rw [List.length_drop, cellArea, List.length_take]
    omega
  rw [List.take_of_length_le hend] at hhead
  rw [hsum] at hshows
  exact ⟨line, next, _, _, hline, hnext, hhead, htail, hshows⟩

end

/-- A drawn pointer is labelled with its target and the number that its bytes hold, between its two
ends. -/
theorem listing_labels {layout : Layout} {start : List Char} {a : Allocation} {text : String}
    {i : Nat} {t : AllocId} (h : (listing layout start a).render = .ok text)
    (hdrawn : Drawn layout a i t) :
    ∃ ls v, lines layout start a = .ok ls ∧ text = joined ls ∧ Holds layout a i v ∧
      (i % 16 + layout.pointerSize.bytes ≤ 16 → ∃ line field,
        ls[i / 16]? = some line ∧
        ((cellArea start a.size line).drop (3 * (i % 16))).take
          (3 * layout.pointerSize.bytes - 1) = '╾' :: field ++ ['╼'] ∧
        Shows layout.pointerSize.bytes (3 * (layout.pointerSize.bytes - 1))
          (t.text ++ "+" ++ v.repr).toList field) ∧
      (16 < i % 16 + layout.pointerSize.bytes → ∃ line next first second,
        ls[i / 16]? = some line ∧ ls[i / 16 + 1]? = some next ∧
        (cellArea start a.size line).drop (3 * (i % 16)) = '╾' :: first ∧
        (cellArea start a.size next).take (3 * (layout.pointerSize.bytes - (16 - i % 16)) - 1) =
          second ++ ['╼'] ∧
        ShowsBroken layout.pointerSize.bytes (3 * (16 - i % 16) - 2)
          (3 * (layout.pointerSize.bytes - (16 - i % 16)) - 2)
          (t.text ++ "+" ++ v.repr).toList first second) := by
  obtain ⟨ls, hls, rfl⟩ := render_listing_eq_ok.1 h
  have hsize : 1 ≤ a.size := Nat.lt_of_le_of_lt (Nat.zero_le i)
    (Allocation.lt_size_of_mem_relocations hdrawn.2)
  obtain ⟨marks, hwritten⟩ := exists_written hsize hls
  have hend := (exists_mark_of_drawn hwritten.scan_eq hdrawn).1
  refine ⟨ls, layout.endian.unsigned (storedBytes layout a i), hls, rfl, holds_unsigned hend,
    ?_, ?_⟩
  · intro hwhole
    rw [← labelAt_eq]
    exact hwritten.exists_field hdrawn hwhole
  · intro hbroken
    rw [← labelAt_eq]
    exact hwritten.exists_fields hdrawn hbroken

theorem listing_labels_endsBroken :
    (listing {} "> ".toList endsBroken).render = .ok endsBrokenText ∧
      Drawn {} endsBroken 13 ⟨7⟩ ∧
      ∃ ls v line next first second, lines {} "> ".toList endsBroken = .ok ls ∧
        endsBrokenText = joined ls ∧ Holds {} endsBroken 13 v ∧
        ls[0]? = some line ∧ ls[1]? = some next ∧
        (cellArea "> ".toList 21 line).drop 39 = '╾' :: first ∧
        (cellArea "> ".toList 21 next).take 14 = second ++ ['╼'] ∧
        ShowsBroken 8 7 13 ((AllocId.mk 7).text ++ "+" ++ v.repr).toList first second := by
  obtain ⟨ls, v, hls, htext, hholds, -, hbroken⟩ :=
    listing_labels render_endsBroken drawn_endsBroken
  obtain ⟨line, next, first, second, hfields⟩ := hbroken (by decide)
  exact ⟨render_endsBroken, drawn_endsBroken, ls, v, line, next, first, second, hls, htext, hholds,
    hfields⟩

end MirListing.HexDump
