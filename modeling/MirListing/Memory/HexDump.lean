import MirListing.Listing
import MirListing.Memory.Allocation
import MirListing.Text.Field

/-!
# Hex dumps

Memory is shown sixteen bytes to a line.  A line has a cell area, three columns to a byte with the
last one dropped, and behind it one character per byte; with more than one line, the address of the
first byte stands in front.  A pointer is drawn over the cells of its bytes, with its label in the
middle of its field.

The dump is made in three steps.  `scan` walks over the cells and takes a pointer's bytes together,
`segments` gives each mark its columns, a pointer that crosses the end of a line being drawn in two
parts, and `rows` breaks the segments into lines.  No segment crosses the end of a line, so the
width of a line is the sum of the widths of its segments.

A label is shown whole or not at all: where it does not fit its field, the number of the pointer's
bytes stands there if that fits.
-/

namespace MirListing.HexDump

/-- The number of bytes on a line. -/
def lineBytes : Nat := 16

/-! ## Marks -/

/-- What is drawn for some bytes. -/
inductive Mark
  /-- A defined byte. -/
  | byte (value : UInt8)
  /-- An undefined byte. -/
  | hole
  /-- A pointer with its label. -/
  | pointer (label : List Char)
deriving DecidableEq, Repr

/-- The mark of a byte where no pointer is stored. -/
def Mark.ofCell (cell : Cell) : Mark := if cell.isDefined then .byte cell.byte else .hole

/-- The label of a pointer: its target and the offset inside the target. -/
def pointerLabel (layout : Layout) (target : AllocId) (bytes : List UInt8) : List Char :=
  target.text.toList ++ '+' :: (layout.endian.unsigned bytes).repr.toList

/-- The marks of cells from an offset on, up to a pointer that reaches past the end or whose bytes
cannot be counted. -/
def scan (layout : Layout) (size offset : Nat) : List Cell → List Mark × Option Failure
  | [] => ([], none)
  | cell :: rest =>
      match cell.target? with
      | none =>
          let (marks, failure?) := scan layout size (offset + 1) rest
          (Mark.ofCell cell :: marks, failure?)
      | some target =>
          let bytes := layout.pointerSize.bytes
          if rest.length + 1 < bytes then ([], some (.body (.pointerPastEnd offset size)))
          else if !layout.sizeIsInteger then ([], some .wrongShape)
          else
            let label := pointerLabel layout target (((cell :: rest).take bytes).map Cell.byte)
            let (marks, failure?) := scan layout size (offset + bytes) (rest.drop (bytes - 1))
            (.pointer label :: marks, failure?)
termination_by cells => cells.length
decreasing_by
  · simp
  · simp only [List.length_drop, List.length_cons]; omega

/-! ## Segments -/

/-- The columns of some bytes of one line. -/
structure Segment where
  /-- The cell area: three columns to a byte, less one. -/
  cells : List Char
  /-- One character per byte. -/
  ascii : List Char
deriving DecidableEq, Repr

/-- The number of bytes of a segment. -/
def Segment.bytes (s : Segment) : Nat := s.ascii.length

/-- What fills a pointer. -/
def fill : Char := '─'

/-- Where a pointer begins. -/
def pointerStart : Char := '╾'

/-- Where a pointer ends. -/
def pointerStop : Char := '╼'

/-- What stands for an undefined byte. -/
def undefinedMark : Char := '░'

/-- What stands between the columns of a line. -/
def columnMark : Char := '│'

/-- The label for a field: as it is, or the number of bytes, or nothing. -/
def fitLabel (label : List Char) (width bytes : Nat) : List Char :=
  if label.length ≤ width then label
  else
    let count := "(".toList ++ bytes.repr.toList ++ " ptr bytes)".toList
    if count.length ≤ width then count else []

/-- The character of a defined byte: itself if it is printable, a point otherwise. -/
def asciiChar (value : UInt8) : Char :=
  if value.toNat < 0x20 || 0x7f ≤ value.toNat then '.' else Char.ofNat value.toNat

/-- A pointer within a line. -/
def wholePointer (bytes : Nat) (label : List Char) : Segment :=
  let width := 3 * (bytes - 1)
  { cells := pointerStart :: Text.centre fill width (fitLabel label width bytes) ++ [pointerStop]
    ascii := pointerStart :: List.replicate (bytes - 2) fill ++ [pointerStop] }

/-- The part of a pointer on the line where it begins, a field of `3 * bytes - 2` columns. -/
def pointerHead (bytes : Nat) (label : List Char) : Segment :=
  { cells := pointerStart :: Text.centre fill (3 * bytes - 2) label
    ascii := pointerStart :: List.replicate (bytes - 1) fill }

/-- The part of a pointer on the line where it ends, a field of `3 * bytes - 2` columns. -/
def pointerTail (bytes : Nat) (label : List Char) : Segment :=
  { cells := Text.centre fill (3 * bytes - 2) label ++ [pointerStop]
    ascii := List.replicate (bytes - 1) fill ++ [pointerStop] }

/-- A pointer that crosses the end of a line, with `first` bytes before it and `second` after it.
The label stands in the second part only if that is wider and holds it. -/
def brokenPointer (first second : Nat) (label : List Char) : List Segment :=
  let firstWidth := 3 * first - 2
  let secondWidth := 3 * second - 2
  if firstWidth < secondWidth ∧ label.length ≤ secondWidth then
    [pointerHead first [], pointerTail second label]
  else [pointerHead first (fitLabel label firstWidth (first + second)), pointerTail second []]

/-- The segments of a mark whose first byte is at a column of its line. -/
def Mark.segments (pointerBytes column : Nat) : Mark → List Segment
  | .byte value => [{ cells := Text.hexPadded 2 value.toNat, ascii := [asciiChar value] }]
  | .hole => [{ cells := ['_', '_'], ascii := [undefinedMark] }]
  | .pointer label =>
      if column + pointerBytes ≤ lineBytes then [wholePointer pointerBytes label]
      else brokenPointer (lineBytes - column) (pointerBytes - (lineBytes - column)) label

/-- The number of bytes a mark stands for. -/
def Mark.bytes (pointerBytes : Nat) : Mark → Nat
  | .pointer _ => pointerBytes
  | _ => 1

/-- The segments of marks from an offset on. -/
def segments (pointerBytes offset : Nat) : List Mark → List Segment
  | [] => []
  | mark :: rest =>
      mark.segments pointerBytes (offset % lineBytes) ++
        segments pointerBytes (offset + mark.bytes pointerBytes) rest

/-! ## Lines -/

/-- The number of bytes of segments. -/
def segmentBytes : List Segment → Nat
  | [] => 0
  | segment :: rest => segment.bytes + segmentBytes rest

/-- The segments of each line; `row` holds those of the line so far. -/
def rows (row : List Segment) : List Segment → List (List Segment)
  | [] => if row.isEmpty then [] else [row]
  | segment :: rest =>
      let row := row ++ [segment]
      if segmentBytes row < lineBytes then rows row rest else row :: rows [] rest

/-- The cell area of a line as far as it is drawn. -/
def rowCells (row : List Segment) : List Char := List.intercalate [' '] (row.map Segment.cells)

/-- The characters of a line. -/
def rowAscii (row : List Segment) : List Char := row.flatMap Segment.ascii

/-- What stands in front of a line: the given text, and the address of its first byte if there is
more than one line. -/
def lineHead (start : List Char) (size line : Nat) : List Char :=
  if size ≤ lineBytes then start
  else
    let address := Text.hexPadded (Text.hexDigits size).length (lineBytes * line)
    start ++ '0' :: 'x' :: address ++ [' ', columnMark, ' ']

/-- The end of a line: the columns of missing bytes, and the characters. -/
def lineTail (ascii : List Char) : List Char :=
  List.replicate (3 * (lineBytes - ascii.length)) ' ' ++ ' ' :: columnMark :: ' ' :: ascii

/-- A line without its end. -/
def lineText (start : List Char) (size line : Nat) (row : List Segment) : List Char :=
  lineHead start size line ++ rowCells row ++ lineTail (rowAscii row)

/-- The rows of memory, and why they end at a pointer that cannot be drawn.  No bytes make one empty
row. -/
def scannedRows (layout : Layout) (a : Allocation) : List (List Segment) × Option Failure :=
  if a.size = 0 then ([[]], none)
  else
    let (marks, failure?) := scan layout a.size 0 a.cells
    (rows [] (segments layout.pointerSize.bytes 0 marks), failure?)

/-- The lines of memory, each beginning with a text; a pointer that cannot be drawn is a failure. -/
def lines (layout : Layout) (start : List Char) (a : Allocation) : Outcome (List (List Char)) :=
  match scannedRows layout a with
  | (rows, none) => .ok (rows.mapIdx fun line row => lineText start a.size line row)
  | (_, some failure) => .error failure

/-! ## Listings -/

/-- A line that was left before its end. -/
def openLine (start : List Char) (size line : Nat) (row : List Segment) : List Char :=
  lineHead start size line ++ rowCells row ++ (if row.isEmpty then [] else [' '])

/-- The lines written before a failure: the whole ones, and the one that it interrupts. -/
def linesBefore (start : List Char) (size line : Nat) : List (List Segment) → List Char
  | [] => openLine start size line []
  | [row] =>
      if (rowAscii row).length < lineBytes then openLine start size line row
      else lineText start size line row ++ '\n' :: openLine start size (line + 1) []
  | row :: rest => lineText start size line row ++ '\n' :: linesBefore start size (line + 1) rest

/-- The text that a label begins lines with.  Where no address follows, only a text will do. -/
def startOf (a : Allocation) : Label → Outcome (List Char)
  | .spelled s => .ok s.plain.toList
  | label => if a.size ≤ lineBytes then .error .wrongShape else .ok label.shown.toList

/-- The lines of memory as a listing. -/
def listing (layout : Layout) (start : List Char) (a : Allocation) : Listing :=
  match scannedRows layout a with
  | (rows, none) =>
      .text (String.ofList
        ((rows.mapIdx fun line row => lineText start a.size line row ++ ['\n']).flatten))
  | (rows, some failure) =>
      .text (String.ofList (linesBefore start a.size 0 rows)) ++ .fail failure

/-- Size, alignment and contents, as they follow the name of an allocation: the parenthesis that
the caller has opened is closed, and the bytes stand between braces. -/
def block (layout : Layout) (a : Allocation) : Listing :=
  .text ("size: " ++ a.size.repr ++ ", align: " ++ Text.decimal a.align ++ ")") ++
    if a.size = 0 then .text " \x7b\x7d"
    else .text " \x7b\n" ++ listing layout "    ".toList a ++ .text "\x7d"

end MirListing.HexDump
