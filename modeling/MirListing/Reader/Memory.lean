import MirListing.Item.Identity
import MirListing.Memory.Allocation

/-!
# Reading memory

The document forms of a target layout and of an allocation.  Bytes are written as hex digits, two to
a byte and of either case, with blanks between bytes; pointers as an object from offsets to numbers
of allocations, the offsets being numerals; undefined bytes as a list of offsets.
-/

namespace MirListing

/-! ## Hex texts -/

/-- The bytes of a hex text whose first character is at a position. -/
def readHexFrom (position : Nat) : List Char → Outcome (List UInt8)
  | [] => .ok []
  | [c] =>
      if Text.isPlainBlank c then .ok []
      else if (Text.hexValue? c).isSome then .error (.document (.notHex (position + 1)))
      else .error (.document (.notHex position))
  | c :: d :: rest =>
      if Text.isPlainBlank c then readHexFrom (position + 1) (d :: rest)
      else
        match Text.hexValue? c, Text.hexValue? d with
        | none, _ => .error (.document (.notHex position))
        | some _, none => .error (.document (.notHex (position + 1)))
        | some high, some low => do
            let bytes ← readHexFrom (position + 2) rest
            return UInt8.ofNat (16 * high + low) :: bytes

/-- The bytes of a hex text.  A character beyond ASCII is found before any other fault. -/
def readHex (text : List Char) : Outcome (List UInt8) :=
  match text.findIdx? (fun c => 0x80 ≤ c.toNat) with
  | some position => .error (.document (.notHex position))
  | none => readHexFrom 0 text

/-! ## Layouts -/

/-- Reads a layout; what is absent is as usual, eight bytes and the least significant first. -/
def Layout.read (value : Value) : Outcome Layout := do
  let fields ← value.asObject
  let endian := fields.fieldOr "endian" (.string "little")
  match Endian.ofValue? endian with
  | some order => ofSize (← fields.integerOr "pointer_size" 8) order
  | none => .error (.document (.unknown "endianness" endian))

/-! ## Allocations -/

/-- The bytes of an allocation. -/
def readBytes (fields : Fields) : Outcome (List UInt8) :=
  match fields.fieldOr "bytes" (.string "") with
  | .spelled text => readHex text.plain.toList
  | _ => .error .wrongShape

/-- A pointer, by the name of its offset. -/
def readPointer (entry : Spelling × Value) : Outcome (Int × AllocId) := do
  let offset ← Value.integerOf entry.1
  return (offset, ⟨← entry.2.toInteger⟩)

/-- The pointers of an allocation; of two for one offset the last counts. -/
def readPointers (fields : Fields) : Outcome (OrderedMap Int AllocId) := do
  let value := fields.field "relocations"
  let entries ← if value.isGiven then value.asObject else .ok []
  return OrderedMap.ofList (← entries.mapM readPointer)

/-- Reads an allocation. -/
def Allocation.read (value : Value) : Outcome Allocation := do
  let fields ← value.asObject
  let bytes ← readBytes fields
  let pointers ← readPointers fields
  let align ← fields.integerOr "align" 1
  let undefined ← (fields.field "undefined").elementsIfGiven
  ofParts bytes align pointers (← undefined.mapM Value.toInteger)

end MirListing
