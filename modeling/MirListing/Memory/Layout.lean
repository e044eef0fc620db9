import MirListing.Document.Shape

/-!
# Target layout

The size of a pointer and the order of its bytes are all a listing needs to know about the target.
-/

namespace MirListing

/-! ## Byte order -/

/-- The order of the bytes of a number. -/
inductive Endian
  /-- The least significant byte first. -/
  | little
  /-- The most significant byte first. -/
  | big
deriving DecidableEq, Repr

namespace Endian

/-- The name of a byte order. -/
def name : Endian → String
  | .little => "little"
  | .big => "big"

/-- The byte order of a name. -/
def ofName? : String → Option Endian
  | "little" => some .little
  | "big" => some .big
  | _ => none

/-- The byte order that a value names. -/
def ofValue? : Value → Option Endian
  | .string name => ofName? name
  | _ => none

/-- The number that bytes hold, the least significant byte first. -/
def littleValue : List UInt8 → Nat
  | [] => 0
  | byte :: rest => byte.toNat + 256 * littleValue rest

/-- The unsigned number that bytes hold. -/
def unsigned : Endian → List UInt8 → Nat
  | .little, bytes => littleValue bytes
  | .big, bytes => littleValue bytes.reverse

end Endian

/-! ## Pointer size -/

/-- The size of a pointer. -/
inductive PointerSize
  /-- Two bytes. -/
  | two
  /-- Four bytes. -/
  | four
  /-- Eight bytes. -/
  | eight
deriving DecidableEq, Repr

namespace PointerSize

/-- The number of bytes. -/
def bytes : PointerSize → Nat
  | .two => 2
  | .four => 4
  | .eight => 8

/-- The pointer size of a number of bytes. -/
def ofInt? : Int → Option PointerSize
  | 2 => some .two
  | 4 => some .four
  | 8 => some .eight
  | _ => none

/-- A pointer has at least two bytes and fits a line of sixteen. -/
theorem bytes_bounds (p : PointerSize) : 2 ≤ p.bytes ∧ p.bytes ≤ 8 := by cases p <;> decide

end PointerSize

/-! ## Layouts -/

/-- What a listing needs to know about the target. -/
structure Layout where
  /-- The size of a pointer. -/
  pointerSize : PointerSize := .eight
  /-- The order of the bytes of a pointer. -/
  endian : Endian := .little
  /-- Whether the size was given as an integer.  By any other number of the same size the bytes of a
  stored pointer cannot be counted. -/
  sizeIsInteger : Bool := true
deriving DecidableEq, Repr

namespace Layout

/-- The written form of the size of a pointer. -/
def sizeText (l : Layout) : String :=
  l.pointerSize.bytes.repr ++ (if l.sizeIsInteger then "" else ".0")

/-- A layout of a given pointer size. -/
def ofSize (size : Int) (endian : Endian) : Outcome Layout :=
  match PointerSize.ofInt? size with
  | some pointerSize => .ok { pointerSize, endian }
  | none => .error (.document (.pointerSize (.integer size)))

/-- The layout of a pointer size and a byte order as they are given from outside a document. -/
def ofValues (size endian : Value) : Outcome Layout :=
  match Endian.ofValue? endian, size with
  | none, _ => .error (.document (.unknownByteOrder endian))
  | some order, .integer n => ofSize n order
  | some order, .number x =>
      match x.whole?.bind PointerSize.ofInt? with
      | some pointerSize => .ok { pointerSize, endian := order, sizeIsInteger := false }
      | none => .error (.document (.pointerSize (.number x)))
  | some _, size => .error (.document (.pointerSize size))

end Layout

end MirListing
