import MirListing.Document.Value

/-!
# Keys

Values that are compared with each other, as parts of what an item is known by for instance, are
compared by their *keys*.  A truth value counts as one or zero, and a number without a fraction as
the integer, so different values may have one key.  Arrays and objects have none.
-/

namespace MirListing

/-- What a value is compared by. -/
inductive Key
  /-- The absent value. -/
  | nothing
  /-- An integer. -/
  | integer (n : Int)
  /-- A number that is no integer. -/
  | fraction (x : Binary)
  /-- A string. -/
  | string (s : Spelling)
deriving DecidableEq, Repr

/-- What a value is compared by. -/
def Value.key? : Value → Option Key
  | .null => some .nothing
  | .bool b => some (.integer (if b then 1 else 0))
  | .integer n => some (.integer n)
  | .number x =>
      match x.whole? with
      | some n => some (.integer n)
      | none => some (.fraction x)
  | .spelled s => some (.string s)
  | .array _ | .object _ => none

namespace Value

@[simp] theorem key?_string (s : String) : (Value.string s).key? = some (.string (.text s)) := rfl

@[simp] theorem key?_bool (b : Bool) : (Value.bool b).key? = some (.integer (if b then 1 else 0)) :=
  rfl

example : (Value.number (.ofDecimal false 10 (-1))).key? = (Value.bool true).key? := by
  decide +kernel
example : (Value.string "1").key? ≠ (Value.integer 1).key? := by decide +kernel

end Value

end MirListing
