import MirListing.Failure

/-!
# Reading the shape of a value

The readers of the document format are put together from the functions here.  `field` looks a name
up and takes null for what is absent, `member` refuses an object without the name, and `require`
also says what the object stands for.  `elements` lists what a value holds: the items of an array,
the characters of a string, the names of an object.  `toInteger` is the one way from a value to an
integer.

`sizeOf_field` and `sizeOf_mem_array` say that what is read out of a value is smaller, so a reader
of nested values ends.
-/

namespace MirListing

/-- A result, or why there is none. -/
abbrev Outcome := Except Failure

/-- What comes out of two readers after each other comes out of the second, for what comes out of
the first. -/
theorem bind_eq_ok_iff {α β : Type} {o : Outcome α} {k : α → Outcome β} {b : β} :
    o >>= k = .ok b ↔ ∃ a, o = .ok a ∧ k a = .ok b := by
  cases o with
  | error fault => simp [bind, Except.bind]
  | ok a => simp [bind, Except.bind]

namespace Fields

/-! ## Fields -/

/-- The value of a field, if the object has it. -/
def field? (name : String) (fields : Fields) : Option Value := fields.lookup (.text name)

/-- The value of a field; null if the object lacks it. -/
def field (name : String) (fields : Fields) : Value := (field? name fields).getD .null

/-- The value of a field; another value if the object lacks it. -/
def fieldOr (name : String) (absent : Value) (fields : Fields) : Value :=
  (field? name fields).getD absent

/-- The value of a field that the object must have. -/
def member (name : String) (fields : Fields) : Outcome Value :=
  match field? name fields with
  | some value => .ok value
  | none => .error (.missing name)

/-- What is read out of an object is smaller than the object. -/
theorem sizeOf_field {name : String} {fields : Fields} {value : Value}
    (h : field? name fields = some value) : sizeOf value < sizeOf (Value.object fields) := by
  have hlt : sizeOf value < sizeOf fields := by
    unfold field? at h
    induction fields with
    | nil => simp at h
    | cons entry rest ih =>
      obtain ⟨key, item⟩ := entry
      rw [List.lookup_cons] at h
      split at h
      · cases h
        simp only [List.cons.sizeOf_spec, Prod.mk.sizeOf_spec]
        omega
      · have := ih h
        simp only [List.cons.sizeOf_spec]
        omega
  simp only [Value.object.sizeOf_spec]
  omega

end Fields

namespace Value

/-- What an array holds is smaller than the array. -/
theorem sizeOf_mem_array {item : Value} {items : List Value} (h : item ∈ items) :
    sizeOf item < sizeOf (Value.array items) := by
  have := List.sizeOf_lt_of_mem h
  simp only [Value.array.sizeOf_spec]
  omega

/-! ## Objects -/

/-- The fields of a value that is used as an object. -/
def asObject : Value → Outcome Fields
  | .object fields => .ok fields
  | _ => .error .wrongShape

/-- The value of a field of what is called by a name in messages.  In a string the field is looked
for as a part, in an array as an item; where it is found, the value still is no object. -/
def require (what name : String) : Value → Outcome Value
  | .object fields =>
      match Fields.field? name fields with
      | some value => .ok value
      | none => .error (.document (.absentField what name))
  | .spelled s =>
      if Text.contains s.plain name then .error .wrongShape
      else .error (.document (.absentField what name))
  | .array items =>
      if holdsString name items then .error .wrongShape
      else .error (.document (.absentField what name))
  | _ => .error .wrongShape

/-- The kind that an object carries, and its fields. -/
def tagged (what : String) : Value → Outcome (Spelling × Fields)
  | .object fields =>
      match Fields.field? "kind" fields with
      | some (.spelled kind) => .ok (kind, fields)
      | _ => .error (.document (.untagged what))
  | _ => .error (.document (.notAnObject what))

theorem require_object {what name : String} {fields : Fields} {value : Value}
    (h : Fields.field? name fields = some value) :
    require what name (.object fields) = .ok value := by
  simp [require, h]

/-! ## Lists -/

/-- What a value holds, one by one. -/
def elements : Value → Outcome (List Value)
  | .array items => .ok items
  | .spelled s => .ok (s.elements.map .spelled)
  | .object fields => .ok (fields.map fun field => .spelled field.1)
  | _ => .error .wrongShape

/-- What a value holds, nothing if it is not given. -/
def elementsIfGiven (value : Value) : Outcome (List Value) :=
  if value.isGiven then value.elements else .ok []

/-! ## Numbers -/

/-- The integer that a string writes. -/
def integerOf (s : Spelling) : Outcome Int :=
  match Text.readInteger s.plain.toList with
  | .ok n => .ok n
  | .error .malformed => .error (.document (.notAnInteger s))
  | .error (.tooLong digits) => .error (.document (.numeralTooLong digits))

/-- The integer that a text writes. -/
def integerOfText (text : String) : Outcome Int := integerOf (.text text)

/-- The integer a value stands for: a truth value is one or zero, a number loses its fraction and a
string is read as a numeral. -/
def toInteger : Value → Outcome Int
  | .integer n => .ok n
  | .bool b => .ok (if b then 1 else 0)
  | .number (.finite negative mantissa exponent) =>
      .ok (Binary.truncate negative mantissa exponent)
  | .number (.infinite _) => .error .overflow
  | .number .nan => .error (.document .nanInteger)
  | .spelled s => integerOf s
  | _ => .error .wrongShape

/-- The integer a value stands for, none for null. -/
def toInteger? : Value → Outcome (Option Int)
  | .null => .ok none
  | value => value.toInteger.map some

@[simp] theorem toInteger_integer (n : Int) : (Value.integer n).toInteger = .ok n := rfl

end Value

namespace Fields

/-- The integer of a field that the object must have. -/
def integer (name : String) (fields : Fields) : Outcome Int := do
  (← fields.member name).toInteger

/-- The integer of a field, a given one if the object lacks it. -/
def integerOr (name : String) (absent : Int) (fields : Fields) : Outcome Int :=
  (fields.fieldOr name (.integer absent)).toInteger

/-- The integer of a field, none if the object lacks it. -/
def integer? (name : String) (fields : Fields) : Outcome (Option Int) :=
  (fields.field name).toInteger?

/-- Whether a field is given; a default if the object lacks it. -/
def flag (name : String) (absent : Bool) (fields : Fields) : Bool :=
  (fields.fieldOr name (.bool absent)).isGiven

/-- The label of a field, none if it is null or absent. -/
def label? (name : String) (fields : Fields) : Option Label :=
  match fields.field name with
  | .null => none
  | value => some value

end Fields

end MirListing
