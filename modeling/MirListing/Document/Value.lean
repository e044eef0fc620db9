import MirListing.Document.Spelling
import MirListing.Number.Shortest
import MirListing.Text.Cut

/-!
# Document values

A program document is a tree of values: null, truth values, numbers, strings, arrays and objects
whose fields keep their order.  Integers have no bound and are kept apart from other numbers.  A
string is what it spells, which nearly always is a text: `Value.string` is the string of a text.

A field that only names something, a type or a region for instance, is not checked when it is read;
it is kept as a *label* and written by `shown`: a string as it stands, any other value in its
`quoted` form, in which strings stand between quotes.
-/

namespace MirListing

/-- A document value. -/
inductive Value
  /-- The absent value. -/
  | null
  /-- A truth value. -/
  | bool (b : Bool)
  /-- An integer. -/
  | integer (n : Int)
  /-- Any other number. -/
  | number (x : Binary)
  /-- A string. -/
  | spelled (s : Spelling)
  /-- A list of values. -/
  | array (items : List Value)
  /-- Named fields, each name once, in order. -/
  | object (fields : List (Spelling × Value))
deriving Repr, Inhabited

/-- The string of a text. -/
@[match_pattern] abbrev Value.string (s : String) : Value := .spelled (.text s)

/-- A name that nothing checks. -/
abbrev Label := Value

/-- The fields of an object. -/
abbrev Fields := List (Spelling × Value)

namespace Value

/-! ## Truth and form -/

/-- Whether a value counts as given: null, false, zero and whatever is empty do not. -/
def isGiven : Value → Bool
  | .null => false
  | .bool b => b
  | .integer n => n != 0
  | .number x => !x.isZero
  | .spelled s => !s.isEmpty
  | .array items => !items.isEmpty
  | .object fields => !fields.isEmpty

mutual

/-- The written form of a value inside another, or in a message. -/
def quoted : Value → String
  | .null => "None"
  | .bool true => "True"
  | .bool false => "False"
  | .integer n => Text.decimal n
  | .number x => x.text
  | .spelled s => s.quoted
  | .array items => "[" ++ quotedItems items ++ "]"
  | .object fields => "\x7b" ++ quotedFields fields ++ "\x7d"

/-- The items of an array, separated by commas. -/
def quotedItems : List Value → String
  | [] => ""
  | [item] => quoted item
  | item :: items => quoted item ++ ", " ++ quotedItems items

/-- The fields of an object, separated by commas. -/
def quotedFields : List (Spelling × Value) → String
  | [] => ""
  | [(name, item)] => name.quoted ++ ": " ++ quoted item
  | (name, item) :: fields => name.quoted ++ ": " ++ quoted item ++ ", " ++ quotedFields fields

end

/-- The written form of a label: a string is written as it stands. -/
def shown : Value → String
  | .spelled s => s.plain
  | value => value.quoted

@[simp] theorem shown_string (s : String) : (Value.string s).shown = s := rfl

/-- An empty object counts as no object. -/
@[simp] theorem isGiven_object_nil : (Value.object []).isGiven = false := rfl

/-- Whether an array holds a string. -/
def holdsString (s : String) : List Value → Bool
  | [] => false
  | .string t :: items => s == t || holdsString s items
  | _ :: items => holdsString s items

example : (Value.array [.string "a'b", .null, .bool true]).shown = "[\"a'b\", None, True]" := by
  decide +kernel

end Value

end MirListing
