/-!
# Item kinds

What an item is decides how its signature is written: functions have arguments, constants and
statics a value, and the other kinds have no body at all.
-/

namespace MirListing

/-- What an item is. -/
inductive ItemKind
  /-- A free function. -/
  | fn
  /-- An associated function. -/
  | assocFn
  /-- The constructor of a structure or variant. -/
  | ctor
  /-- A closure. -/
  | closure
  /-- A constant. -/
  | const
  /-- An associated constant. -/
  | assocConst
  /-- A static. -/
  | static
  /-- A structure. -/
  | struct
  /-- An enumeration. -/
  | enum
  /-- A trait. -/
  | trait
  /-- A module. -/
  | mod
deriving DecidableEq, Repr

namespace ItemKind

/-- The kinds in order. -/
def all : List ItemKind :=
  [.fn, .assocFn, .ctor, .closure, .const, .assocConst, .static, .struct, .enum, .trait, .mod]

/-- The name of a kind. -/
def name : ItemKind → String
  | .fn => "fn"
  | .assocFn => "assoc_fn"
  | .ctor => "ctor"
  | .closure => "closure"
  | .const => "const"
  | .assocConst => "assoc_const"
  | .static => "static"
  | .struct => "struct"
  | .enum => "enum"
  | .trait => "trait"
  | .mod => "mod"

/-- The kind of a name. -/
def ofName? (name : String) : Option ItemKind := all.find? (·.name = name)

/-- Kinds whose signature has arguments. -/
def isFunctionLike : ItemKind → Bool
  | .fn | .assocFn | .ctor | .closure => true
  | _ => false

theorem ofName?_name (k : ItemKind) : ofName? k.name = some k := by cases k <;> decide

end ItemKind

end MirListing
