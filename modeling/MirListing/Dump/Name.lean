import MirListing.Dump.FilePath
import MirListing.Item.Identity

/-!
# Names of dump files

The file of a dump is named after the item, the promoted constant, the pass with its number, and a
word that tells the dumps around a pass apart, with points between them.  All of these are labels;
only the type of a shim is taken apart, and the directory must be a text.
-/

namespace MirListing

/-- An element of a type as part of a file name: a space is dropped, a bracket or colon replaced. -/
def shimElement (text : String) : String :=
  if text = " " then "" else if text = ":" ∨ text = "<" ∨ text = ">" then "_" else text

/-- What holds for an element of a type, which must be a string. -/
def shimElementOf : Value → Outcome String
  | .spelled s => .ok (shimElement s.plain)
  | _ => .error .wrongShape

/-- The part of a file name that tells shims apart: a point and the elements of the type. -/
def shimText : Option Label → Outcome String
  | none => .ok ""
  | some type => do return "." ++ String.join (← (← type.elements).mapM shimElementOf)

/-- What the name of a dump file is made of, besides the item. -/
structure DumpName where
  /-- The number of the promoted constant. -/
  promoted : Option Label := none
  /-- The type a shim is made for. -/
  shimType : Option Label := none
  /-- The number of the pass. -/
  passNumber : Option Label := none
  /-- Whether the number of the pass is left out. -/
  excludePassNumber : Bool := false
  /-- The name of the pass. -/
  pass : Label
  /-- What tells the dumps around a pass apart. -/
  disambiguator : Label := .string "0"
  /-- The ending. -/
  extension : Label := .string "mir"
deriving Repr

namespace DumpName

/-- The number of the pass with the point before it; dashes if there is none. -/
def passText (n : DumpName) : String :=
  if n.excludePassNumber then ""
  else
    match n.passNumber with
    | none => ".-------"
    | some number => "." ++ number.shown

/-- The number of the promoted constant with the dash before it. -/
def promotedText : Option Label → String
  | none => ""
  | some number => "-" ++ number.shown

/-- The name of the file of an item. -/
def fileText (n : DumpName) (item : String) : Outcome String := do
  let shim ← shimText n.shimType
  return "rustc." ++ item ++ shim ++ promotedText n.promoted ++ n.passText ++
    "." ++ n.pass.shown ++ "." ++ n.disambiguator.shown ++ "." ++ n.extension.shown

/-- The path of the file of an item in a directory. -/
def path (n : DumpName) (directory : Label) (item : String) : Outcome FilePath := do
  let name ← n.fileText item
  match directory with
  | .spelled directory => return (FilePath.parse directory.plain).join (FilePath.parse name)
  | _ => .error .wrongShape

end DumpName

end MirListing
