import MirListing.Text.Cut

/-!
# File paths

A path is the names between its slashes.  Empty names and single points say nothing and are dropped;
double points are kept.  Two slashes in front are a root of their own, any other number of them is
the common root.
-/

namespace MirListing

/-- Where a path begins. -/
inductive PathRoot
  /-- At the directory at hand. -/
  | here
  /-- At the root. -/
  | slash
  /-- At the root that two slashes name. -/
  | doubleSlash
deriving DecidableEq, Repr

/-- A path. -/
structure FilePath where
  /-- Where it begins. -/
  root : PathRoot := .here
  /-- The names from there on. -/
  names : List String := []
deriving DecidableEq, Repr

namespace FilePath

/-- Where a written path begins. -/
def rootOf : List Char → PathRoot
  | '/' :: '/' :: '/' :: _ => .slash
  | '/' :: '/' :: _ => .doubleSlash
  | '/' :: _ => .slash
  | _ => .here

/-- Reads a path. -/
def parse (text : String) : FilePath :=
  { root := rootOf text.toList
    names := (Text.cutString '/' text).filter fun name => name != "" && name != "." }

/-- The written form of a root. -/
def rootText : PathRoot → String
  | .here => ""
  | .slash => "/"
  | .doubleSlash => "//"

/-- The written form of a path; a point if there is nothing else to write. -/
def text (p : FilePath) : String :=
  if p.root = .here ∧ p.names = [] then "." else rootText p.root ++ "/".intercalate p.names

/-- A path below another; a path with a root of its own stands for itself. -/
def join (p q : FilePath) : FilePath :=
  if q.root = .here then { p with names := p.names ++ q.names } else q

/-- The directory of a path. -/
def parent (p : FilePath) : FilePath := { p with names := p.names.dropLast }

/-- Whether a path has a null character, which no file name can have. -/
def hasNull (p : FilePath) : Bool := p.names.any fun name => name.toList.contains '\x00'

example : (parse "out/./x//y").text = "out/x/y" := by decide +kernel
example : (parse "//a/").text = "//a" := by decide +kernel
example : (parse "///").text = "/" := by decide +kernel
example : (parse "").text = "." := by decide +kernel

end FilePath

end MirListing
