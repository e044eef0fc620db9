import MirListing.Dump.FilePath
import MirListing.Failure
import MirListing.OrderedMap

/-!
# File trees

The directories and files that dumps are read from and written to.  A path is followed name by name;
what stands before a name must be a directory, and double points lead to the directory above.  The
tree knows the directory at hand and what is below it; above it and at the root there are
directories about which nothing more is known.
-/

namespace MirListing

/-- Directories and files. -/
structure FileTree where
  /-- The directories below the one at hand. -/
  directories : List (List String) := []
  /-- The files with their contents. -/
  files : OrderedMap (List String) String := .empty

namespace FileTree

/-- The greatest length of a name, in bytes. -/
def nameLimit : Nat := 255

/-- The greatest length of a written path, in bytes. -/
def pathLimit : Nat := 4095

/-- Whether a place is a directory. -/
def isDirectory (t : FileTree) (place : List String) : Bool :=
  place.all (fun name => name == ".." || name == "/") || t.directories.contains place

/-- The directory above a place. -/
def above (place : List String) : List String :=
  if place.all fun name => name == ".." then place ++ [".."]
  else if place = ["/"] then place
  else place.dropLast

/-- Follows names from a directory to the place that they lead to; the place itself need not
exist. -/
def follow (t : FileTree) (place : List String) : List String → Except FileFault (List String)
  | [] => .ok place
  | name :: rest =>
      if t.files.contains place then .error .notDirectory
      else if !t.isDirectory place then .error .notFound
      else if nameLimit < name.utf8ByteSize then .error .nameTooLong
      else if name = ".." then follow t (above place) rest
      else follow t (place ++ [name]) rest

/-- The place of a path. -/
def locate (t : FileTree) (path : FilePath) : Except FileFault (List String) :=
  if path.hasNull then .error .nullCharacter
  else if pathLimit < path.text.utf8ByteSize then .error .nameTooLong
  else t.follow (if path.root = .here then [] else ["/"]) path.names

/-- Reads a file. -/
def read (t : FileTree) (path : FilePath) : Except FileFault String := do
  let place ← t.locate path
  if t.isDirectory place then .error .isDirectory
  else
    match t.files.get? place with
    | some contents => .ok contents
    | none => .error .notFound

/-- Writes a file; its directory must exist. -/
def write (t : FileTree) (path : FilePath) (contents : String) : Except FileFault FileTree := do
  let place ← t.locate path
  if t.isDirectory place then .error .isDirectory
  else .ok { t with files := t.files.put place contents }

/-- Makes a directory; the one above it must exist. -/
def makeDirectory (t : FileTree) (path : FilePath) : Except FileFault FileTree := do
  let place ← t.locate path
  if t.isDirectory place || t.files.contains place then .error .exists
  else .ok { t with directories := t.directories ++ [place] }

/-- Whether a path leads to a directory. -/
def hasDirectory (t : FileTree) (path : FilePath) : Bool :=
  match t.locate path with
  | .ok place => t.isDirectory place
  | .error _ => false

/-- A tree after an attempt, with the fault if it failed.  A fault does no harm where the directory
is there all the same. -/
def settle (t : FileTree) (path : FilePath) :
    Except FileFault FileTree → FileTree × Option FileFault
  | .ok t => (t, none)
  | .error fault => (t, if t.hasDirectory path then none else some fault)

/-- Makes a directory and those above it.  The names are counted so that the directories above are
those of fewer names. -/
def makeDirectoriesWith (t : FileTree) (path : FilePath) : Nat → FileTree × Option FileFault
  | 0 => t.settle path (t.makeDirectory path)
  | above + 1 =>
      match t.makeDirectory path with
      | .error .notFound =>
          match t.makeDirectoriesWith path.parent above with
          | (t, none) => t.settle path (t.makeDirectory path)
          | (t, some fault) => (t, some fault)
      | result => t.settle path result

/-- Makes a directory and those above it. -/
def makeDirectories (t : FileTree) (path : FilePath) : FileTree × Option FileFault :=
  t.makeDirectoriesWith path path.names.length

/-- Writes a file after making the directories it needs. -/
def create (t : FileTree) (path : FilePath) (contents : String) : FileTree × Option FileFault :=
  match t.makeDirectories path.parent with
  | (t, some fault) => (t, some fault)
  | (t, none) =>
      match t.write path contents with
      | .ok t => (t, none)
      | .error fault => (t, some fault)

/-- Every directory above a file. -/
def directoriesAbove : List String → List (List String)
  | [] => []
  | name :: rest => [name] :: (directoriesAbove rest).map (name :: ·)

/-- A tree of files, with the directories they need. -/
def ofFiles (files : List (String × String)) : FileTree :=
  let places := files.map fun (path, contents) => ((FilePath.parse path).names, contents)
  { directories := (places.flatMap fun (place, _) => directoriesAbove place.dropLast).eraseDups
    files := OrderedMap.ofList places }

/-- The files of a tree that another did not have, by their paths. -/
def newFiles (t old : FileTree) : List (String × String) :=
  t.files.entries.filterMap fun (place, contents) =>
    if old.files.contains place || place.head? == some ".." || place.head? == some "/" then none
    else some ("/".intercalate place, contents)

end FileTree

end MirListing
