import MirListing.Command.Arguments
import MirListing.Command.LogLevel
import MirListing.Document.Reader
import MirListing.Dump.FileTree
import MirListing.Session.Basic

/-!
# The command

The command reads a program and either dumps its bodies into files, as far as the filter selects
them, or lists them all on one stream.  What it does to files goes through a `Disk`, so the same
command runs on real files and on a file tree.

A dump whose file cannot be made is counted and the others are made all the same; a body that cannot
be listed ends the command, and its file keeps what had been written.
-/

namespace MirListing

/-! ## Files -/

/-- Access to files. -/
structure Disk (m : Type → Type) where
  /-- Reads a file. -/
  read : FilePath → m (Except FileFault String)
  /-- Writes a file whose directory exists. -/
  write : FilePath → String → m (Option FileFault)
  /-- Writes a file after making the directories it needs. -/
  create : FilePath → String → m (Option FileFault)

/-- Access to the files of a tree. -/
def FileTree.disk : Disk (StateM FileTree) where
  read path := do return (← get).read path
  write path contents := do
    match (← get).write path contents with
    | .ok t => set t; return none
    | .error fault => return some fault
  create path contents := do
    let (t, fault?) := (← get).create path contents
    set t
    return fault?

/-! ## Outcomes -/

/-- How the command ends. -/
inductive Exit
  /-- With a number; zero if all went well. -/
  | code (n : Nat)
  /-- With a message. -/
  | message (text : String)
  /-- With a failure that it does not handle. -/
  | failed (failure : Failure)
deriving Repr

/-- The end of the command, and what it printed. -/
structure Report where
  /-- How it ends. -/
  exit : Exit
  /-- What it printed. -/
  output : String := ""
deriving Repr

/-- The line about a file that has been written. -/
def writtenLine (path : FilePath) : String := "mir written to " ++ path.text ++ "\n"

/-! ## The program -/

/-- The rule of the source map that an argument writes: two texts with an equals sign between, the
first not empty. -/
def remapRule? (text : String) : Option (String × String) :=
  match Text.splitFirst '=' text.toList with
  | some (start, replacement) =>
      if start.isEmpty then none else some (String.ofList start, String.ofList replacement)
  | none => none

/-- The source map of the arguments; the first that is no rule is refused. -/
def sourceMapOf (remaps : List Label) : Except Exit SourceMap :=
  remaps.foldlM (fun m value =>
    match value with
    | .spelled text =>
        match remapRule? text.plain with
        | some (start, replacement) => .ok (m.add start (.string replacement))
        | none => .error (.message ("invalid --remap-path-prefix value: " ++ text.quoted))
    | _ => .error (.failed .wrongShape)) {}

/-- The settings of dumps that the arguments ask for. -/
def Arguments.dumpOptions (a : Arguments) : DumpOptions :=
  { filter := some a.filter, directory := a.directory, excludePassNumber := a.excludePassNumber }

/-- The pass that the arguments name. -/
def Arguments.pass (a : Arguments) : PassInfo :=
  { number := a.passNumber, name := a.passName, disambiguator := a.disambiguator }

/-- The layout of a program as the arguments change it. -/
def Arguments.layout (a : Arguments) (layout : Layout) : Layout :=
  { pointerSize := (a.pointerSize.bind PointerSize.ofInt?).getD layout.pointerSize
    endian := if a.bigEndian then .big else layout.endian }

/-- The session with the program of a text. -/
def Arguments.load (a : Arguments) (path : FilePath) (m : SourceMap) (text : String) :
    Except Exit Session :=
  match Document.read text >>= Program.read with
  | .ok p => .ok (Session.ofProgram a.dumpOptions m { p with layout := a.layout p.layout })
  | .error (.document fault) =>
      .error (.message ("invalid program " ++ path.text ++ ": " ++ fault.message))
  | .error failure => .error (.failed failure)

/-- Whether a value is the path of an item. -/
def Item.hasPath (item : Item) : Label → Bool
  | .string path => item.id.pathText = path
  | _ => false

/-- The items of a path, all items without one. -/
def selectItems (items : List Item) : Option Label → Except Exit (List Item)
  | none => .ok items
  | some path =>
      match items.filter fun item => item.hasPath path with
      | [] => .error (.message ("unknown item: " ++ path.shown))
      | selected => .ok selected

/-! ## Dumps -/

/-- The bodies of an item that has a main body, each with where it comes from. -/
def Item.bodies (item : Item) : List (BodySource × Body) :=
  match item.body? with
  | none => []
  | some body =>
      ({ item := item.id }, body) ::
        item.promoted.mapIdx fun n promoted =>
          ({ item := item.id, promoted := some (.integer n) }, promoted)

/-- The dumps of items that the filter selects. -/
def selectedDumps (s : Session) (pass : PassInfo) (items : List Item) : Outcome (List Dump) :=
  (items.flatMap Item.bodies).filterMapM fun (source, body) =>
    dump? s.context s.options pass source body

variable {m : Type → Type} [Monad m]

/-- Makes dumps one after another; `output` has been printed and `faults` files could not be made.
A path that no file can have ends the command. -/
def makeDumps (disk : Disk m) (output : String) (faults : Nat) : List Dump → m Report
  | [] => return { exit := .code (if faults = 0 then 0 else 1), output }
  | d :: rest => do
      match ← disk.create d.path d.contents.written, d.contents.failure? with
      | some .nullCharacter, _ => return { exit := .failed (.file .nullCharacter), output }
      | some _, _ => makeDumps disk output (faults + 1) rest
      | none, some failure => return { exit := .failed failure, output }
      | none, none => makeDumps disk (output ++ writtenLine d.path) faults rest

/-! ## One stream -/

/-- The end of a listing. -/
def listingExit (l : Listing) : Exit :=
  match l.failure? with
  | some failure => .failed failure
  | none => .code 0

/-- Puts a listing into a file, or prints it. -/
def putListing (disk : Disk m) (l : Listing) : Option Label → m Report
  | none => return { exit := listingExit l, output := l.written }
  | some (.spelled out) => do
      let path := FilePath.parse out.plain
      match ← disk.write path l.written, l.failure? with
      | some fault, _ => return { exit := .failed (.file fault) }
      | none, some failure => return { exit := .failed failure }
      | none, none => return { exit := .code 0, output := writtenLine path }
  | some _ => return { exit := .failed .wrongShape }

/-- The single item that is listed; it must have a body. -/
def singleItem (a : Arguments) (items : List Item) : Except Exit (Option ItemId) :=
  match a.item, items with
  | some path, item :: _ =>
      if item.body?.isSome then .ok (some item.id)
      else .error (.message ("item has no body: " ++ path.shown))
  | _, _ => .ok none

/-! ## The command -/

/-- Dumps or lists the items of a session. -/
def runSession (disk : Disk m) (a : Arguments) (s : Session) : m Report :=
  match selectItems s.loaded a.item with
  | .error exit => return { exit }
  | .ok items =>
      if a.pretty then
        match singleItem a items with
        | .error exit => return { exit }
        | .ok single => putListing disk (programListing s.context single) a.out
      else
        match selectedDumps s a.pass items with
        | .ok dumps => makeDumps disk "" 0 dumps
        | .error failure => return { exit := .failed failure }

/-- Uses what has been read of the program. -/
def runRead (disk : Disk m) (a : Arguments) (path : FilePath) :
    Except FileFault String → m Report
  | .error .notFound | .error .notDirectory | .error .nullCharacter =>
      return { exit := .message ("missing input file: " ++ path.text) }
  | .error .nameTooLong => return { exit := .failed (.file .nameTooLong) }
  | contents =>
      match sourceMapOf a.remaps, contents with
      | .error exit, _ => return { exit }
      | .ok _, .error fault => return { exit := .failed (.file fault) }
      | .ok m, .ok text =>
          match a.load path m text with
          | .error exit => return { exit }
          | .ok s => runSession disk a s

/-- Runs the command. -/
def runCommand (disk : Disk m) (arguments : List String) (default : Arguments := {}) : m Report :=
  match Arguments.parse arguments default with
  | .error _ => return { exit := .code 2 }
  | .ok a =>
      if a.help then return { exit := .code 0 }
      else
        match LogLevel.check a.logLevel with
        | .error failure => return { exit := .failed failure }
        | .ok () => do
            let path := FilePath.parse (a.program.getD "")
            runRead disk a path (← disk.read path)

end MirListing
