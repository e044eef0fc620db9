import MirListing.Dump.Filter
import MirListing.Dump.Name
import MirListing.Listing.Body

/-!
# Dumps

A dump is the listing of a body with a heading, in a file named after the item and the pass.  Only
dumps that the filter selects are made.
-/

namespace MirListing

/-- The settings of dumps. -/
structure DumpOptions where
  /-- Which dumps are made; none without a filter. -/
  filter : Option Label := none
  /-- The directory of the files. -/
  directory : Label := .string "mir_dump"
  /-- Whether the number of the pass is left out of the names. -/
  excludePassNumber : Bool := false
deriving Repr

/-- The pass that a body comes from. -/
structure PassInfo where
  /-- The number. -/
  number : Option Label := none
  /-- The name. -/
  name : Label
  /-- What tells the dumps around a pass apart. -/
  disambiguator : Label := .string "0"
deriving Repr

/-- What goes into a file. -/
structure Dump where
  /-- The file. -/
  path : FilePath
  /-- The contents. -/
  contents : Listing

/-- The heading of a dump. -/
def dumpHeading (pass : PassInfo) (source : BodySource) (body : Body) : String :=
  let promoted := (source.promotedText?.map ("::" ++ ·)).getD ""
  let layout :=
    (body.generatorLayout?.map fun text => "// generator_layout = " ++ text.shown ++ "\n").getD ""
  "// MIR for `" ++ source.item.pathText ++ promoted ++ "` " ++ pass.disambiguator.shown ++
    " " ++ pass.name.shown ++ "\n" ++ layout ++ "\n"

/-- The file of the dump of a body. -/
def dumpPath (options : DumpOptions) (pass : PassInfo) (source : BodySource) : Outcome FilePath :=
  let name : DumpName :=
    { promoted := source.promoted, shimType := source.shimType, passNumber := pass.number,
      excludePassNumber := options.excludePassNumber, pass := pass.name,
      disambiguator := pass.disambiguator }
  name.path options.directory source.item.fileText

/-- The dump of a body. -/
def dump (ctx : Context) (options : DumpOptions) (pass : PassInfo) (source : BodySource)
    (body : Body) : Outcome Dump := do
  return { path := ← dumpPath options pass source
           contents := .text (dumpHeading pass source body) ++ bodyListing ctx source body }

/-- Whether the filter selects the bodies of an item. -/
def DumpOptions.selects (options : DumpOptions) (pass : PassInfo) (item : ItemId) : Outcome Bool :=
  Filter.enabled options.filter pass.name (.string item.pathText)

/-- The dump of a body, if the filter selects it. -/
def dump? (ctx : Context) (options : DumpOptions) (pass : PassInfo) (source : BodySource)
    (body : Body) : Outcome (Option Dump) := do
  if ← options.selects pass source.item then return some (← dump ctx options pass source body)
  else return none

end MirListing
