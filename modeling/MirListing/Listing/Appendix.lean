import MirListing.Context
import MirListing.Memory.HexDump
import MirListing.Memory.Reach

/-!
# The appendix of allocations

Behind a body stand the allocations it can reach, each once.  Two walks find them.  The first
follows memory alone, from the allocations that constants of the body refer to; what it finds is
listed in ascending order.  The second walks over that list and also follows the memory of statics,
so what only a static leads to is listed right behind it.  Targets that are found together come in
the order of the offsets at which they are stored last.

The second walk does not depend on what is written: `appendixOrder` gives the handles, and
`appendixEntry` the text for each of them.
-/

namespace MirListing

/-! ## Pointers between allocations -/

/-- The memory that is listed for a handle: its own, or that of the static it refers to. -/
def GlobalAlloc.listedMemory? (items : ItemTable) : GlobalAlloc → Option Allocation
  | .memory allocation => some allocation
  | .static item =>
      if items.isForeign item then none
      else
        match items.evaluate item with
        | .ok (.byRef allocation _) => some allocation
        | _ => none
  | .function _ => none

/-- The targets of the pointers in an entry's own memory. -/
def GlobalAlloc.memoryTargets : GlobalAlloc → List AllocId
  | .memory allocation => allocation.targets
  | _ => []

/-- The targets of the pointers in the memory that is listed for an entry. -/
def GlobalAlloc.listedTargets (items : ItemTable) (entry : GlobalAlloc) : List AllocId :=
  ((entry.listedMemory? items).map Allocation.targets).getD []

namespace Directory

/-- The targets of the pointers in the memory of a handle. -/
def memoryTargets (d : Directory) (id : AllocId) : List AllocId :=
  ((d.get? id).map GlobalAlloc.memoryTargets).getD []

/-- The targets of the pointers in the memory that is listed for a handle. -/
def listedTargets (d : Directory) (items : ItemTable) (id : AllocId) : List AllocId :=
  ((d.get? id).map (GlobalAlloc.listedTargets items)).getD []

/-- The targets of some entries that are not among handles that are known, each once. -/
def unseenTargets (d : Directory) (targets : GlobalAlloc → List AllocId) (seen : List AllocId) :
    List AllocId :=
  (d.entries.values.flatMap targets).eraseDups.filter fun id => !seen.contains id

/-- The handles reached through memory, in ascending order. -/
def collect (d : Directory) (roots : List AllocId) : List AllocId :=
  (visit d.memoryTargets (d.unseenTargets GlobalAlloc.memoryTargets roots) roots).mergeSort

end Directory

/-- The handles of the appendix in order. -/
def appendixOrder (items : ItemTable) (d : Directory) (body : Body) : List AllocId :=
  let collected := d.collect body.allocIds
  visit (d.listedTargets items) (d.unseenTargets (GlobalAlloc.listedTargets items) collected)
    collected

/-! ## Entries -/

/-- What stands behind a handle that refers to a static, which must be one that can be looked up. -/
def staticListing (items : ItemTable) (layout : Layout) (item : ItemId) : Listing :=
  let path := item.pathText
  if item.key?.isNone then .fail .wrongShape
  else if items.isForeign item then .text (" (extern static: " ++ path ++ ")")
  else
    match items.evaluate item with
    | .error _ => .text (" (static: " ++ path ++ ", error during initializer evaluation)")
    | .ok (.byRef allocation _) =>
        .text (" (static: " ++ path ++ ", ") ++ HexDump.block layout allocation
    | .ok _ => .fail (.body (.staticWithoutMemory path))

/-- What stands behind a handle. -/
def entryListing (items : ItemTable) (layout : Layout) : Option GlobalAlloc → Listing
  | none => .text " (deallocated)"
  | some (.function instanceText) => .text (" (fn: " ++ instanceText.shown ++ ")")
  | some (.static item) => staticListing items layout item
  | some (.memory allocation) => .text " (" ++ HexDump.block layout allocation

/-- A handle and what it refers to. -/
def appendixEntry (ctx : Context) (id : AllocId) : Listing :=
  .text ("\n" ++ id.text) ++ entryListing ctx.items ctx.layout (ctx.directory.get? id) ++ .text "\n"

/-- The allocations that a body can reach. -/
def appendix (ctx : Context) (body : Body) : Listing :=
  .concat ((appendixOrder ctx.items ctx.directory body).map (appendixEntry ctx))

end MirListing
