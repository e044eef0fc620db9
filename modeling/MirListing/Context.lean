import MirListing.Item.Table
import MirListing.Memory.Directory
import MirListing.Source.Map

/-!
# What a listing depends on

Besides the body itself, a listing depends on what is known about items, on what the handles of
allocations refer to, on the source map and on the target layout.
-/

namespace MirListing

/-- What a listing depends on besides the body. -/
structure Context where
  /-- The items. -/
  items : ItemTable := {}
  /-- The allocations. -/
  directory : Directory := {}
  /-- The source map. -/
  sourceMap : SourceMap := {}
  /-- The target layout. -/
  layout : Layout := {}

end MirListing
