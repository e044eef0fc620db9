/-!
# Spans

A span is a region of a source file.  A span with both lines zero is no place at all; `Span.none`
stands where a document gives none.
-/

namespace MirListing

/-- A region of a source file; lines and columns count from one. -/
structure Span where
  /-- The file. -/
  file : String
  /-- The first line. -/
  startLine : Int
  /-- The first column. -/
  startColumn : Int
  /-- The last line. -/
  stopLine : Int
  /-- The last column. -/
  stopColumn : Int
deriving DecidableEq, Repr

/-- No place at all. -/
def Span.none : Span := ⟨"no-location", 0, 0, 0, 0⟩

/-- Spans that are no place. -/
def Span.isNone (s : Span) : Bool := s.startLine == 0 && s.stopLine == 0

/-- Where a part of a body comes from, and the scope it belongs to. -/
structure SourceInfo where
  /-- The region. -/
  span : Span := Span.none
  /-- The scope. -/
  scope : Int := 0
deriving DecidableEq, Repr

end MirListing
