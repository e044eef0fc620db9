import MirListing.Document.Shape
import MirListing.OrderedMap
import MirListing.Source.Span

/-!
# Source maps

A source map replaces the beginnings of the names of source files.  Of the rules whose beginning
fits, the one with the longest beginning is applied, once.

A beginning is a text.  A rule with any other is accepted, but no name can be looked up after that,
because its length cannot be compared.  What replaces a beginning is a label, and must be a text
only where the rule is applied.
-/

namespace MirListing

/-- The rules of a source map: beginnings of file names and what replaces them. -/
structure SourceMap where
  /-- The replacement of each beginning. -/
  rules : OrderedMap String Label := .empty
  /-- Whether names can be looked up. -/
  isUsable : Bool := true

namespace SourceMap

/-- Adds a rule; it replaces an earlier one for the same beginning. -/
def add (m : SourceMap) (start : String) (replacement : Label) : SourceMap :=
  { m with rules := m.rules.put start replacement }

/-- Adds a rule as it is given from outside; arrays and objects cannot be told apart and are no
beginnings at all. -/
def addLabel (m : SourceMap) (start replacement : Label) : Outcome SourceMap :=
  match start with
  | .spelled start => .ok (m.add start.plain replacement)
  | .array _ | .object _ => .error .wrongShape
  | _ => .ok { m with isUsable := false }

/-- Whether a name begins with a text. -/
def startsWith (name start : String) : Bool := start.toList.isPrefixOf name.toList

/-- The longer of two rules, the first if they are equally long. -/
def longer (a b : String × Label) : String × Label :=
  if a.1.length < b.1.length then b else a

/-- The rule with the longest beginning that fits a name. -/
def longestRule? (m : SourceMap) (name : String) : Option (String × Label) :=
  match m.rules.entries.filter fun rule => startsWith name rule.1 with
  | [] => none
  | rule :: rules => some (rules.foldl longer rule)

/-- The name of the file of a span. -/
def fileName (m : SourceMap) (span : Span) : Outcome String :=
  if !m.isUsable then .error .wrongShape
  else
    match m.longestRule? span.file with
    | none => .ok span.file
    | some (start, .spelled replacement) =>
        .ok (replacement.plain ++ String.ofList (span.file.toList.drop start.length))
    | some _ => .error .wrongShape

/-- The written form of a span. -/
def spanText (m : SourceMap) (span : Span) : Outcome String :=
  if span.isNone then .ok "no-location"
  else do
    return (← m.fileName span) ++ ":" ++ Text.decimal span.startLine ++ ":" ++
      Text.decimal span.startColumn ++ ": " ++ Text.decimal span.stopLine ++ ":" ++
      Text.decimal span.stopColumn

/-- The comment that places a part of a body. -/
def comment (m : SourceMap) (info : SourceInfo) : Outcome String := do
  return "scope " ++ Text.decimal info.scope ++ " at " ++ (← m.spanText info.span)

example : (((({} : SourceMap).add "/w/" (.string "W/")).add "/w/src" (.string "S")).fileName
    ⟨"/w/src/a", 1, 1, 1, 1⟩).toOption = some "S/a" := by decide +kernel

end SourceMap

end MirListing
