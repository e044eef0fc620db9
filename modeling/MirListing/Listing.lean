import MirListing.Document.Shape

/-!
# Listings

A listing is the text that has been written and the failure, if any, that stopped the writing.
Writing goes on only while nothing has failed, so what stands before a failure is kept: a file that
could not be finished holds it.

Besides text a listing holds *points*, the places between two texts at which an annotation may be
put.  A plain rendering ignores them; an annotated one replaces each by the line that a function
gives for it.  Both come from the same pieces.
-/

namespace MirListing

/-! ## Points -/

/-- A statement of a block; the place after the last statement is the terminator. -/
structure Location where
  /-- The block. -/
  block : Nat
  /-- The place in the block. -/
  statement : Nat
deriving DecidableEq, Repr

/-- The written form of a location. -/
def Location.text (l : Location) : String :=
  "bb" ++ l.block.repr ++ "[" ++ l.statement.repr ++ "]"

/-- A place in the listing of a body. -/
inductive Point
  /-- Nothing of the body has been written. -/
  | beforeBody
  /-- The body and its allocations have been written. -/
  | afterBody
  /-- A block comes next. -/
  | beforeBlock (block : Nat)
  /-- The terminator of a block has been written, its closing brace has not. -/
  | afterTerminator (block : Nat)
  /-- A statement or terminator comes next. -/
  | beforeLocation (location : Location)
  /-- A statement or terminator and its comments have been written. -/
  | afterLocation (location : Location)
deriving DecidableEq, Repr

/-- The line that marks a point in an annotated listing. -/
def Point.line : Point → String
  | .beforeBody => "@BeforeCFG\n"
  | .afterBody => "@AfterCFG\n"
  | .beforeBlock block => "@BeforeBlock " ++ block.repr ++ "\n"
  | .afterTerminator block => "@AfterTerminator " ++ block.repr ++ "\n"
  | .beforeLocation location => "@BeforeLocation " ++ location.text ++ "\n"
  | .afterLocation location => "@AfterLocation " ++ location.text ++ "\n"

/-- A part of a listing. -/
inductive Piece
  /-- Text. -/
  | text (s : String)
  /-- A point. -/
  | point (p : Point)
deriving DecidableEq, Repr

/-! ## Listings -/

/-- The pieces written and the failure that stopped the writing. -/
structure Listing where
  /-- The pieces in order. -/
  pieces : List Piece := []
  /-- Why the writing stopped, none if it was finished. -/
  failure? : Option Failure := none
deriving Repr

namespace Listing

/-- The listing of nothing. -/
def empty : Listing := {}

/-- A text. -/
def text (s : String) : Listing := { pieces := [.text s] }

/-- A point. -/
def point (p : Point) : Listing := { pieces := [.point p] }

/-- A failure. -/
def fail (failure : Failure) : Listing := { failure? := some failure }

/-- A text that may have failed to be put together. -/
def ofOutcome : Outcome String → Listing
  | .ok s => text s
  | .error failure => fail failure

/-- One listing after another, unless the first has failed. -/
def append (a b : Listing) : Listing :=
  match a.failure? with
  | none => ⟨a.pieces ++ b.pieces, b.failure?⟩
  | some _ => a

instance : Append Listing := ⟨append⟩

/-- Listings one after another. -/
def concat : List Listing → Listing
  | [] => empty
  | listing :: rest => listing ++ concat rest

theorem append_def (a b : Listing) : a ++ b = append a b := rfl

@[simp] theorem empty_append (a : Listing) : empty ++ a = a := rfl

@[simp] theorem append_empty (a : Listing) : a ++ empty = a := by
  obtain ⟨pieces, failure?⟩ := a
  cases failure? <;> simp [append_def, append, empty]

theorem append_assoc (a b c : Listing) : a ++ b ++ c = a ++ (b ++ c) := by
  obtain ⟨pieces, failure?⟩ := a
  cases failure? with
  | some => rfl
  | none =>
    obtain ⟨more, failure?⟩ := b
    cases failure? <;> simp [append_def, append]

@[simp] theorem concat_nil : concat [] = empty := rfl

@[simp] theorem concat_cons (a : Listing) (rest : List Listing) :
    concat (a :: rest) = a ++ concat rest := rfl

/-! ## Rendering -/

/-- The text of pieces, each point replaced by what a function gives for it. -/
def textWith (mark : Point → String) : List Piece → String
  | [] => ""
  | .text s :: rest => s ++ textWith mark rest
  | .point p :: rest => mark p ++ textWith mark rest

/-- The text written so far, without points. -/
def written (l : Listing) : String := textWith (fun _ => "") l.pieces

/-- The text written so far, with the points marked. -/
def writtenWith (mark : Point → String) (l : Listing) : String := textWith mark l.pieces

/-- The whole text, without points. -/
def render (l : Listing) : Outcome String :=
  match l.failure? with
  | none => .ok l.written
  | some failure => .error failure

/-- The whole text, with the points marked. -/
def renderWith (mark : Point → String) (l : Listing) : Outcome String :=
  match l.failure? with
  | none => .ok (l.writtenWith mark)
  | some failure => .error failure

theorem textWith_append (mark : Point → String) (a b : List Piece) :
    textWith mark (a ++ b) = textWith mark a ++ textWith mark b := by
  induction a with
  | nil => simp [textWith]
  | cons piece rest ih => cases piece <;> simp [textWith, ih, String.append_assoc]

end Listing

end MirListing
