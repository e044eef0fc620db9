import MirListing.Document.Shape
import MirListing.Number.Machine

/-!
# Positions that may count from the end

A position below zero counts from the end of a list: -1 is the last element.  `elementAt?` looks an
element up, and `elementAt` says what is wrong if there is none: nothing can stand at a position
that is no machine number, and at any other one there is merely nothing.
-/

namespace MirListing

/-- The element at a position. -/
def elementAt? {α : Type} (items : List α) (position : Int) : Option α :=
  if 0 ≤ position then items[position.toNat]?
  else if -(items.length : Int) ≤ position then items[(items.length + position).toNat]?
  else none

@[simp] theorem elementAt?_natCast {α : Type} (items : List α) (n : Nat) :
    elementAt? items n = items[n]? := by
  simp [elementAt?]

/-- The element at a position, or the failure of a position without one. -/
def elementAt {α : Type} (absent : Failure) (items : List α) (position : Int) : Outcome α :=
  match elementAt? items position with
  | some a => .ok a
  | none =>
      if IsMachineNumber position then .error absent else .error .positionTooLarge

theorem elementAt_eq_ok_iff {α : Type} {absent : Failure} {items : List α} {position : Int}
    {a : α} : elementAt absent items position = .ok a ↔ elementAt? items position = some a := by
  unfold elementAt
  split
  · simp_all
  · split <;> simp_all

example : elementAt? ["a", "b"] (-1) = some "b" := by decide
example : elementAt? ["a", "b"] (-3) = none := by decide

end MirListing
