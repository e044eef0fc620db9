/-!
# Machine numbers

An integer of a document has no bound.  Where it is used as a position or as a width it must be a
machine number.  That a text of some width may find no memory is left out: however wide it is, it is
written.
-/

namespace MirListing

/-- Integers of 64 bits, one of which is the sign. -/
def IsMachineNumber (n : Int) : Prop := -0x8000000000000000 ≤ n ∧ n < 0x8000000000000000

instance : DecidablePred IsMachineNumber := fun n =>
  inferInstanceAs (Decidable (-0x8000000000000000 ≤ n ∧ n < 0x8000000000000000))

example : IsMachineNumber (-2 ^ 63) ∧ ¬IsMachineNumber (2 ^ 63) := by decide

end MirListing
