/-!
# Texts in fields of a fixed width

A line of a listing is padded on the right up to the column of its comment, and the label of a
pointer stands in the middle of its field.  Widths count characters; a text that is too wide is
never cut.
-/

namespace MirListing.Text

/-- A text padded with spaces on the right. -/
def padRight (width : Nat) (text : String) : String :=
  text ++ String.ofList (List.replicate (width - text.length) ' ')

/-- A text in the middle of a field; of the padding, the smaller half stands on the left. -/
def centre (fill : Char) (width : Nat) (text : List Char) : List Char :=
  let padding := width - text.length
  List.replicate (padding / 2) fill ++ text ++ List.replicate (padding - padding / 2) fill

theorem length_centre (fill : Char) (width : Nat) (text : List Char) :
    (centre fill width text).length = max width text.length := by
  simp only [centre, List.length_append, List.length_replicate]
  omega

end MirListing.Text
