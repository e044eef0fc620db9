/-!
# Cutting texts at separators

`cut` divides a text at every occurrence of one character, `cutPairs` at every occurrence of a
character written twice, taken from the left.  `splitLast` divides at the last occurrence of a
character, and `occursIn` says that one text is part of another.  Each is plain recursion on the
characters.
-/

namespace MirListing.Text

/-! ## Pieces between separators -/

/-- A character put in front of the first of some pieces. -/
def extendFirst (c : Char) : List (List Char) → List (List Char)
  | [] => [[c]]
  | piece :: pieces => (c :: piece) :: pieces

/-- The pieces of a text between the occurrences of a separator; always at least one. -/
def cut (separator : Char) : List Char → List (List Char)
  | [] => [[]]
  | c :: rest =>
      if c = separator then [] :: cut separator rest else extendFirst c (cut separator rest)

theorem extendFirst_ne_nil (c : Char) (pieces : List (List Char)) : extendFirst c pieces ≠ [] := by
  cases pieces <;> simp [extendFirst]

theorem cut_ne_nil (separator : Char) (text : List Char) : cut separator text ≠ [] := by
  cases text with
  | nil => simp [cut]
  | cons c rest =>
    rw [cut]
    split
    · simp
    · exact extendFirst_ne_nil _ _

/-- The pieces between doubled separators.  A run of three is a doubled one and a single one. -/
def cutPairs (separator : Char) : List Char → List (List Char)
  | [] => [[]]
  | [c] => [[c]]
  | c :: d :: rest =>
      if c = separator ∧ d = separator then [] :: cutPairs separator rest
      else extendFirst c (cutPairs separator (d :: rest))

theorem cutPairs_ne_nil (separator : Char) (text : List Char) : cutPairs separator text ≠ [] := by
  unfold cutPairs
  split
  · simp
  · simp
  · split
    · simp
    · exact extendFirst_ne_nil _ _

/-! ## The last occurrence -/

/-- The texts before and after the last occurrence of a character. -/
def splitLast (separator : Char) : List Char → Option (List Char × List Char)
  | [] => none
  | c :: rest =>
      match splitLast separator rest with
      | some (before, after) => some (c :: before, after)
      | none => if c = separator then some ([], rest) else none

/-- Without a split the separator does not occur. -/
theorem notMem_of_splitLast_eq_none {separator : Char} {text : List Char}
    (h : splitLast separator text = none) : separator ∉ text := by
  induction text with
  | nil => simp
  | cons c rest ih =>
    rw [splitLast] at h
    split at h
    · simp at h
    · rename_i hrest
      split at h
      · simp at h
      · rename_i hc
        exact fun hmem => (List.mem_cons.1 hmem).elim (fun heq => hc heq.symm) (ih hrest)

/-- A split puts the separator back where it was, and none stands after it. -/
theorem splitLast_eq_some {separator : Char} {text before after : List Char}
    (h : splitLast separator text = some (before, after)) :
    text = before ++ separator :: after ∧ separator ∉ after := by
  induction text generalizing before after with
  | nil => simp [splitLast] at h
  | cons c rest ih =>
    rw [splitLast] at h
    split at h
    · rename_i b a hrest
      obtain ⟨rfl, rfl⟩ : c :: b = before ∧ a = after := by simpa using h
      obtain ⟨hsplit, hnot⟩ := ih hrest
      exact ⟨by rw [hsplit, List.cons_append], hnot⟩
    · rename_i hrest
      split at h
      · rename_i hc
        obtain ⟨rfl, rfl⟩ : [] = before ∧ rest = after := by simpa using h
        exact ⟨by simp [hc], notMem_of_splitLast_eq_none hrest⟩
      · simp at h

/-- The texts before and after the first occurrence of a character. -/
def splitFirst (separator : Char) : List Char → Option (List Char × List Char)
  | [] => none
  | c :: rest =>
      if c = separator then some ([], rest)
      else (splitFirst separator rest).map fun (before, after) => (c :: before, after)

/-! ## Parts of a text -/

/-- Whether a text is part of another.  The empty text is part of every text. -/
def occursIn (part : List Char) : List Char → Bool
  | [] => part.isEmpty
  | c :: rest => part.isPrefixOf (c :: rest) || occursIn part rest

/-- A part is what stands between some text before it and some text after it. -/
theorem occursIn_iff {part text : List Char} :
    occursIn part text = true ↔ ∃ before after, text = before ++ part ++ after := by
  induction text with
  | nil =>
    simp only [occursIn, List.isEmpty_iff]
    constructor
    · rintro rfl
      exact ⟨[], [], rfl⟩
    · rintro ⟨before, after, h⟩
      simp only [List.nil_eq, List.append_eq_nil_iff] at h
      exact h.1.2
  | cons c rest ih =>
    simp only [occursIn, Bool.or_eq_true, ih, List.isPrefixOf_iff_prefix]
    constructor
    · rintro (⟨after, h⟩ | ⟨before, after, h⟩)
      · exact ⟨[], after, by simpa using h.symm⟩
      · exact ⟨c :: before, after, by simp [h]⟩
    · rintro ⟨before, after, h⟩
      cases before with
      | nil => exact .inl ⟨after, by simpa using h.symm⟩
      | cons b before =>
        simp only [List.cons_append, List.cons.injEq] at h
        exact .inr ⟨before, after, h.2⟩

/-! ## Strings -/

/-- The pieces of a string between the occurrences of a separator. -/
def cutString (separator : Char) (text : String) : List String :=
  (cut separator text.toList).map String.ofList

/-- Whether a string is part of another. -/
def contains (text part : String) : Bool := occursIn part.toList text.toList

example : cut '|' "a||b".toList = ["a".toList, [], "b".toList] := by decide
example : cutPairs ':' ":::a".toList = [[], ":a".toList] := by decide
example : splitLast '#' "a#b#1".toList = some ("a#b".toList, "1".toList) := by decide

end MirListing.Text
