import Mathlib.Data.List.Chain
import MirListing.Text.Cut

/-!
# Pieces of a text

Cutting a text at a character and joining pieces with this character undo each other.  The pieces of
a text, joined, are the text (`intercalate_cut`), so a text is known from its pieces
(`cut_injective`).  Pieces without the character come back from the text that they make
(`cut_intercalate`), so such pieces are known from the text.

Where the separator is a doubled character, a piece may have the character inside, but not twice in
a row, and a piece that ends with it would let the separator begin too early.  Pieces without these
faults are `Separable`: they come back from the text that they make
(`Separable.cutPairs_intercalate`), and the pieces of any text are such (`separable_cutPairs`).
-/

namespace MirListing.Text

variable {separator : Char}

theorem cut_eq_splitOn (separator : Char) (text : List Char) :
    cut separator text = text.splitOn separator := by
  induction text with
  | nil => exact (List.splitOn_nil separator).symm
  | cons c rest ih =>
    rw [cut, List.splitOn_cons_eq_if_modifyHead, ih]
    simp only [beq_iff_eq]
    split
    · rfl
    · -- there is a first piece that the character is put in front of
      cases hpieces : rest.splitOn separator with
      | nil => exact absurd hpieces (List.splitOn_ne_nil separator rest)
      | cons piece pieces => rfl

theorem intercalate_cut (separator : Char) (text : List Char) :
    [separator].intercalate (cut separator text) = text := by
  rw [cut_eq_splitOn, List.intercalate_splitOn]

/-- A text is known from its pieces. -/
theorem cut_injective (separator : Char) : Function.Injective (cut separator) :=
  Function.LeftInverse.injective (intercalate_cut separator)

theorem cut_intercalate {pieces : List (List Char)} (hne : pieces ≠ [])
    (h : ∀ piece ∈ pieces, separator ∉ piece) :
    cut separator ([separator].intercalate pieces) = pieces := by
  rw [cut_eq_splitOn, List.splitOn_intercalate separator h hne]

/-- Two texts around a separator are cut one after the other. -/
theorem cut_append (text rest : List Char) :
    cut separator (text ++ separator :: rest) = cut separator text ++ cut separator rest := by
  simp only [cut_eq_splitOn, List.splitOn_append_cons_self]

theorem cut_of_notMem {text : List Char} (h : separator ∉ text) : cut separator text = [text] := by
  rw [cut_eq_splitOn, List.splitOn_eq_singleton h]

theorem notMem_of_mem_cut {text piece : List Char} (h : piece ∈ cut separator text) :
    separator ∉ piece := by
  induction text generalizing piece with
  | nil =>
    obtain rfl := List.mem_singleton.1 h
    exact List.not_mem_nil
  | cons c rest ih =>
    rw [cut] at h
    split at h
    · obtain rfl | hrest := List.mem_cons.1 h
      · exact List.not_mem_nil
      · exact ih hrest
    · rename_i hc
      cases hpieces : cut separator rest with
      | nil => exact absurd hpieces (cut_ne_nil separator rest)
      | cons first pieces =>
        rw [hpieces] at h ih
        obtain rfl | hrest := List.mem_cons.1 h
        · exact List.not_mem_cons_of_ne_of_not_mem (Ne.symm hc) (ih List.mem_cons_self)
        · exact ih (List.mem_cons_of_mem _ hrest)

/-- A character of joined pieces is the one they are joined with or one of a piece. -/
theorem mem_intercalate {pieces : List (List Char)} {c : Char}
    (h : c ∈ [separator].intercalate pieces) : c = separator ∨ ∃ piece ∈ pieces, c ∈ piece := by
  induction pieces with
  | nil => cases h
  | cons piece rest ih =>
    cases rest with
    | nil =>
      rw [List.intercalate_singleton] at h
      exact .inr ⟨piece, List.mem_cons_self, h⟩
    | cons next rest =>
      rw [List.intercalate_cons_cons, List.append_assoc, List.mem_append, List.singleton_append,
        List.mem_cons] at h
      obtain hpiece | hseparator | hrest := h
      · exact .inr ⟨piece, List.mem_cons_self, hpiece⟩
      · exact .inl hseparator
      · exact (ih hrest).imp_right fun ⟨other, hmem, hc⟩ =>
          ⟨other, List.mem_cons_of_mem _ hmem, hc⟩

/-- The characters of a piece are among those of the joined pieces. -/
theorem mem_intercalate_of_mem {pieces : List (List Char)} {piece : List Char} {c : Char}
    (hpiece : piece ∈ pieces) (hc : c ∈ piece) : c ∈ [separator].intercalate pieces := by
  induction pieces with
  | nil => cases hpiece
  | cons first rest ih =>
    cases rest with
    | nil =>
      obtain rfl := List.mem_singleton.1 hpiece
      rwa [List.intercalate_singleton]
    | cons next rest =>
      rw [List.intercalate_cons_cons, List.mem_append, List.mem_append]
      obtain rfl | hrest := List.mem_cons.1 hpiece
      · exact .inl (.inl hc)
      · exact .inr (ih hrest)

/-! ## Doubled separators -/

/-- A text in which no separator stands next to another. -/
def Undoubled (separator : Char) (text : List Char) : Prop :=
  text.IsChain fun c d => ¬(c = separator ∧ d = separator)

/-- Pieces that are told apart by doubled separators between them: none has a doubled one inside,
and none but the last one ends with a separator. -/
structure Separable (separator : Char) (pieces : List (List Char)) : Prop where
  /-- No piece has a doubled separator inside. -/
  inside : ∀ piece ∈ pieces, Undoubled separator piece
  /-- One more separator doubles none, behind all pieces that others follow. -/
  behind : pieces.Pairwise fun piece _ => Undoubled separator (piece ++ [separator])

theorem Undoubled.cons {c : Char} {text : List Char} (h : Undoubled separator text)
    (hfirst : ∀ d ∈ text.head?, ¬(c = separator ∧ d = separator)) :
    Undoubled separator (c :: text) := List.IsChain.cons h hfirst

/-- A text begins with its first piece, unless it begins with a separator and the piece is empty. -/
theorem head?_of_cutPairs {c : Char} {rest piece : List Char} {pieces : List (List Char)}
    (h : cutPairs separator (c :: rest) = piece :: pieces) :
    piece.head? = some c ∨ piece = [] ∧ c = separator := by
  cases rest with
  | nil =>
    obtain ⟨rfl, -⟩ := List.cons.inj h
    exact .inl rfl
  | cons d rest =>
    rw [cutPairs] at h
    split at h
    · rename_i hpair
      obtain ⟨rfl, -⟩ := List.cons.inj h
      exact .inr ⟨rfl, hpair.1⟩
    · cases hcut : cutPairs separator (d :: rest) with
      | nil => exact absurd hcut (cutPairs_ne_nil _ _)
      | cons first more =>
        rw [hcut, extendFirst] at h
        obtain ⟨rfl, -⟩ := List.cons.inj h
        exact .inl rfl

theorem separable_cutPairs (separator : Char) (text : List Char) :
    Separable separator (cutPairs separator text) := by
  fun_induction cutPairs separator text with
  | case1 => exact ⟨by simp [Undoubled], List.pairwise_singleton _ _⟩
  | case2 c => exact ⟨by simp [Undoubled], List.pairwise_singleton _ _⟩
  | case3 c d rest hpair ih =>
    refine ⟨List.forall_mem_cons.2 ⟨.nil, ih.inside⟩, List.pairwise_cons.2 ⟨?_, ih.behind⟩⟩
    intro _ _
    exact .singleton _
  | case4 c d rest hpair ih =>
    cases hcut : cutPairs separator (d :: rest) with
    | nil => exact absurd hcut (cutPairs_ne_nil _ _)
    | cons piece pieces =>
      rw [hcut] at ih
      obtain ⟨hpiece, hinside⟩ := List.forall_mem_cons.1 ih.inside
      obtain ⟨hbehind, hrest⟩ := List.pairwise_cons.1 ih.behind
      have hhead := head?_of_cutPairs hcut
      rw [extendFirst]
      refine ⟨List.forall_mem_cons.2 ⟨hpiece.cons ?_, hinside⟩, List.pairwise_cons.2 ⟨?_, hrest⟩⟩
      · intro x hx
        obtain hsome | ⟨rfl, -⟩ := hhead
        · rw [hsome] at hx
          exact Option.some.inj hx ▸ hpair
        · cases hx
      · intro other hother
        refine (hbehind other hother).cons fun x hx => ?_
        obtain hsome | ⟨rfl, rfl⟩ := hhead
        · rw [List.head?_append, hsome] at hx
          exact Option.some.inj hx ▸ hpair
        · exact Option.some.inj hx ▸ hpair

theorem cutPairs_of_undoubled {text : List Char} (h : Undoubled separator text) :
    cutPairs separator text = [text] := by
  induction text with
  | nil => rfl
  | cons c rest ih =>
    cases rest with
    | nil => rfl
    | cons d rest =>
      obtain ⟨hpair, hrest⟩ := List.isChain_cons_cons.1 h
      rw [cutPairs, if_neg hpair, ih hrest, extendFirst]

/-- What stands before a doubled separator is a piece, if the separator doubles no other. -/
theorem cutPairs_append {text : List Char} (h : Undoubled separator (text ++ [separator]))
    (rest : List Char) :
    cutPairs separator (text ++ separator :: separator :: rest) =
      text :: cutPairs separator rest := by
  induction text with
  | nil => rw [List.nil_append, cutPairs, if_pos ⟨rfl, rfl⟩]
  | cons c text ih =>
    cases text with
    | nil =>
      have hpair := (List.isChain_cons_cons.1 h).1
      have hrest := ih (.singleton _)
      rw [List.nil_append] at hrest
      rw [List.singleton_append, cutPairs, if_neg hpair, hrest, extendFirst]
    | cons d text =>
      obtain ⟨hpair, hrest⟩ := List.isChain_cons_cons.1 h
      have hcut := ih hrest
      rw [List.cons_append] at hcut
      rw [List.cons_append, List.cons_append, cutPairs, if_neg hpair, hcut, extendFirst]

/-- Pieces come back from the text that they make with doubled separators between them. -/
theorem Separable.cutPairs_intercalate {pieces : List (List Char)} (h : Separable separator pieces)
    (hne : pieces ≠ []) :
    cutPairs separator ([separator, separator].intercalate pieces) = pieces := by
  induction pieces with
  | nil => exact absurd rfl hne
  | cons piece pieces ih =>
    obtain ⟨hpiece, hinside⟩ := List.forall_mem_cons.1 h.inside
    obtain ⟨hbehind, hrest⟩ := List.pairwise_cons.1 h.behind
    cases pieces with
    | nil => rw [List.intercalate_singleton, cutPairs_of_undoubled hpiece]
    | cons next more =>
      rw [List.intercalate_cons_cons, List.append_assoc, List.cons_append, List.singleton_append,
        cutPairs_append (hbehind next List.mem_cons_self),
        ih ⟨hinside, hrest⟩ (List.cons_ne_nil _ _)]

/-- Pieces can be left out. -/
theorem Separable.filter {pieces : List (List Char)} (h : Separable separator pieces)
    (keep : List Char → Bool) : Separable separator (pieces.filter keep) :=
  ⟨fun piece hpiece => h.inside piece (List.mem_filter.1 hpiece).1, h.behind.filter keep⟩

/-- Nothing that follows another character than the separator doubles it. -/
theorem Undoubled.append_cons {text rest rest' : List Char} {c : Char} (hc : c ≠ separator)
    (h : Undoubled separator (text ++ c :: rest)) (hrest' : Undoubled separator rest') :
    Undoubled separator (text ++ c :: rest') := by
  have hbehind : Undoubled separator (c :: rest') := hrest'.cons fun _ _ hpair => hc hpair.1
  exact List.isChain_split.2 ⟨(List.isChain_split.1 h).1, hbehind⟩

/-- A text without the separator doubles none that comes behind it. -/
theorem Undoubled.append {text rest : List Char} (htext : separator ∉ text)
    (hrest : Undoubled separator rest) : Undoubled separator (text ++ rest) := by
  induction text with
  | nil => exact hrest
  | cons c text ih =>
    rw [List.mem_cons, not_or] at htext
    exact (ih htext.2).cons fun _ _ hpair => htext.1 hpair.1.symm

/-- Pieces can be replaced by others that double no separator where they did not. -/
theorem Separable.map {pieces : List (List Char)} (h : Separable separator pieces)
    {f : List Char → List Char}
    (hf : ∀ piece ∈ pieces, ∀ rest, Undoubled separator rest →
      Undoubled separator (piece ++ rest) → Undoubled separator (f piece ++ rest)) :
    Separable separator (pieces.map f) := by
  constructor
  · intro _ hmem
    obtain ⟨piece, hpiece, rfl⟩ := List.mem_map.1 hmem
    have hkept := hf piece hpiece [] .nil
    simp only [List.append_nil] at hkept
    exact hkept (h.inside piece hpiece)
  · rw [List.pairwise_map]
    exact h.behind.imp_of_mem fun hpiece _ hbehind => hf _ hpiece _ (.singleton _) hbehind

/-! ## The last separator -/

/-- A text is divided at a separator if none comes behind it. -/
theorem splitLast_append {before after : List Char} (h : separator ∉ after) :
    splitLast separator (before ++ separator :: after) = some (before, after) := by
  induction before with
  | nil =>
    have hnone : splitLast separator after = none := by
      cases hsplit : splitLast separator after with
      | none => rfl
      | some parts =>
        obtain ⟨heq, -⟩ := splitLast_eq_some hsplit
        exact absurd (heq ▸ List.mem_append_right _ List.mem_cons_self) h
    rw [List.nil_append, splitLast, hnone]
    exact if_pos rfl
  | cons c before ih => rw [List.cons_append, splitLast, ih]

end MirListing.Text
