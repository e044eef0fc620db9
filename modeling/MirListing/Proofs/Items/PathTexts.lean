import MirListing.Item.Identity
import MirListing.Proofs.Listing.Failing
import MirListing.Proofs.Text.Numerals
import MirListing.Proofs.Text.Pieces

/-!
# Path texts

Many texts write one path down: colons may stand around it or be repeated inside it, and a
disambiguator may have zeros in front or digits of any script.  The written form of the path is the
one among them that reading and writing again does not change (`ItemId.pathText_is_canonical`).

The form of a component is its name, or its name and its disambiguator in decimal digits.  It reads
as the component (`Component.parse_describe`), since its last `#` is the one in front of the
disambiguator.  It does not end with a colon unless the text of the component did, and the texts of
components are `Separable` by doubled colons; so the forms are separable as well, and cutting the
path at doubled colons gives them back.

A disambiguator of zero is not written, and what it has stood behind is then read in its own way:
`a#5#0` is the component `a#5` without a disambiguator, but its form `a#5` is a component `a` with
one.  So texts with such a disambiguator are left out (`WithoutZeros`).
-/

namespace MirListing

/-! ## Components -/

theorem Value.integerOfText_eq_ok_iff {text : String} {n : Int} :
    integerOfText text = .ok n ↔ Text.readInteger text.toList = .ok n := by
  rw [integerOfText, integerOf, Spelling.plain_text]
  cases Text.readInteger text.toList with
  | ok m => simp
  | error fault => cases fault <;> simp

/-- A text ends with a disambiguator that is zero. -/
def EndsInZero (text : List Char) : Prop :=
  ∃ name digits, text = name ++ '#' :: digits ∧ digits ≠ [] ∧
    ∀ c ∈ digits, Text.decimalValue? c = some 0

/-- A text that ends in zero has a zero as its last character. -/
theorem EndsInZero.getLast? {text : List Char} (h : EndsInZero text) :
    text.getLast?.bind Text.decimalValue? = some 0 := by
  obtain ⟨name, digits, rfl, hne, hzero⟩ := h
  have hlast := List.getLast?_eq_some_getLast hne
  rw [List.getLast?_append_of_ne_nil _ (List.cons_ne_nil _ _), List.getLast?_cons, hlast,
    Option.getD_some, Option.bind_some]
  exact hzero _ (List.getLast_mem hne)

namespace Component

/-- The component that a name and the digits of a disambiguator make. -/
def ofDigits (name digits : List Char) : Component :=
  { name := String.ofList name, disambiguator := Text.ofDigits (digits.map Text.digitValue) }

/-- A text from which a component with a disambiguator can be read. -/
structure Marked (name digits : List Char) : Prop where
  /-- Something stands in front of the mark. -/
  name_ne_nil : name ≠ []
  /-- Something stands behind it. -/
  digits_ne_nil : digits ≠ []
  /-- What stands behind it are digits. -/
  isDecimal : ∀ c ∈ digits, Text.isDecimal c = true
  /-- There are not too many of them. -/
  length_le : digits.length ≤ Text.digitLimit

variable {part name digits : List Char} {c : Component}

theorem Marked.mark_notMem (h : Marked name digits) : '#' ∉ digits := by
  intro hmem
  exact absurd (h.isDecimal '#' hmem) (by decide)

theorem parse_of_marked (h : Marked name digits) :
    parse (name ++ '#' :: digits) = .ok (ofDigits name digits) := by
  have hall : digits.all Text.isDigit = true :=
    List.all_eq_true.2 fun c hc => Text.isDigit_of_isDecimal (h.isDecimal c hc)
  have hcondition : (!name.isEmpty && !digits.isEmpty && digits.all Text.isDigit) = true := by
    simp only [hall, List.isEmpty_eq_false_iff.2 h.name_ne_nil,
      List.isEmpty_eq_false_iff.2 h.digits_ne_nil]
    rfl
  have hread : Value.integerOfText (String.ofList digits) =
      .ok (Text.ofDigits (digits.map Text.digitValue) : Int) := by
    rw [Value.integerOfText_eq_ok_iff, String.toList_ofList,
      Text.readInteger_of_isDecimal h.digits_ne_nil h.isDecimal, if_neg (Nat.not_lt.2 h.length_le)]
  rw [parse, Text.splitLast_append h.mark_notMem]
  simp only [hcondition, if_true, hread]
  rfl

/-- The text of a component is its name, or its name and its disambiguator. -/
theorem parse_cases (h : parse part = .ok c) :
    c = { name := String.ofList part } ∨
      ∃ name digits, part = name ++ '#' :: digits ∧ Marked name digits ∧
        c = ofDigits name digits := by
  unfold parse at h
  split at h
  · rename_i name digits hsplit
    obtain ⟨rfl, -⟩ := Text.splitLast_eq_some hsplit
    split at h
    · rename_i hcondition
      simp only [Bool.and_eq_true, Bool.not_eq_true', List.isEmpty_eq_false_iff] at hcondition
      obtain ⟨⟨hname, hdigits⟩, hall⟩ := hcondition
      obtain ⟨n, hread, hc⟩ := bind_eq_ok_iff.1 h
      rw [Value.integerOfText_eq_ok_iff, String.toList_ofList] at hread
      have hdecimal := Text.isDecimal_of_readInteger (List.all_eq_true.1 hall) hread
      rw [Text.readInteger_of_isDecimal hdigits hdecimal] at hread
      split at hread
      · cases hread
      · rename_i hlength
        cases hread
        cases hc
        exact .inr ⟨name, digits, rfl, ⟨hname, hdigits, hdecimal, Nat.le_of_not_lt hlength⟩, rfl⟩
    · cases h
      exact .inl rfl
  · cases h
    exact .inl rfl

/-! ## Forms of components -/

theorem describe_plain (text : List Char) :
    (describe { name := String.ofList text }).toList = text := by
  rw [describe, if_pos rfl, String.toList_ofList]

/-- A disambiguator is not zero if the text does not end in zero. -/
theorem Marked.disambiguator_ne_zero (h : Marked name digits)
    (hzero : ¬EndsInZero (name ++ '#' :: digits)) : (ofDigits name digits).disambiguator ≠ 0 := by
  intro hvalue
  refine hzero ⟨name, digits, rfl, h.digits_ne_nil, fun c hc => ?_⟩
  rw [Text.decimalValue?_of_isDecimal (h.isDecimal c hc), Text.digitValue_eq_zero hvalue c hc]

/-- The form of a component with a disambiguator is such a text again, for the same component. -/
theorem Marked.describe_eq (h : Marked name digits)
    (hzero : ¬EndsInZero (name ++ '#' :: digits)) :
    ∃ digits', (ofDigits name digits).describe.toList = name ++ '#' :: digits' ∧
      Marked name digits' ∧ ofDigits name digits' = ofDigits name digits := by
  refine ⟨(ofDigits name digits).disambiguator.repr.toList, ?_, ?_, ?_⟩
  · rw [describe, if_neg (h.disambiguator_ne_zero hzero), String.toList_append,
      String.toList_append, List.append_assoc, ofDigits, String.toList_ofList]
    rfl
  · refine ⟨h.name_ne_nil, Text.toList_repr_ne_nil _, fun c hc => Text.isDecimal_of_mem_repr hc, ?_⟩
    rw [String.length_toList]
    exact Nat.le_trans (Text.length_repr_ofDigits_le h.digits_ne_nil h.isDecimal) h.length_le
  · rw [ofDigits, Text.ofDigits_repr]
    rfl

/-- A component is read from its form. -/
theorem parse_describe (h : parse part = .ok c) (hzero : ¬EndsInZero part) :
    parse c.describe.toList = .ok c := by
  obtain rfl | ⟨name, digits, rfl, hmarked, rfl⟩ := parse_cases h
  · rw [describe_plain]
    exact h
  · obtain ⟨digits', hform, hmarked', hsame⟩ := hmarked.describe_eq hzero
    rw [hform, parse_of_marked hmarked', hsame]

/-- The form of a component doubles no colon where its text did not. -/
theorem undoubled_describe (h : parse part = .ok c) (hzero : ¬EndsInZero part) {rest : List Char}
    (hrest : Text.Undoubled ':' rest) (hpart : Text.Undoubled ':' (part ++ rest)) :
    Text.Undoubled ':' (c.describe.toList ++ rest) := by
  obtain rfl | ⟨name, digits, rfl, hmarked, rfl⟩ := parse_cases h
  · rw [describe_plain]
    exact hpart
  · obtain ⟨digits', hform, hmarked', -⟩ := hmarked.describe_eq hzero
    have hcolon : ':' ∉ digits' := fun hmem => absurd (hmarked'.isDecimal ':' hmem) (by decide)
    rw [List.append_assoc, List.cons_append] at hpart
    rw [hform, List.append_assoc, List.cons_append]
    exact hpart.append_cons (by decide) (hrest.append hcolon)

theorem describe_ne_nil (h : parse part = .ok c) (hzero : ¬EndsInZero part) (hne : part ≠ []) :
    c.describe.toList ≠ [] := by
  obtain rfl | ⟨name, digits, rfl, hmarked, rfl⟩ := parse_cases h
  · rw [describe_plain]
    exact hne
  · obtain ⟨digits', hform, -⟩ := hmarked.describe_eq hzero
    rw [hform]
    exact List.append_ne_nil_of_right_ne_nil _ (List.cons_ne_nil _ _)

/-- The form of what a text of a component has been read as. -/
def formOf : Outcome Component → List Char
  | .ok c => c.describe.toList
  | .error _ => []

end Component

/-! ## Paths -/

/-- The texts of the components in the text of a path: what stands between doubled colons and is not
empty. -/
def pathParts (text : String) : List (List Char) :=
  (Text.cutPairs ':' text.toList).filter (!·.isEmpty)

/-- No component of a path text ends with a disambiguator that is zero. -/
def WithoutZeros (text : String) : Prop := ∀ part ∈ pathParts text, ¬EndsInZero part

theorem ne_nil_of_mem_pathParts {text : String} {part : List Char} (h : part ∈ pathParts text) :
    part ≠ [] := by
  simpa using (List.mem_filter.1 h).2

theorem separable_pathParts (text : String) : Text.Separable ':' (pathParts text) :=
  (Text.separable_cutPairs ':' text.toList).filter _

/-- Separable texts that are not empty are the components of the path that they make. -/
theorem pathParts_intercalate {parts : List (List Char)} (hparts : parts ≠ [])
    (hne : ∀ part ∈ parts, part ≠ []) (h : Text.Separable ':' parts) :
    pathParts (String.ofList ([':', ':'].intercalate parts)) = parts := by
  rw [pathParts, String.toList_ofList, h.cutPairs_intercalate hparts, List.filter_eq_self]
  intro part hpart
  simpa using hne part hpart

namespace ItemId

variable {text : String} {crate locality : Label} {id : ItemId}

theorem parse_eq_ok_iff :
    parse text crate locality = .ok id ↔
      pathParts text ≠ [] ∧ (pathParts text).mapM Component.parse = .ok id.path ∧
        id.crate = crate ∧ id.locality = locality := by
  have hparts : (Text.cutPairs ':' text.toList).filter (!·.isEmpty) = pathParts text := rfl
  rw [parse, hparts]
  cases pathParts text with
  | nil => simp
  | cons part parts =>
    simp only [ne_eq, List.cons_ne_nil, not_false_eq_true, true_and, bind_eq_ok_iff]
    constructor
    · rintro ⟨path, hpath, heq⟩
      cases heq
      exact ⟨hpath, rfl, rfl⟩
    · rintro ⟨hpath, rfl, rfl⟩
      exact ⟨_, hpath, rfl⟩

theorem componentsText_eq (id : ItemId) :
    id.componentsText =
      String.ofList ([':', ':'].intercalate (id.path.map fun c => c.describe.toList)) := by
  rw [← String.toList_inj, String.toList_ofList, componentsText, String.toList_intercalate,
    List.map_map]
  rfl

/-- The components of the written form are the forms of the components. -/
theorem pathParts_componentsText (h : parse text crate locality = .ok id)
    (hzeros : WithoutZeros text) :
    pathParts id.componentsText = id.path.map fun c => c.describe.toList := by
  obtain ⟨hne, hread, -, -⟩ := parse_eq_ok_iff.1 h
  have hcomponents := mapM_eq_ok_iff.1 hread
  have hforms : id.path.map (fun c => c.describe.toList) =
      (pathParts text).map fun part => Component.formOf (Component.parse part) := by
    have hmapped := congrArg (List.map Component.formOf) hcomponents
    rw [List.map_map, List.map_map] at hmapped
    exact hmapped.symm
  have hreads : ∀ part ∈ pathParts text, ∃ c, Component.parse part = .ok c ∧
      Component.formOf (Component.parse part) = c.describe.toList := by
    intro part hpart
    have hmem : Component.parse part ∈ id.path.map Except.ok :=
      hcomponents ▸ List.mem_map_of_mem hpart
    obtain ⟨c, -, hc⟩ := List.mem_map.1 hmem
    refine ⟨c, hc.symm, ?_⟩
    rw [← hc, Component.formOf]
  rw [componentsText_eq, hforms]
  refine pathParts_intercalate (by simpa using hne) ?_ ?_
  · intro _ hmem
    obtain ⟨part, hpart, rfl⟩ := List.mem_map.1 hmem
    obtain ⟨c, hc, heq⟩ := hreads part hpart
    rw [heq]
    exact Component.describe_ne_nil hc (hzeros part hpart) (ne_nil_of_mem_pathParts hpart)
  · refine (separable_pathParts text).map fun part hpart rest hrest hundoubled => ?_
    obtain ⟨c, hc, heq⟩ := hreads part hpart
    rw [heq]
    exact Component.undoubled_describe hc (hzeros part hpart) hrest hundoubled

/-- The written form of a path reads as the path. -/
theorem parse_componentsText (h : parse text crate locality = .ok id)
    (hzeros : WithoutZeros text) : parse id.componentsText crate locality = .ok id := by
  obtain ⟨hne, hread, hcrate, hlocality⟩ := parse_eq_ok_iff.1 h
  have hparts := pathParts_componentsText h hzeros
  have hcomponents := mapM_eq_ok_iff.1 hread
  refine parse_eq_ok_iff.2 ⟨?_, ?_, hcrate, hlocality⟩
  · intro hnil
    rw [hparts, List.map_eq_nil_iff] at hnil
    rw [hnil] at hcomponents
    exact hne (List.map_eq_nil_iff.1 hcomponents)
  · rw [hparts, mapM_eq_ok_iff, List.map_map]
    refine List.map_congr_left fun c hc => ?_
    -- every component has been read from a part of the text
    obtain ⟨part, hpart, hparse⟩ := exists_of_mem_mapM hread hc
    exact Component.parse_describe hparse (hzeros part hpart)

/-- The written form of a local item reads as the item, from whatever text without zeros the item
has been read.  So local items with one written form have one path. -/
theorem pathText_is_canonical (hlocal : locality.isGiven = true)
    (h : parse text crate locality = .ok id) (hzeros : WithoutZeros text) :
    parse id.pathText crate locality = .ok id ∧
      ∀ (otherText : String) (otherCrate otherLocality : Label) (other : ItemId),
        otherLocality.isGiven = true → parse otherText otherCrate otherLocality = .ok other →
        WithoutZeros otherText → id.pathText = other.pathText → id.path = other.path := by
  have hform : ∀ {text : String} {crate locality : Label} {id : ItemId},
      locality.isGiven = true → parse text crate locality = .ok id → WithoutZeros text →
      parse id.pathText crate locality = .ok id := by
    intro text crate locality id hlocal h hzeros
    have hisLocal : id.isLocal = true := by
      rw [isLocal, (parse_eq_ok_iff.1 h).2.2.2]
      exact hlocal
    rw [pathText, if_pos hisLocal]
    exact parse_componentsText h hzeros
  have hread := hform hlocal h hzeros
  refine ⟨hread, ?_⟩
  intro otherText otherCrate otherLocality other hotherLocal hother hotherZeros hsame
  have hotherRead := hform hotherLocal hother hotherZeros
  rw [← hsame] at hotherRead
  have hpath := (parse_eq_ok_iff.1 hread).2.1
  have hotherPath := (parse_eq_ok_iff.1 hotherRead).2.1
  exact Except.ok.inj (hpath.symm.trans hotherPath)

/-- A path text with colons around and between its components, several marks in a component, and
zeros and digits of another script in a disambiguator. -/
def colonsText : String := ":::a#b#00\u0663::::f#2:::c#:"

/-- The item that it stands for. -/
def colonsItem : ItemId :=
  { crate := .string "crate", path := [⟨":a#b", 3⟩, ⟨"f", 2⟩, ⟨":c#:", 0⟩] }

theorem pathText_is_canonical_colons :
    parse colonsText = .ok colonsItem ∧ WithoutZeros colonsText ∧
      colonsItem.pathText = ":a#b#3::f#2:::c#:" ∧ parse ":a#b#3::f#2:::c#:" = .ok colonsItem := by
  have hparse : parse colonsText = .ok colonsItem := by
    with_unfolding_all rfl
  have hzeros : WithoutZeros colonsText := by
    have hlast : ∀ part ∈ pathParts colonsText, part.getLast?.bind Text.decimalValue? ≠ some 0 := by
      decide +kernel
    intro part hpart hzero
    exact hlast part hpart hzero.getLast?
  have htext : colonsItem.pathText = ":a#b#3::f#2:::c#:" := by
    decide +kernel
  have hread := (pathText_is_canonical rfl hparse hzeros).1
  rw [htext] at hread
  exact ⟨hparse, hzeros, htext, hread⟩

end ItemId

end MirListing
