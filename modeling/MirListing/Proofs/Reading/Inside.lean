import Mathlib.Logic.Relation
import MirListing.Document.Shape
import MirListing.Proofs.Listing.Failing

/-!
# Inside a document

A value holds its elements and what stands in its fields, and inside a value is what it holds, what
that holds, and so on.  A reader that succeeds on a value has called other readers on values inside:
it *yields* what those have read.  What a part of a program has been read from is found in this way,
one reader after the other, from the document down (`Yields.trans`).

A field that is absent reads as null or as a value of its own, which stands nowhere inside.  So the
lemmas about such fields ask for a value that is given.
-/

namespace MirListing

namespace Value

/-- A value holds another, as an element or in a field. -/
inductive Holds : Value → Value → Prop
  | element {value item : Value} {items : List Value} : value.elements = .ok items → item ∈ items →
      Holds value item
  | field {fields : Fields} {name : String} {value : Value} :
      Fields.field? name fields = some value → Holds (.object fields) value

/-- A value stands inside a document, or is the document. -/
def Inside : Value → Value → Prop := Relation.ReflTransGen Holds

/-- Something has been read from a value inside a document. -/
def Yields {α : Type} (document : Value) (read : Value → Outcome α) (a : α) : Prop :=
  ∃ value, document.Inside value ∧ read value = .ok a

theorem Inside.refl {document : Value} : document.Inside document := Relation.ReflTransGen.refl

theorem Inside.trans {document outer value : Value} (houter : document.Inside outer)
    (hvalue : outer.Inside value) : document.Inside value :=
  Relation.ReflTransGen.trans houter hvalue

theorem inside_of_field? {fields : Fields} {name : String} {value : Value}
    (h : Fields.field? name fields = some value) : (Value.object fields).Inside value :=
  .single (.field h)

/-! ## Values that are used -/

theorem asObject_eq_ok_iff {value : Value} {fields : Fields} :
    value.asObject = .ok fields ↔ value = .object fields := by
  cases value <;> simp [asObject]

theorem tagged_eq_ok_iff {what : String} {value : Value} {kind : Spelling} {fields : Fields} :
    value.tagged what = .ok (kind, fields) ↔
      value = .object fields ∧ Fields.field? "kind" fields = some (.spelled kind) := by
  cases value with
  | object entries =>
    simp only [tagged, object.injEq]
    split
    · rename_i found hfound
      simp only [Except.ok.injEq, Prod.mk.injEq]
      constructor
      · rintro ⟨rfl, rfl⟩
        exact ⟨rfl, hfound⟩
      · rintro ⟨rfl, hkind⟩
        rw [hfound] at hkind
        cases hkind
        exact ⟨rfl, rfl⟩
    · rename_i hnone
      simp only [reduceCtorEq, false_iff]
      rintro ⟨rfl, hkind⟩
      exact hnone kind hkind
  | null | bool | integer | number | spelled | array => simp [tagged]

/-- What goes on with a kind and fields has been given an object. -/
theorem exists_of_tagged {α : Type} {what : String} {value : Value} {a : α}
    {next : Spelling × Fields → Outcome α} (h : value.tagged what >>= next = .ok a) :
    ∃ kind fields, value = .object fields ∧ next (kind, fields) = .ok a := by
  obtain ⟨⟨kind, fields⟩, htagged, hnext⟩ := bind_eq_ok_iff.1 h
  exact ⟨kind, fields, (tagged_eq_ok_iff.1 htagged).1, hnext⟩

theorem inside_of_elements {value item : Value} {items : List Value}
    (h : value.elements = .ok items) (hmem : item ∈ items) : value.Inside item :=
  .single (.element h hmem)

theorem inside_of_elementsIfGiven {value item : Value} {items : List Value}
    (h : value.elementsIfGiven = .ok items) (hmem : item ∈ items) : value.Inside item := by
  rw [elementsIfGiven] at h
  split at h
  · exact inside_of_elements h hmem
  · cases h
    cases hmem

theorem field?_of_member {fields : Fields} {name : String} {value : Value}
    (h : fields.member name = .ok value) : Fields.field? name fields = some value := by
  unfold Fields.member at h
  split at h
  · rename_i found hfound
    cases h
    exact hfound
  · cases h

theorem field?_of_require {what name : String} {fields : Fields} {value : Value}
    (h : (Value.object fields).require what name = .ok value) :
    Fields.field? name fields = some value := by
  rw [require] at h
  split at h
  · rename_i found hfound
    cases h
    exact hfound
  · cases h

theorem inside_of_member {fields : Fields} {name : String} {value : Value}
    (h : fields.member name = .ok value) : (Value.object fields).Inside value :=
  inside_of_field? (field?_of_member h)

theorem inside_of_require {what name : String} {value found : Value}
    (h : value.require what name = .ok found) : value.Inside found := by
  cases value with
  | object fields => exact inside_of_field? (field?_of_require h)
  | spelled s =>
    rw [require] at h
    split at h <;> cases h
  | array items =>
    rw [require] at h
    split at h <;> cases h
  | null | bool | integer | number => cases h

/-- What a field holds stands inside the object, if it is not null. -/
theorem inside_field {fields : Fields} {name : String} (h : fields.field name ≠ .null) :
    (Value.object fields).Inside (fields.field name) := by
  unfold Fields.field at h ⊢
  cases hfound : Fields.field? name fields with
  | none =>
    rw [hfound] at h
    exact absurd rfl h
  | some value => exact inside_of_field? hfound

/-- The elements of a field stand inside the object. -/
theorem inside_of_field_elements {fields : Fields} {name : String} {item : Value}
    {items : List Value} (h : (fields.field name).elementsIfGiven = .ok items)
    (hmem : item ∈ items) :
    (Value.object fields).Inside item := by
  refine (inside_field fun hnull => ?_).trans (inside_of_elementsIfGiven h hmem)
  rw [hnull] at h
  cases h
  cases hmem

/-- A value that counts as given has elements, if it has any at all. -/
theorem elements_ne_nil {value : Value} {items : List Value} (hgiven : value.isGiven = true)
    (h : value.elements = .ok items) : items ≠ [] := by
  rintro rfl
  cases value with
  | array entries =>
    cases h
    cases hgiven
  | object entries =>
    obtain rfl := List.map_eq_nil_iff.1 (Except.ok.inj h)
    cases hgiven
  | spelled s =>
    have hnil : s.elements = [] := List.map_eq_nil_iff.1 (Except.ok.inj h)
    cases s with
    | text t =>
      have ht : t.toList = [] := List.map_eq_nil_iff.1 hnil
      simp [isGiven, Spelling.isEmpty, String.toList_eq_nil_iff.1 ht] at hgiven
    | garbled points hbroken =>
      obtain rfl := List.map_eq_nil_iff.1 hnil
      cases hbroken
  | null | bool | integer | number => cases h

/-! ## What is yielded -/

variable {α : Type} {read : Value → Outcome α} {a : α}

theorem Inside.yields {document value : Value} (h : document.Inside value)
    (hread : read value = .ok a) : document.Yields read a := ⟨value, h, hread⟩

theorem Yields.trans {document value : Value} (h : document.Inside value)
    (hyields : value.Yields read a) : document.Yields read a := by
  obtain ⟨inner, hinner, hread⟩ := hyields
  exact ⟨inner, h.trans hinner, hread⟩

/-- What has been read from something that is yielded is yielded. -/
theorem Yields.bind {β : Type} {outer : Value → Outcome β} {b : β} {document : Value}
    (h : document.Yields outer b)
    (hread : ∀ value, outer value = .ok b → value.Yields read a) : document.Yields read a := by
  obtain ⟨value, hvalue, hb⟩ := h
  exact .trans hvalue (hread value hb)

theorem yields_of_field_elements {fields : Fields} {name : String} {items : List Value}
    {results : List α} (h : (fields.field name).elementsIfGiven = .ok items)
    (hresults : items.mapM read = .ok results) (hmem : a ∈ results) :
    (Value.object fields).Yields read a := by
  obtain ⟨item, hitem, hread⟩ := exists_of_mem_mapM hresults hmem
  exact (inside_of_field_elements h hitem).yields hread

end Value

end MirListing
