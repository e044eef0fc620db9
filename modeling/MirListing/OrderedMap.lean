/-!
# Maps that keep the order of their keys

An `OrderedMap` holds its entries in the order in which the keys were first put.  Putting a key
again changes its value and not its place, and an erased key that is put again goes to the end.
`get?_put` and `get?_erase` say what the operations do to a look-up, `keys_put` what putting does to
the keys, and `nodup_keys_put` that it lists none twice.
-/

namespace MirListing

/-- A map with its entries in the order of first insertion. -/
structure OrderedMap (κ ν : Type) where
  /-- The entries, oldest key first. -/
  entries : List (κ × ν) := []

namespace OrderedMap

variable {κ ν : Type} [DecidableEq κ]

/-- The map without entries. -/
def empty : OrderedMap κ ν := ⟨[]⟩

/-- The keys in order. -/
def keys (m : OrderedMap κ ν) : List κ := m.entries.map Prod.fst

/-- The values in the order of their keys. -/
def values (m : OrderedMap κ ν) : List ν := m.entries.map Prod.snd

/-- The number of entries. -/
def size (m : OrderedMap κ ν) : Nat := m.entries.length

/-- The value of a key in a list of entries. -/
def find? (key : κ) : List (κ × ν) → Option ν
  | [] => none
  | (k, value) :: rest => if k = key then some value else find? key rest

/-- The value of a key. -/
def get? (m : OrderedMap κ ν) (key : κ) : Option ν := find? key m.entries

/-- Whether a key has a value. -/
def contains (m : OrderedMap κ ν) (key : κ) : Bool := (m.get? key).isSome

/-- Entries with a value put at a key. -/
def putEntry (key : κ) (value : ν) : List (κ × ν) → List (κ × ν)
  | [] => [(key, value)]
  | (k, old) :: rest => if k = key then (k, value) :: rest else (k, old) :: putEntry key value rest

/-- Puts a value at a key. -/
def put (m : OrderedMap κ ν) (key : κ) (value : ν) : OrderedMap κ ν :=
  ⟨putEntry key value m.entries⟩

/-- Removes a key. -/
def erase (m : OrderedMap κ ν) (key : κ) : OrderedMap κ ν :=
  ⟨m.entries.filter fun entry => !decide (entry.1 = key)⟩

/-- Puts entries one after another. -/
def ofList (entries : List (κ × ν)) : OrderedMap κ ν :=
  entries.foldl (fun m entry => m.put entry.1 entry.2) empty

/-! ## Look-ups -/

@[simp] theorem get?_empty (key : κ) : (empty : OrderedMap κ ν).get? key = none := rfl

theorem find?_putEntry (key other : κ) (value : ν) (entries : List (κ × ν)) :
    find? other (putEntry key value entries) =
      if key = other then some value else find? other entries := by
  induction entries with
  | nil => simp [putEntry, find?]
  | cons entry rest ih =>
    obtain ⟨k, old⟩ := entry
    by_cases hk : k = key
    · subst hk
      by_cases ho : k = other <;> simp [putEntry, find?, ho]
    · by_cases ho : k = other
      · subst ho
        simp [putEntry, find?, hk, Ne.symm hk]
      · simp [putEntry, find?, hk, ho, ih]

/-- After a put the key has the new value and every other key its old one. -/
theorem get?_put (m : OrderedMap κ ν) (key other : κ) (value : ν) :
    (m.put key value).get? other = if key = other then some value else m.get? other :=
  find?_putEntry key other value m.entries

/-- After an erasure the key has no value and every other key its old one. -/
theorem get?_erase (m : OrderedMap κ ν) (key other : κ) :
    (m.erase key).get? other = if key = other then none else m.get? other := by
  obtain ⟨entries⟩ := m
  simp only [get?, erase]
  induction entries with
  | nil => simp [find?]
  | cons entry rest ih =>
    obtain ⟨k, old⟩ := entry
    by_cases hk : k = key
    · subst hk
      by_cases ho : k = other <;> simp_all [find?]
    · by_cases ho : k = other
      · subst ho
        simp [find?, hk, Ne.symm hk]
      · simp [find?, hk, ho, ih]

/-- The value of a key is among the values. -/
theorem mem_values_of_get? {m : OrderedMap κ ν} {key : κ} {value : ν}
    (h : m.get? key = some value) : value ∈ m.values := by
  obtain ⟨entries⟩ := m
  simp only [get?, values] at h ⊢
  induction entries with
  | nil => simp [find?] at h
  | cons entry rest ih =>
    rw [List.map_cons, List.mem_cons]
    rw [find?] at h
    split at h
    · exact .inl (Option.some.inj h).symm
    · exact .inr (ih h)

/-! ## Keys -/

theorem map_fst_putEntry (key : κ) (value : ν) (entries : List (κ × ν)) :
    (putEntry key value entries).map Prod.fst =
      if key ∈ entries.map Prod.fst then entries.map Prod.fst
      else entries.map Prod.fst ++ [key] := by
  induction entries with
  | nil => simp [putEntry]
  | cons entry rest ih =>
    obtain ⟨k, old⟩ := entry
    by_cases hk : k = key
    · subst hk
      simp [putEntry]
    · simp only [putEntry, hk, if_false, List.map_cons, ih, List.mem_cons, Ne.symm hk, false_or]
      split <;> simp

/-- A known key keeps its place, and a new one goes to the end. -/
theorem keys_put (m : OrderedMap κ ν) (key : κ) (value : ν) :
    (m.put key value).keys = if key ∈ m.keys then m.keys else m.keys ++ [key] :=
  map_fst_putEntry key value m.entries

/-- A put lists no key twice. -/
theorem nodup_keys_put {m : OrderedMap κ ν} (h : m.keys.Nodup) (key : κ) (value : ν) :
    (m.put key value).keys.Nodup := by
  rw [keys_put]
  split
  · exact h
  · rename_i hnew
    exact List.nodup_append.2 ⟨h, by simp, fun k hk other hother heq =>
      hnew (by rwa [← List.mem_singleton.1 hother, ← heq])⟩

end OrderedMap

end MirListing
