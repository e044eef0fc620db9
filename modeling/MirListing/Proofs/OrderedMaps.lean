import Mathlib.Data.List.Induction
import Mathlib.Data.List.Nodup
import MirListing.OrderedMap

/-!
# Maps made by putting

A map that is made by putting entries one after another gives each key the value that was put last
(`get?_ofList`), and it has the keys of the entries in the order in which they were first put
(`keys_ofList`).  Where no key is listed twice, as in such a map, what is listed is what can be
looked up (`mem_entries_iff`).
-/

namespace MirListing.OrderedMap

variable {κ ν : Type} [DecidableEq κ] {entries : List (κ × ν)} {key : κ} {value : ν}

/-- The value of the last one of the entries that have a key. -/
def lastPut? (entries : List (κ × ν)) (key : κ) : Option ν :=
  (entries.filter fun entry => entry.1 = key).getLast?.map Prod.snd

/-- One more entry is the last one of its own key, and the last ones of other keys stay. -/
theorem lastPut?_concat (entries : List (κ × ν)) (entry : κ × ν) (key : κ) :
    lastPut? (entries ++ [entry]) key =
      if entry.1 = key then some entry.2 else lastPut? entries key := by
  by_cases hkey : entry.1 = key <;> simp [lastPut?, List.filter_append, hkey]

theorem mem_of_lastPut? (h : lastPut? entries key = some value) : (key, value) ∈ entries := by
  obtain ⟨entry, hlast, rfl⟩ := Option.map_eq_some_iff.1 h
  have hmem := List.mem_filter.1 (List.mem_of_getLast? hlast)
  obtain rfl : entry.1 = key := by simpa using hmem.2
  exact hmem.1

theorem exists_lastPut? {entry : κ × ν} (h : entry ∈ entries) :
    ∃ value, lastPut? entries entry.1 = some value := by
  have hmem : entry ∈ entries.filter fun other => other.1 = entry.1 :=
    List.mem_filter.2 ⟨h, by simp⟩
  have hlast := List.getLast?_eq_some_getLast (List.ne_nil_of_mem hmem)
  exact ⟨_, Option.map_eq_some_iff.2 ⟨_, hlast, rfl⟩⟩

/-- Where no key is put twice, every entry is the last one of its key. -/
theorem lastPut?_eq_some_iff (h : (entries.map Prod.fst).Nodup) :
    lastPut? entries key = some value ↔ (key, value) ∈ entries := by
  refine ⟨mem_of_lastPut?, fun hmem => ?_⟩
  obtain ⟨other, hlast : lastPut? entries key = some other⟩ := exists_lastPut? hmem
  have hsame := List.inj_on_of_nodup_map h (mem_of_lastPut? hlast) hmem rfl
  rw [hlast, (Prod.mk.inj hsame).2]

theorem mem_keys_iff_lastPut? : key ∈ entries.map Prod.fst ↔ (lastPut? entries key).isSome := by
  rw [Option.isSome_iff_exists, List.mem_map]
  constructor
  · rintro ⟨entry, hentry, rfl⟩
    exact exists_lastPut? hentry
  · rintro ⟨value, hvalue⟩
    exact ⟨_, mem_of_lastPut? hvalue, rfl⟩

theorem ofList_concat (entries : List (κ × ν)) (entry : κ × ν) :
    ofList (entries ++ [entry]) = (ofList entries).put entry.1 entry.2 := by
  simp only [ofList, List.foldl_append, List.foldl_cons, List.foldl_nil]

theorem get?_ofList (entries : List (κ × ν)) (key : κ) :
    (ofList entries).get? key = lastPut? entries key := by
  induction entries using List.reverseRecOn with
  | nil => rfl
  | append_singleton entries entry ih => rw [ofList_concat, get?_put, lastPut?_concat, ih]

theorem nodup_keys_ofList (entries : List (κ × ν)) : (ofList entries).keys.Nodup := by
  induction entries using List.reverseRecOn with
  | nil => exact List.nodup_nil
  | append_singleton entries entry ih =>
    rw [ofList_concat]
    exact nodup_keys_put ih _ _

/-- The keys stand in the order in which they were first put. -/
theorem keys_ofList (entries : List (κ × ν)) :
    (ofList entries).keys = (entries.map Prod.fst).eraseDups := by
  induction entries using List.reverseRecOn with
  | nil => rfl
  | append_singleton entries entry ih =>
    rw [ofList_concat, keys_put, List.map_append, List.map_singleton, List.eraseDups_append, ih]
    by_cases hknown : entry.1 ∈ entries.map Prod.fst
    · simp [List.removeAll, hknown]
    · simp [List.removeAll, List.eraseDups_cons, hknown]

theorem mem_keys_ofList : key ∈ (ofList entries).keys ↔ key ∈ entries.map Prod.fst := by
  rw [keys_ofList, List.mem_eraseDups]

/-- Where no key is listed twice, what is listed is what can be looked up. -/
theorem mem_entries_iff {m : OrderedMap κ ν} (h : m.keys.Nodup) :
    (key, value) ∈ m.entries ↔ m.get? key = some value := by
  obtain ⟨entries⟩ := m
  change (entries.map Prod.fst).Nodup at h
  change (key, value) ∈ entries ↔ find? key entries = some value
  induction entries with
  | nil => simp [find?]
  | cons entry rest ih =>
    obtain ⟨k, old⟩ := entry
    rw [List.map_cons, List.nodup_cons] at h
    rw [List.mem_cons, Prod.mk.injEq, find?]
    by_cases hk : k = key
    · subst hk
      have hrest : (k, value) ∉ rest := fun hmem => h.1 (List.mem_map.2 ⟨_, hmem, rfl⟩)
      simp [hrest, eq_comm]
    · rw [if_neg hk, ← ih h.2]
      simp [Ne.symm hk]

end MirListing.OrderedMap
