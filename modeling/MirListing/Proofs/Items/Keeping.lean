import Mathlib.Data.List.Nodup
import MirListing.Proofs.Items.Resolution

/-!
# Items that are kept

Every entry of a document gives an item.  The entry *states* an identity: its path, with the crate
and the locality that stand next to it.  The item that is read from it, however, is known by what
its path text stands for, and a path text stands for one identity only, the one that its first entry
states (`resolution`).

So entries whose path texts differ give items that are known as the entries say, and if these can be
told apart, the table holds all of them.  Two entries with one path text give two items of one
identity, whatever their crates are, and the table keeps the second alone.  Both together say when a
program keeps its items (`Program.keepsItems_iff`).
-/

namespace MirListing

/-- The identity that the entry of an item states. -/
def statedIdentity (entry : Value) : Outcome ItemId :=
  match entry.pathText? with
  | some text => statedItem text entry
  | none => .error .wrongShape

/-- Two entries state identities that can be told apart: they have no key in common. -/
def StateApart (entry other : Value) : Prop :=
  ∀ id otherId key, statedIdentity entry = .ok id → statedIdentity other = .ok otherId →
    id.key? = some key → otherId.key? ≠ some key

/-- A program has kept the items of some entries. -/
structure Program.KeepsItems (entries : List Value) (p : Program) : Prop where
  /-- The table holds as many items as there are entries. -/
  size : p.table.size = entries.length
  /-- The item of an entry is known by the identity that the entry states, and is found by it. -/
  own : ∀ (k : Nat) (entry : Value), entries[k]? = some entry → ∃ item, p.items[k]? = some item ∧
    statedIdentity entry = .ok item.id ∧ p.table.get? item.id = some item

/-! ## Path texts of their own -/

/-- A path text that only one entry has stands for what this entry states. -/
theorem resolutionOf_of_nodup {entries : List Value}
    (hnodup : (entries.map Value.pathText?).Nodup) {entry : Value} (hmem : entry ∈ entries) :
    resolutionOf entries entry = statedIdentity entry := by
  unfold resolutionOf statedIdentity
  cases htext : entry.pathText? with
  | none => rfl
  | some text =>
    have hfirst : (entries.find? fun other => other.pathText? = some text) = some entry := by
      cases hfind : entries.find? fun other => other.pathText? = some text with
      | none => simpa [htext] using List.find?_eq_none.1 hfind entry hmem
      | some other =>
        have hother : other.pathText? = some text := by simpa using List.find?_some hfind
        rw [List.inj_on_of_nodup_map hnodup (List.mem_of_find?_eq_some hfind) hmem
          (hother.trans htext.symm)]
    show resolution entries text = statedItem text entry
    rw [resolution, hfirst]

/-- Entries with one path text give items of one identity. -/
theorem resolutionOf_congr (entries : List Value) {entry other : Value}
    (h : entry.pathText? = other.pathText?) :
    resolutionOf entries entry = resolutionOf entries other := by
  rw [resolutionOf, h, resolutionOf]

namespace Program

variable {document : Value} {p : Program} {entries : List Value}

/-- Items that are known as their entries say have different keys. -/
theorem pairwise_key?_of_stated (hloaded : ∀ item ∈ p.items, item.id.key?.isSome)
    (hstated : entries.mapM statedIdentity = .ok (p.items.map Item.id))
    (hapart : entries.Pairwise StateApart) :
    p.items.Pairwise fun a b => a.id.key? ≠ b.id.key? := by
  rw [List.pairwise_iff_getElem]
  intro j k hj hk hlt hkey
  have hlength : entries.length = p.items.length := by
    simpa using congrArg List.length (mapM_eq_ok_iff.1 hstated)
  obtain ⟨key, hsome⟩ := Option.isSome_iff_exists.1 (hloaded _ (List.getElem_mem hj))
  obtain ⟨id, hid, hj'⟩ := exists_of_mapM_getElem? hstated
    (List.getElem?_eq_getElem (by omega : j < entries.length))
  obtain ⟨otherId, hotherId, hk'⟩ := exists_of_mapM_getElem? hstated
    (List.getElem?_eq_getElem (by omega : k < entries.length))
  simp only [List.getElem?_map, List.getElem?_eq_getElem hj, List.getElem?_eq_getElem hk,
    Option.map_some, Option.some.injEq] at hid hotherId
  subst hid hotherId
  have happart := List.pairwise_iff_getElem.1 hapart j k (by omega) (by omega) hlt
  exact happart _ _ key hj' hk' hsome (hkey ▸ hsome)

/-- A program keeps its items, whose entries state identities that can be told apart, exactly if no
two of the entries have one path text. -/
theorem keepsItems_iff (h : read document = .ok p) :
    ∃ (fields : Fields) (entries : List Value), document = .object fields ∧
      (Fields.field "items" fields).elementsIfGiven = .ok entries ∧
      (entries.Pairwise StateApart →
        (p.KeepsItems entries ↔ (entries.map Value.pathText?).Nodup)) := by
  obtain ⟨fields, _, entries, names, rfl, -, hentries, hnames, -, hitems, -⟩ := exists_readIn h
  refine ⟨fields, entries, rfl, hentries, fun hapart => ?_⟩
  have hresolves := mapM_resolutionOf hnames hitems
  have hloaded : ∀ item ∈ p.items, item.id.key?.isSome := fun item hitem => isSome_key? h hitem
  constructor
  · intro hkeeps
    rw [List.Nodup, List.pairwise_map, List.pairwise_iff_getElem]
    intro j k hj hk hlt htext
    obtain ⟨item, hitem, hstated, -⟩ := hkeeps.own j _ (List.getElem?_eq_getElem hj)
    obtain ⟨other, hother, hotherStated, -⟩ := hkeeps.own k _ (List.getElem?_eq_getElem hk)
    -- with one path text the two items have one identity, which both entries state
    have hsame : item.id = other.id := by
      obtain ⟨id, hid, hfirst⟩ := exists_of_mapM_getElem? hresolves (List.getElem?_eq_getElem hj)
      obtain ⟨otherId, hotherId, hsecond⟩ :=
        exists_of_mapM_getElem? hresolves (List.getElem?_eq_getElem hk)
      rw [resolutionOf_congr entries htext, hsecond] at hfirst
      simp only [List.getElem?_map, hitem, hother, Option.map_some, Option.some.injEq]
        at hid hotherId
      rw [hid, hotherId, Except.ok.inj hfirst]
    obtain ⟨key, hkey⟩ := Option.isSome_iff_exists.1 (hloaded _ (List.mem_of_getElem? hitem))
    have happart := List.pairwise_iff_getElem.1 hapart j k hj hk hlt
    exact happart _ _ key hstated hotherStated hkey (hsame ▸ hkey)
  · intro hnodup
    have hstated : entries.mapM statedIdentity = .ok (p.items.map Item.id) := by
      rw [mapM_eq_ok_iff, ← mapM_eq_ok_iff.1 hresolves]
      exact List.map_congr_left fun entry hentry => (resolutionOf_of_nodup hnodup hentry).symm
    have hdistinct := pairwise_key?_of_stated hloaded hstated hapart
    refine ⟨?_, fun k entry hentry => ?_⟩
    · have hlist := congrArg List.length (toList_table h hdistinct)
      have hlength : entries.length = p.items.length := by
        simpa using congrArg List.length (mapM_eq_ok_iff.1 hstated)
      rw [hlength, ← hlist]
      simp [ItemTable.size, ItemTable.toList, OrderedMap.size, OrderedMap.values]
    · obtain ⟨id, hid, hown⟩ := exists_of_mapM_getElem? hstated hentry
      rw [List.getElem?_map] at hid
      obtain ⟨item, hitem, rfl⟩ := Option.map_eq_some_iff.1 hid
      have hmem := List.mem_of_getElem? hitem
      exact ⟨item, hitem, hown, get?_table h hmem (Item.eq_of_key?_eq hdistinct hmem)⟩

end Program

/-! ## Items of two crates -/

/-- The entry of an item of another crate. -/
def crateEntry (path crate : String) : Value :=
  .object [
    (.text "path", .string path), (.text "crate", .string crate), (.text "local", .bool false)]

/-- A document of two of them. -/
def crateDocument (first second : Value) : Value :=
  .object [(.text "items", .array [first, second])]

/-- The item `f` of a crate. -/
def crateItem (crate : String) : Item :=
  { id := { crate := .string crate, path := [⟨"f", 0⟩], locality := .bool false } }

theorem crateItem_key? (crate : String) :
    (crateItem crate).id.key? = some ⟨.string (.text crate), [⟨"f", 0⟩], .integer 0⟩ := rfl

/-- Identities of two crates can be told apart. -/
theorem stateApart_crates {first second : Value}
    (hfirst : statedIdentity first = .ok (crateItem "a").id)
    (hsecond : statedIdentity second = .ok (crateItem "b").id) :
    [first, second].Pairwise StateApart := by
  rw [List.pairwise_pair]
  intro id otherId key hid hotherId hkey
  rw [hfirst] at hid
  rw [hsecond] at hotherId
  cases hid
  cases hotherId
  rw [crateItem_key?] at hkey ⊢
  cases hkey
  decide

/-- Written as `f` and as `::f` the items `f` of two crates are both kept. -/
theorem keepsItems_crates :
    Program.read (crateDocument (crateEntry "f" "a") (crateEntry "::f" "b")) =
        .ok { items := [crateItem "a", crateItem "b"] } ∧
      [crateEntry "f" "a", crateEntry "::f" "b"].Pairwise StateApart ∧
      Program.KeepsItems [crateEntry "f" "a", crateEntry "::f" "b"]
        { items := [crateItem "a", crateItem "b"] } := by
  have hread : Program.read (crateDocument (crateEntry "f" "a") (crateEntry "::f" "b")) =
      .ok { items := [crateItem "a", crateItem "b"] } := by
    with_unfolding_all rfl
  have hapart : [crateEntry "f" "a", crateEntry "::f" "b"].Pairwise StateApart :=
    stateApart_crates (by with_unfolding_all rfl) (by with_unfolding_all rfl)
  obtain ⟨fields, entries, hdocument, hentries, hkeeps⟩ := Program.keepsItems_iff hread
  cases hdocument
  have hlist : [crateEntry "f" "a", crateEntry "::f" "b"] = entries :=
    Except.ok.inj (Eq.trans (by with_unfolding_all rfl) hentries)
  subst hlist
  refine ⟨hread, hapart, (hkeeps hapart).2 ?_⟩
  show [Spelling.text "f", .text "::f"].map some |>.Nodup
  decide

/-- Both written as `f` they become one item: the second is known by the crate of the first, and the
table holds nothing else. -/
theorem not_keepsItems_crates :
    Program.read (crateDocument (crateEntry "f" "a") (crateEntry "f" "b")) =
        .ok { items := [crateItem "a", crateItem "a"] } ∧
      [crateEntry "f" "a", crateEntry "f" "b"].Pairwise StateApart ∧
      ¬Program.KeepsItems [crateEntry "f" "a", crateEntry "f" "b"]
        { items := [crateItem "a", crateItem "a"] } := by
  refine ⟨by with_unfolding_all rfl,
    stateApart_crates (by with_unfolding_all rfl) (by with_unfolding_all rfl), fun hkeeps => ?_⟩
  have hsize : (Program.table { items := [crateItem "a", crateItem "a"] }).size = 1 := by decide
  have htwo := hsize.symm.trans hkeeps.size
  cases htwo

end MirListing
