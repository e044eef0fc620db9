import MirListing.Proofs.Reading.Inside
import MirListing.Reader.Program

/-!
# The table of a program

The items of a program are registered one after another.  A question about an identity is then
answered from the last item with its key (`get?_registerAll`).  If no two items have one key, the
table holds just the items of the program in their order (`toList_registerAll`), and each is found
by its identity.

An item that has been read can always be looked up: one whose identity has no key is refused.
-/

namespace MirListing

/-! ## Registration -/

namespace OrderedMap

variable {κ ν : Type} [DecidableEq κ]

/-- A new key goes to the end with its value. -/
theorem entries_put_of_notMem {m : OrderedMap κ ν} {key : κ} (h : key ∉ m.keys) (value : ν) :
    (m.put key value).entries = m.entries ++ [(key, value)] := by
  obtain ⟨entries⟩ := m
  change key ∉ entries.map Prod.fst at h
  change putEntry key value entries = entries ++ [(key, value)]
  induction entries with
  | nil => rfl
  | cons entry rest ih =>
    obtain ⟨k, old⟩ := entry
    rw [List.map_cons, List.mem_cons, not_or] at h
    rw [putEntry, if_neg (Ne.symm h.1), ih h.2, List.cons_append]

end OrderedMap

/-- Items of different keys are told apart by them. -/
theorem Item.eq_of_key?_eq {items : List Item}
    (hdistinct : items.Pairwise fun a b => a.id.key? ≠ b.id.key?) {item : Item}
    (hmem : item ∈ items) : ∀ other ∈ items, other.id.key? = item.id.key? → other = item := by
  induction items with
  | nil => cases hmem
  | cons first rest ih =>
    obtain ⟨hne, hrest⟩ := List.pairwise_cons.1 hdistinct
    intro other hother hkey
    cases hmem with
    | head =>
      cases hother with
      | head => rfl
      | tail _ hother => exact absurd hkey.symm (hne other hother)
    | tail _ hmem =>
      cases hother with
      | head => exact absurd hkey (hne item hmem)
      | tail _ hother => exact ih hrest hmem other hother hkey

namespace ItemTable

theorem registerAll_cons (t : ItemTable) (item : Item) (rest : List Item) :
    t.registerAll (item :: rest) = (t.register item).registerAll rest := rfl

/-- After registrations an identity stands for the last item with its key, if there is one. -/
theorem get?_registerAll (t : ItemTable) (items : List Item) {id : ItemId} (hid : id.key?.isSome) :
    (t.registerAll items).get? id =
      (items.reverse.find? fun item => item.id.key? = id.key?).or (t.get? id) := by
  induction items generalizing t with
  | nil => rfl
  | cons item rest ih =>
    rw [registerAll_cons, ih, get?_register, List.reverse_cons, List.find?_append, Option.or_assoc]
    by_cases hkey : item.id.key? = id.key? <;> simp [hkey, hid]

/-- The last item with a key is the only one with it. -/
theorem get?_registerAll_of_unique (t : ItemTable) {items : List Item} {item : Item}
    (hmem : item ∈ items) (hkey : item.id.key?.isSome)
    (hunique : ∀ other ∈ items, other.id.key? = item.id.key? → other = item) :
    (t.registerAll items).get? item.id = some item := by
  rw [get?_registerAll t items hkey]
  have hfound : (items.reverse.find? fun other => other.id.key? = item.id.key?) = some item := by
    cases hfind : items.reverse.find? fun other => other.id.key? = item.id.key? with
    | none => simpa using List.find?_eq_none.1 hfind item (List.mem_reverse.2 hmem)
    | some other =>
      have hother := List.mem_reverse.1 (List.mem_of_find?_eq_some hfind)
      rw [hunique other hother (by simpa using List.find?_some hfind)]
  rw [hfound, Option.some_or]

/-- Items of different keys that the table does not know go to its end. -/
theorem toList_registerAll (t : ItemTable) {items : List Item}
    (hkeys : ∀ item ∈ items, ∃ key, item.id.key? = some key ∧ key ∉ t.items.keys)
    (hdistinct : items.Pairwise fun a b => a.id.key? ≠ b.id.key?) :
    (t.registerAll items).toList = t.toList ++ items := by
  induction items generalizing t with
  | nil => exact (List.append_nil _).symm
  | cons item rest ih =>
    obtain ⟨hne, hrest⟩ := List.pairwise_cons.1 hdistinct
    obtain ⟨key, hkey, hnew⟩ := hkeys item List.mem_cons_self
    have hentries : (t.register item).items.entries = t.items.entries ++ [(key, item)] := by
      rw [register, hkey]
      exact OrderedMap.entries_put_of_notMem hnew item
    have htoList : (t.register item).toList = t.toList ++ [item] := by
      simp [toList, OrderedMap.values, hentries]
    rw [registerAll_cons, ih _ ?_ hrest, htoList, List.append_assoc, List.singleton_append]
    intro other hother
    obtain ⟨otherKey, hotherKey, hotherNew⟩ := hkeys other (List.mem_cons_of_mem _ hother)
    refine ⟨otherKey, hotherKey, ?_⟩
    rw [OrderedMap.keys, hentries, List.map_append, List.mem_append, List.map_singleton,
      List.mem_singleton, not_or]
    refine ⟨hotherNew, ?_⟩
    rintro rfl
    exact hne other hother (hkey.trans hotherKey.symm)

end ItemTable

/-! ## Items of programs -/

/-- What reading an item has read, part by part. -/
theorem Item.exists_of_read {names : Names} {value : Value} {item : Item}
    (h : Item.read names value = .ok item) :
    ∃ (fields : Fields) (path : Value) (promoted : List Value),
      value = .object fields ∧ fields.member "path" = .ok path ∧
      names.resolve path = .ok item.id ∧ item.id.checkKey = .ok () ∧
      ItemKind.read? (fields.field "kind") = .ok item.kind? ∧
      ConstValue.read? names (fields.field "initializer") = .ok item.initializer? ∧
      Body.read? names (fields.field "body") = .ok item.body? ∧
      (fields.field "promoted").elementsIfGiven = .ok promoted ∧
      promoted.mapM (Body.read names) = .ok item.promoted ∧
      item.isMutable = fields.flag "mutable" false ∧
      item.isForeign = fields.flag "foreign" false ∧
      item.initializerFault? = fields.label? "initializer_error" := by
  simp only [Item.read, bind_eq_ok_iff] at h
  obtain ⟨fields, hfields, path, hpath, id, hid, kind?, hkind, initializer?, hinitializer, body?,
    hbody, values, hvalues, promoted, hpromoted, _, hkey, hitem⟩ := h
  obtain rfl := Except.ok.inj hitem
  exact ⟨fields, path, values, Value.asObject_eq_ok_iff.1 hfields, hpath, hid, hkey, hkind,
    hinitializer, hbody, hvalues, hpromoted, rfl, rfl, rfl⟩

/-- What reading a program has read, part by part. -/
theorem Program.exists_of_read {document : Value} {p : Program} (h : read document = .ok p) :
    ∃ (fields : Fields) (entries : List Value) (names : Names) (allocations : List Value),
      document = .object fields ∧ readLayout fields = .ok p.layout ∧
      (Fields.field "items" fields).elementsIfGiven = .ok entries ∧
      Names.ofEntries entries = .ok names ∧
      (Fields.field "allocations" fields).elementsIfGiven = .ok allocations ∧
      allocations.foldlM (Directory.readEntry names) {} = .ok p.directory ∧
      entries.mapM (Item.read names) = .ok p.items := by
  cases document with
  | object fields =>
    simp only [read, bind_eq_ok_iff] at h
    obtain ⟨layout, hlayout, entries, hentries, names, hnames, allocations, hallocations, directory,
      hdirectory, items, hitems, hp⟩ := h
    obtain rfl := Except.ok.inj hp
    exact ⟨fields, entries, names, allocations, rfl, hlayout, hentries, hnames, hallocations,
      hdirectory, hitems⟩
  | null | bool | integer | number | spelled | array => cases h

theorem isSome_key?_of_read {names : Names} {value : Value} {item : Item}
    (h : Item.read names value = .ok item) : item.id.key?.isSome := by
  obtain ⟨-, -, -, -, -, -, hkey, -⟩ := Item.exists_of_read h
  rw [ItemId.checkKey] at hkey
  split at hkey
  · assumption
  · cases hkey

namespace Program

variable {document : Value} {p : Program}

/-- Every item that has been loaded can be looked up. -/
theorem isSome_key? (h : read document = .ok p) {item : Item} (hmem : item ∈ p.items) :
    item.id.key?.isSome := by
  obtain ⟨_, entries, names, _, -, -, -, -, -, -, hitems⟩ := exists_of_read h
  obtain ⟨value, -, hvalue⟩ := exists_of_mem_mapM hitems hmem
  exact isSome_key?_of_read hvalue

/-- The table of a program finds each item whose key no other has. -/
theorem get?_table (h : read document = .ok p) {item : Item} (hmem : item ∈ p.items)
    (hunique : ∀ other ∈ p.items, other.id.key? = item.id.key? → other = item) :
    p.table.get? item.id = some item :=
  ItemTable.get?_registerAll_of_unique _ hmem (isSome_key? h hmem) hunique

/-- What the table of a program knows is one of its items. -/
theorem mem_of_get?_table {id : ItemId} {item : Item} (h : p.table.get? id = some item) :
    item ∈ p.items := by
  have hid : id.key?.isSome := by
    unfold ItemTable.get? at h
    cases hkey : id.key? with
    | none =>
      rw [hkey] at h
      cases h
    | some key => rfl
  rw [table, ItemTable.get?_registerAll _ _ hid] at h
  cases hfind : p.items.reverse.find? fun item => item.id.key? = id.key? with
  | none =>
    rw [hfind] at h
    cases hkey : id.key? <;> simp [ItemTable.get?, hkey] at h
  | some found =>
    rw [hfind] at h
    cases h
    exact List.mem_reverse.1 (List.mem_of_find?_eq_some hfind)

/-- Where no two items have one key, the table of a program holds its items. -/
theorem toList_table (h : read document = .ok p)
    (hdistinct : p.items.Pairwise fun a b => a.id.key? ≠ b.id.key?) : p.table.toList = p.items := by
  refine ItemTable.toList_registerAll {} (fun item hitem => ?_) hdistinct
  obtain ⟨key, hkey⟩ := Option.isSome_iff_exists.1 (isSome_key? h hitem)
  exact ⟨key, hkey, List.not_mem_nil⟩

end Program

end MirListing
