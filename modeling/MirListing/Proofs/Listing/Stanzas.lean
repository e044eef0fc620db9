import MirListing.Proofs.Listing.LookUps
import MirListing.Proofs.Listing.Streams
import MirListing.Proofs.OrderedMaps

/-!
# The stanzas of a table

An item may be registered many times, with other items in between.  The table lists its key once,
where it was registered first, and answers everything about it from the last registration
(`ItemTable.Holds`).  So the list of items with a body and the look-up of a body always agree: a
stream of all items never meets one without a body, and has one stanza for each item with a body and
one for each of its promoted constants (`Stanzas`).  A stream of a single item fails for want of a
body exactly if its last registration has none, or if there is no registration.
-/

namespace MirListing

namespace ItemTable

/-! ## Last registrations -/

/-- The last one of some items with a key. -/
def LastWith (items : List Item) (key : ItemKey) (item : Item) : Prop :=
  ∃ before later, items = before ++ item :: later ∧ item.id.key? = some key ∧
    ∀ other ∈ later, other.id.key? ≠ some key

/-- The table of registrations, one after another. -/
def ofItems (items : List Item) : ItemTable := ({} : ItemTable).registerAll items

/-- A table answers questions about an identity as an item says. -/
structure AnswersFrom (t : ItemTable) (id : ItemId) (item : Item) : Prop where
  /-- The item is found. -/
  found : t.get? id = some item
  /-- The kind. -/
  kind : t.kind? id = item.kind?
  /-- Whether it is defined elsewhere. -/
  foreign : t.isForeign id = item.isForeign
  /-- Whether it is a static that may change. -/
  mutableStatic : t.isMutableStatic id = true ↔ item.kind? = some .static ∧ item.isMutable = true
  /-- A reason why the value could not be computed counts before the value. -/
  fault : ∀ reason, item.initializerFault? = some reason → t.evaluate id = .error (.failed reason)
  /-- The value of a static. -/
  value : ∀ value, item.initializerFault? = none → item.initializer? = some value →
    t.evaluate id = .ok value
  /-- An item without either has no value. -/
  noValue : item.initializerFault? = none → item.initializer? = none →
    t.evaluate id = .error (.noInitializer id.pathText)
  /-- The main body. -/
  body : ∀ body, item.body? = some body → t.body id = .ok body
  /-- An item without a main body. -/
  noBody : item.body? = none → t.body id = .error (.noBody id.pathText)
  /-- The bodies of promoted constants. -/
  promoted : t.promoted id = item.promoted

/-- A table knows nothing about an identity. -/
structure Lacks (t : ItemTable) (id : ItemId) : Prop where
  /-- Nothing is found. -/
  found : t.get? id = none
  /-- It has no kind. -/
  kind : t.kind? id = none
  /-- It does not count as defined elsewhere. -/
  foreign : t.isForeign id = false
  /-- It does not count as a static that may change. -/
  mutableStatic : t.isMutableStatic id = false
  /-- It has no value. -/
  value : t.evaluate id = .error (.unknownStatic id.pathText)
  /-- It has no main body. -/
  body : t.body id = .error (.noBody id.pathText)
  /-- It has no promoted constants. -/
  promoted : t.promoted id = []

/-- A table holds registrations. -/
structure Holds (t : ItemTable) (items : List Item) : Prop where
  /-- The keys are listed in the order of their first registrations, each of them once. -/
  keys : t.toList.map (·.id.key?) = (items.filterMap (·.id.key?)).eraseDups.map some
  /-- No key is listed twice. -/
  nodup : (t.toList.map (·.id.key?)).Nodup
  /-- What is listed for a key is its last registration. -/
  last : ∀ item ∈ t.toList, ∃ key, LastWith items key item
  /-- Questions are answered from the last registration. -/
  answers : ∀ id key item, id.key? = some key → LastWith items key item → t.AnswersFrom id item
  /-- Nothing is known about what has never been registered. -/
  lacks : ∀ id key, id.key? = some key → (∀ item ∈ items, item.id.key? ≠ some key) → t.Lacks id
  /-- The items with a body are those whose last registration has one. -/
  withBody : t.withBody = (t.toList.filter fun item => item.body?.isSome).map Item.id

section

variable {t : ItemTable} {items : List Item} {id : ItemId} {key : ItemKey} {item : Item}

theorem answersFrom_of_get? (h : t.get? id = some item) : t.AnswersFrom id item where
  found := h
  kind := by rw [kind?, h, Option.bind_some]
  foreign := by rw [isForeign, h, Option.any_some]
  mutableStatic := by
    rw [isMutableStatic, h, Option.any_some, Bool.and_eq_true, decide_eq_true_eq]
  fault reason hreason := by simp only [evaluate, h, hreason]
  value value hfault hvalue := by simp only [evaluate, h, hfault, hvalue]
  noValue hfault hvalue := by simp only [evaluate, h, hfault, hvalue]
  body body hbody := by rw [ItemTable.body, h, Option.bind_some, hbody]
  noBody hbody := by rw [ItemTable.body, h, Option.bind_some, hbody]
  promoted := by rw [ItemTable.promoted, h, Option.map_some, Option.getD_some]

theorem lacks_of_get? (h : t.get? id = none) : t.Lacks id where
  found := h
  kind := by rw [kind?, h, Option.bind_none]
  foreign := by rw [isForeign, h, Option.any_none]
  mutableStatic := by rw [isMutableStatic, h, Option.any_none]
  value := by simp only [evaluate, h]
  body := by rw [ItemTable.body, h, Option.bind_none]
  promoted := by rw [ItemTable.promoted, h, Option.map_none, Option.getD_none]

theorem get?_ofItems (hid : id.key? = some key) :
    (ofItems items).get? id = items.reverse.find? fun item => item.id.key? = some key := by
  have hsome : id.key?.isSome := by rw [hid]; rfl
  have hempty : ({} : ItemTable).get? id = none := by rw [get?, hid]; rfl
  rw [ofItems, get?_registerAll _ _ hsome, hempty, Option.or_none, hid]

/-- What is found is the last registration. -/
theorem get?_ofItems_eq_some_iff (hid : id.key? = some key) :
    (ofItems items).get? id = some item ↔ LastWith items key item := by
  rw [get?_ofItems hid, List.find?_eq_some_iff_append]
  simp only [decide_eq_true_eq, Bool.not_eq_true', decide_eq_false_iff_not]
  constructor
  · rintro ⟨hkey, later, before, hitems, hlater⟩
    refine ⟨before.reverse, later.reverse, ?_, hkey, fun other hother => ?_⟩
    · rw [← items.reverse_reverse, hitems]
      simp
    · exact hlater other (List.mem_reverse.1 hother)
  · rintro ⟨before, later, rfl, hkey, hlater⟩
    refine ⟨hkey, later.reverse, before.reverse, by simp, fun other hother => ?_⟩
    exact hlater other (List.mem_reverse.1 hother)

theorem get?_ofItems_eq_none (hid : id.key? = some key)
    (h : ∀ item ∈ items, item.id.key? ≠ some key) : (ofItems items).get? id = none := by
  rw [get?_ofItems hid, List.find?_eq_none]
  intro item hitem
  simpa using h item (List.mem_reverse.1 hitem)

/-! ## What is listed -/

/-- Registrations put items under their keys. -/
theorem items_registerAll (t : ItemTable) (items : List Item) :
    (t.registerAll items).items = (items.filterMap fun item => item.id.key?.map (·, item)).foldl
      (fun m entry => m.put entry.1 entry.2) t.items := by
  induction items generalizing t with
  | nil => rfl
  | cons item rest ih =>
    rw [registerAll_cons, ih, register]
    cases hkey : item.id.key? with
    | none => rw [List.filterMap_cons_none (by rw [hkey]; rfl)]
    | some key =>
      rw [List.filterMap_cons_some (by rw [hkey]; rfl)]
      rfl

theorem items_ofItems (items : List Item) :
    (ofItems items).items =
      OrderedMap.ofList (items.filterMap fun item => item.id.key?.map (·, item)) :=
  items_registerAll {} items

theorem keys_ofItems (items : List Item) :
    (ofItems items).items.keys = (items.filterMap (·.id.key?)).eraseDups := by
  rw [items_ofItems, OrderedMap.keys_ofList, List.map_filterMap]
  congr 2
  funext item
  cases item.id.key? <;> rfl

theorem nodup_keys_ofItems (items : List Item) : (ofItems items).items.keys.Nodup := by
  rw [items_ofItems]
  exact OrderedMap.nodup_keys_ofList _

/-- Items are listed under their own keys. -/
theorem key?_of_mem_entries (h : (key, item) ∈ (ofItems items).items.entries) :
    item.id.key? = some key := by
  have hput := (OrderedMap.mem_entries_iff (nodup_keys_ofItems items)).1 h
  rw [items_ofItems, OrderedMap.get?_ofList] at hput
  obtain ⟨other, -, hother⟩ := List.mem_filterMap.1 (OrderedMap.mem_of_lastPut? hput)
  obtain ⟨k, hk, heq⟩ := Option.map_eq_some_iff.1 hother
  obtain ⟨rfl, rfl⟩ := Prod.mk.inj heq
  exact hk

/-- What is listed can be looked up. -/
theorem get?_of_mem_entries (h : (key, item) ∈ (ofItems items).items.entries) :
    (ofItems items).get? item.id = some item := by
  rw [get?, key?_of_mem_entries h]
  exact (OrderedMap.mem_entries_iff (nodup_keys_ofItems items)).1 h

theorem exists_entry (h : item ∈ (ofItems items).toList) :
    ∃ key, (key, item) ∈ (ofItems items).items.entries := by
  obtain ⟨⟨key, _⟩, hentry, rfl⟩ := List.mem_map.1 h
  exact ⟨key, hentry⟩

theorem get?_of_mem_toList (h : item ∈ (ofItems items).toList) :
    (ofItems items).get? item.id = some item := by
  obtain ⟨key, hentry⟩ := exists_entry h
  exact get?_of_mem_entries hentry

theorem map_key?_toList (items : List Item) :
    (ofItems items).toList.map (·.id.key?) = (ofItems items).items.keys.map some := by
  rw [toList, OrderedMap.values, OrderedMap.keys, List.map_map, List.map_map]
  refine List.map_congr_left fun entry hentry => ?_
  exact key?_of_mem_entries hentry

theorem withBody_eq (t : ItemTable) :
    t.withBody = (t.toList.filter fun item => item.body?.isSome).map Item.id := by
  rw [withBody]
  induction t.toList with
  | nil => rfl
  | cons item rest ih => cases hbody : item.body? <;> simp [hbody, ih]

theorem holds_ofItems (items : List Item) : (ofItems items).Holds items where
  keys := by rw [map_key?_toList, keys_ofItems]
  nodup := by
    rw [map_key?_toList]
    exact (nodup_keys_ofItems items).map fun _ _ => Option.some.inj
  last item hitem := by
    obtain ⟨key, hentry⟩ := exists_entry hitem
    have hkey := key?_of_mem_entries hentry
    exact ⟨key, (get?_ofItems_eq_some_iff hkey).1 (get?_of_mem_entries hentry)⟩
  answers id key item hid hlast := answersFrom_of_get? ((get?_ofItems_eq_some_iff hid).2 hlast)
  lacks id key hid hnone := lacks_of_get? (get?_ofItems_eq_none hid hnone)
  withBody := withBody_eq _

end

end ItemTable

/-! ## Stanzas -/

open ItemTable

/-- The bodies that a table lists, each with where it comes from. -/
def ItemTable.bodies (t : ItemTable) : List (BodySource × Body) := t.toList.flatMap Item.bodies

/-- Where the bodies of an item come from: its main body, and one for each promoted constant. -/
def ItemTable.sources (t : ItemTable) (id : ItemId) : List BodySource :=
  { item := id } :: (List.range (t.promoted id).length).map fun n : Nat =>
    { item := id, promoted := some (.integer n) }

/-- The streams of a context whose table has been made by registrations. -/
structure Stanzas (ctx : Context) (items : List Item) : Prop where
  /-- The stream of all items is the listings of their bodies, an empty line between two of them. -/
  listing : programListing ctx none = .text programHeading ++
    .separated (ctx.items.bodies.map fun (source, body) => functionListing ctx source body)
  /-- There is one stanza for each item with a body, and behind it one for each of its promoted
  constants. -/
  sources : ctx.items.bodies.map Prod.fst = ctx.items.withBody.flatMap ctx.items.sources
  /-- A stream that does not fail is the stanzas, one behind the other. -/
  rendered : ∀ text, (programListing ctx none).render = .ok text ↔ ∃ texts : List String,
    ctx.items.bodies.map (fun (source, body) => (functionListing ctx source body).render) =
      texts.map .ok ∧ text = programHeading ++ "\n".intercalate texts
  /-- A stanza begins with the signature of its body, which names the item, and a brace. -/
  begins : ∀ source body text, (functionListing ctx source body).render = .ok text →
    ∃ words types rest, signatureWords ctx.items source = .ok words ∧
      (signature ctx.items source body).render = .ok (words ++ source.item.pathText ++ types) ∧
      text = words ++ source.item.pathText ++ types ++ "\x7b\n" ++ rest
  /-- No body is ever missing. -/
  complete : ∀ path, (programListing ctx none).failure? ≠ some (.noBody path)
  /-- The body of a single item is missing if its last registration has none, or if there is no
  registration. -/
  single : ∀ id key path, id.key? = some key →
    ((programListing ctx (some id)).failure? = some (.noBody path) ↔
      path = id.pathText ∧ ∀ item, LastWith items key item → item.body? = none)

section

variable {ctx : Context}

theorem not_ofWriting_noBody (path : String) : ¬Failure.OfWriting (.noBody path) := nofun

/-- Items that a table finds come from where the table says. -/
theorem map_fst_bodies {t : ItemTable} {item : Item} (h : t.get? item.id = some item) {body : Body}
    (hbody : item.body? = some body) : item.bodies.map Prod.fst = t.sources item.id := by
  have hnumbers : (item.promoted.zipIdx.map Prod.snd) = List.range item.promoted.length := by
    rw [List.zipIdx_map_snd, List.range_eq_range']
  rw [Item.bodies, hbody, ItemTable.sources, (answersFrom_of_get? h).promoted, ← hnumbers,
    List.mapIdx_eq_zipIdx_map, List.map_cons, List.map_map, List.map_map]
  rfl

theorem map_fst_flatMap_bodies {t : ItemTable} {items : List Item}
    (h : ∀ item ∈ items, t.get? item.id = some item) :
    (items.flatMap Item.bodies).map Prod.fst =
      ((items.filter fun item => item.body?.isSome).map Item.id).flatMap t.sources := by
  induction items with
  | nil => rfl
  | cons item rest ih =>
    have hrest := ih fun other hother => h other (List.mem_cons_of_mem _ hother)
    rw [List.flatMap_cons, List.map_append, hrest]
    cases hbody : item.body? with
    | none =>
      rw [List.filter_cons_of_neg (by simp [hbody]), Item.bodies, hbody]
      rfl
    | some body =>
      rw [List.filter_cons_of_pos (by simp [hbody]),
        map_fst_bodies (h item List.mem_cons_self) hbody]
      rfl

theorem ofWriting_separated (ctx : Context) (bodies : List (BodySource × Body)) :
    Listing.FailsOnly Failure.OfWriting
      (.separated (bodies.map fun (source, body) => functionListing ctx source body)) := by
  refine Listing.failsOnly_separated fun l hl => ?_
  obtain ⟨⟨source, body⟩, -, rfl⟩ := List.mem_map.1 hl
  exact ofWriting_functionListing ctx source body

theorem render_signature_eq_ok {items : ItemTable} {source : BodySource} {body : Body}
    {text : String} (h : (signature items source body).render = .ok text) :
    ∃ words types, signatureWords items source = .ok words ∧
      text = words ++ source.item.pathText ++ types := by
  simp only [signature, Listing.concat_cons, Listing.render_append_eq_ok, Listing.render_text,
    Listing.render_ofOutcome, Except.ok.injEq] at h
  obtain ⟨words, _, hwords, ⟨_, types, rfl, -, rfl⟩, rfl⟩ := h
  exact ⟨words, types, hwords, (String.append_assoc).symm⟩

/-- The listing of a function begins with its signature. -/
theorem exists_signature {source : BodySource} {body : Body} {text : String}
    (h : (functionListing ctx source body).render = .ok text) :
    ∃ words types rest, signatureWords ctx.items source = .ok words ∧
      (signature ctx.items source body).render = .ok (words ++ source.item.pathText ++ types) ∧
      text = words ++ source.item.pathText ++ types ++ "\x7b\n" ++ rest := by
  simp only [functionListing, Listing.concat_cons, Listing.render_append_eq_ok,
    Listing.render_text, Except.ok.injEq] at h
  obtain ⟨_, _, hsignature, ⟨_, rest, rfl, -, rfl⟩, rfl⟩ := h
  obtain ⟨words, types, hwords, rfl⟩ := render_signature_eq_ok hsignature
  exact ⟨words, types, rest, hwords, hsignature, (String.append_assoc).symm⟩

theorem render_text_append_eq_ok {heading text : String} {l : Listing} :
    (.text heading ++ l : Listing).render = .ok text ↔
      ∃ rest, l.render = .ok rest ∧ text = heading ++ rest := by
  rw [Listing.render_append_eq_ok]
  constructor
  · rintro ⟨first, rest, hfirst, hrest, rfl⟩
    rw [Listing.render_text] at hfirst
    obtain rfl := Except.ok.inj hfirst
    exact ⟨rest, hrest, rfl⟩
  · rintro ⟨rest, hrest, rfl⟩
    exact ⟨heading, rest, Listing.render_text heading, hrest, rfl⟩

/-! ## A single item -/

theorem programListing_some_eq (ctx : Context) (id : ItemId) :
    programListing ctx (some id) = .text programHeading ++ itemListing ctx id := by
  rw [programListing, listedItems, Listing.separated_mapIdx]
  simp [Listing.separated]

theorem ofWriting_itemListing {id : ItemId} {body : Body} (h : ctx.items.body id = .ok body) :
    Listing.FailsOnly Failure.OfWriting (itemListing ctx id) := by
  rw [itemListing, h]
  refine (ofWriting_functionListing ctx _ body).append (Listing.failsOnly_concat fun l hl => ?_)
  obtain ⟨n, hn, rfl⟩ := List.mem_mapIdx.1 hl
  exact (Listing.failsOnly_text "\n").append (ofWriting_functionListing ctx _ _)

/-- A single item fails for want of a body if the table has none for it. -/
theorem failure?_single_eq_noBody_iff {id : ItemId} {path : String} :
    (programListing ctx (some id)).failure? = some (.noBody path) ↔
      ctx.items.body id = .error (.noBody path) := by
  have hfailure : (programListing ctx (some id)).failure? = (itemListing ctx id).failure? := by
    rw [programListing_some_eq]
    rfl
  rw [hfailure]
  constructor
  · intro h
    cases hbody : ctx.items.body id with
    | ok body => exact absurd (ofWriting_itemListing hbody _ h) (not_ofWriting_noBody path)
    | error failure =>
      rw [itemListing, hbody] at h
      rw [Option.some.inj h]
  · intro h
    rw [itemListing, h]
    rfl

theorem body_eq_noBody_iff {items : List Item} {id : ItemId} {key : ItemKey} {path : String}
    (hid : id.key? = some key) :
    (ofItems items).body id = .error (.noBody path) ↔
      path = id.pathText ∧ ∀ item, LastWith items key item → item.body? = none := by
  simp only [← get?_ofItems_eq_some_iff hid, ItemTable.body]
  cases hget : (ofItems items).get? id with
  | none => simp [eq_comm]
  | some item => cases hbody : item.body? <;> simp [hbody, eq_comm]

end

/-- A table of registrations answers from the last registration of each item and lists it where the
first one stands.  What is listed with a body is just what has a body when it is looked up, so a
stream of all items meets no item without one; a stream of a single item does if its last
registration has no body or if there is none.  Each stanza of a stream begins with the signature of
its body. -/
theorem streams_of_registrations (ctx : Context) (items : List Item) :
    (ofItems items).Holds items ∧ Stanzas { ctx with items := ofItems items } items := by
  have hfinds : ∀ item ∈ (ofItems items).toList, (ofItems items).get? item.id = some item :=
    fun _ => get?_of_mem_toList
  have hlisting := @programListing_none_eq { ctx with items := ofItems items } hfinds
  refine ⟨holds_ofItems items, hlisting, ?_, fun text => ?_, fun _ _ _ => exists_signature,
    fun path h => ?_, fun id key path hid => ?_⟩
  · rw [withBody_eq]
    exact map_fst_flatMap_bodies hfinds
  · rw [hlisting, render_text_append_eq_ok]
    simp only [Listing.render_separated_eq_ok, List.map_map]
    constructor
    · rintro ⟨_, ⟨texts, htexts, rfl⟩, rfl⟩
      exact ⟨texts, htexts, rfl⟩
    · rintro ⟨texts, htexts, rfl⟩
      exact ⟨_, ⟨texts, htexts, rfl⟩, rfl⟩
  · rw [hlisting] at h
    have hwriting := (Listing.failsOnly_text programHeading).append (ofWriting_separated _ _) _ h
    exact not_ofWriting_noBody path hwriting
  · exact failure?_single_eq_noBody_iff.trans (body_eq_noBody_iff hid)

/-- Two items that are registered twice: `f` loses its body and `g` gets one. -/
def movedBody : List Item :=
  let item := fun name body? => { id := { crate := .string "crate", path := [⟨name, 0⟩] }, body? }
  [item "f" (some (plainBody "u8")), item "g" none, item "f" none, item "g" (some (plainBody "u8"))]

example : (ofItems movedBody).toList.map (·.id.pathText) = ["f", "g"] ∧
    (ofItems movedBody).withBody.map ItemId.pathText = ["g"] := by
  decide +kernel

end MirListing
