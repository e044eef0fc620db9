import MirListing.Listing.Appendix
import MirListing.Proofs.Items.References

/-!
# What path texts stand for

References in a document are path texts.  What a text stands for is said by the first entry of an
item that has it, and a text that no entry has stands for a local item of the default crate
(`resolution`).  Neither the place of a reference nor the order of the entries matters: the book of
names holds nothing but this (`Names.resolveText_eq`).  A book that also keeps what it has been
asked for gives the same answers, whatever it is asked and in whatever order (`Names.askAll_eq`).

So every item that a program refers to is the resolution of the path text at the place it has been
read from, and an item itself is the resolution of its own.  The other way round, every reference in
the document is there in the program, as the resolution of its path text: in an item in the order in
which its entry has them, and behind a handle unless a later entry is for the same one
(`Program.resolves_of_read`).
-/

namespace MirListing

open Value

/-! ## Resolution -/

/-- The path text in an object. -/
def Value.pathText? : Value → Option Spelling
  | .object fields =>
      match Fields.field? "path" fields with
      | some (.spelled text) => some text
      | _ => none
  | _ => none

/-- What an entry says about its path text. -/
def statedItem (text : Spelling) (entry : Value) : Outcome ItemId := do
  let fields ← entry.asObject
  ItemId.parse text.plain (Names.crateOf fields) (fields.fieldOr "local" (.bool true))

/-- What a path text stands for in a document with some entries: what the first entry with this text
says, or a local item of the default crate. -/
def resolution (entries : List Value) (text : Spelling) : Outcome ItemId :=
  match entries.find? fun entry => entry.pathText? = some text with
  | some entry => statedItem text entry
  | none => ItemId.parse text.plain

theorem resolution_cons (entry : Value) (rest : List Value) (text : Spelling) :
    resolution (entry :: rest) text =
      if entry.pathText? = some text then statedItem text entry else resolution rest text := by
  unfold resolution
  rw [List.find?_cons]
  by_cases heq : entry.pathText? = some text
  · rw [if_pos heq, decide_eq_true heq]
  · rw [if_neg heq, decide_eq_false heq]

/-- What the path text in an object stands for. -/
def resolutionOf (entries : List Value) (value : Value) : Outcome ItemId :=
  match value.pathText? with
  | some text => resolution entries text
  | none => .error .wrongShape

theorem resolutionOf_eq {entries : List Value} {value : Value} {text : Spelling}
    (h : value.pathText? = some text) : resolutionOf entries value = resolution entries text := by
  rw [resolutionOf, h]

theorem pathText?_eq {fields : Fields} {text : Spelling}
    (h : Fields.field? "path" fields = some (.spelled text)) :
    (Value.object fields).pathText? = some text := by
  rw [pathText?, h]

namespace Names

/-! ## The book of names -/

variable {names after : Names}

/-- What an entry adds to a book: nothing to what is known, and what it says otherwise. -/
theorem addEntry_cases {entry : Value} (h : names.addEntry entry = .ok after) :
    ∃ text, entry.pathText? = some text ∧
      ((∃ item, names.known.get? text = some item ∧ after = names) ∨
        names.known.get? text = Option.none ∧
          ∃ item, statedItem text entry = .ok item ∧ after = ⟨names.known.put text item⟩) := by
  simp only [addEntry, bind_eq_ok_iff] at h
  obtain ⟨path, hpath, fields, hfields, h⟩ := h
  obtain rfl := asObject_eq_ok_iff.1 hfields
  split at h
  · rename_i text
    refine ⟨text, pathText?_eq (field?_of_require hpath), ?_⟩
    unfold addText OrderedMap.contains at h
    split at h
    · rename_i hknown
      cases h
      obtain ⟨item, hitem⟩ := Option.isSome_iff_exists.1 hknown
      exact .inl ⟨item, hitem, rfl⟩
    · rename_i hnew
      obtain ⟨item, hitem, h⟩ := bind_eq_ok_iff.1 h
      cases h
      exact .inr ⟨Option.not_isSome_iff_eq_none.1 hnew, item, hitem, rfl⟩
  · cases h

/-- With the entries that follow a book knows what it has known, and else what the first of them
says. -/
theorem resolveText_foldlM {entries : List Value} (h : entries.foldlM addEntry names = .ok after)
    (text : Spelling) :
    after.resolveText text =
      match names.known.get? text with
      | some item => .ok item
      | Option.none => resolution entries text := by
  induction entries generalizing names with
  | nil =>
    cases h
    rfl
  | cons entry rest ih =>
    rw [List.foldlM_cons] at h
    obtain ⟨between, hentry, hrest⟩ := bind_eq_ok_iff.1 h
    obtain ⟨own, hown, hcases⟩ := addEntry_cases hentry
    rw [ih hrest, resolution_cons, hown]
    by_cases heq : own = text
    · subst heq
      rw [if_pos rfl]
      rcases hcases with ⟨item, hknown, rfl⟩ | ⟨hnew, item, hitem, rfl⟩
      · rw [hknown]
      · rw [hnew, OrderedMap.get?_put, if_pos rfl]
        exact hitem.symm
    · rw [if_neg fun h => heq (Option.some.inj h)]
      rcases hcases with ⟨item, -, rfl⟩ | ⟨-, item, -, rfl⟩
      · rfl
      · rw [OrderedMap.get?_put, if_neg heq]

/-- A book of entries resolves path texts as the entries say. -/
theorem resolveText_eq {entries : List Value} (h : ofEntries entries = .ok names)
    (text : Spelling) :
    names.resolveText text = resolution entries text :=
  resolveText_foldlM h text

/-! ## Books that keep their answers -/

/-- Looks a path text up and keeps the answer. -/
def ask (names : Names) (text : Spelling) : Outcome (ItemId × Names) :=
  match names.known.get? text with
  | some item => .ok (item, names)
  | Option.none => do
      let item ← ItemId.parse text.plain
      return (item, ⟨names.known.put text item⟩)

/-- Looks path texts up one after the other. -/
def askAll (names : Names) : List Spelling → Outcome (List ItemId)
  | [] => .ok []
  | text :: rest => do
      let (item, names) ← names.ask text
      return item :: (← askAll names rest)

/-- A kept answer is the answer, and no other answer changes. -/
theorem ask_eq (names : Names) (text : Spelling) :
    (∃ failure, names.ask text = .error failure ∧ names.resolveText text = .error failure) ∨
      ∃ item after, names.ask text = .ok (item, after) ∧ names.resolveText text = .ok item ∧
        ∀ other, after.resolveText other = names.resolveText other := by
  unfold ask
  cases hknown : names.known.get? text with
  | some item => exact .inr ⟨item, names, rfl, by rw [resolveText, hknown], fun _ => rfl⟩
  | none =>
    have hresolve : names.resolveText text = ItemId.parse text.plain := by
      rw [resolveText, hknown]
    rw [hresolve]
    cases hparse : ItemId.parse text.plain with
    | error failure => exact .inl ⟨failure, rfl, rfl⟩
    | ok item =>
      refine .inr ⟨item, _, rfl, rfl, fun other => ?_⟩
      rw [resolveText, OrderedMap.get?_put]
      by_cases heq : text = other
      · subst heq
        rw [if_pos rfl, hresolve, hparse]
      · rw [if_neg heq]
        rfl

/-- Whatever has been asked before, every answer is the resolution of its text. -/
theorem askAll_eq (names : Names) (texts : List Spelling) :
    names.askAll texts = texts.mapM names.resolveText := by
  induction texts generalizing names with
  | nil => rfl
  | cons text rest ih =>
    rw [askAll, List.mapM_cons]
    rcases ask_eq names text with
      ⟨failure, hasked, hresolve⟩ | ⟨item, after, hasked, hresolve, hsame⟩
    · rw [hasked, hresolve]
      rfl
    · rw [hasked, hresolve]
      show (do return item :: (← after.askAll rest)) = _
      rw [ih after, funext hsame]
      rfl

end Names

/-- What refers to an item by its path refers to the resolution of the path text. -/
theorem resolutionOf_of_refersTo {entries : List Value} {names : Names} {v : Value} {item : ItemId}
    (hnames : Names.ofEntries entries = .ok names) (h : v.RefersTo names item) :
    resolutionOf entries v = .ok item := by
  obtain ⟨fields, path, rfl, hpath, hitem⟩ := h
  unfold Names.resolve at hitem
  split at hitem
  · rw [resolutionOf_eq (pathText?_eq hpath), ← Names.resolveText_eq hnames]
    exact hitem
  · cases hitem

/-! ## Statics -/

/-- What is listed behind a handle that refers to an item, from what is known about the item. -/
def Item.staticListing (layout : Layout) (item : Item) : Listing :=
  let path := item.id.pathText
  if item.isForeign then .text (" (extern static: " ++ path ++ ")")
  else
    match item.initializerFault?, item.initializer? with
    | none, some (.byRef a _) => .text (" (static: " ++ path ++ ", ") ++ HexDump.block layout a
    | none, some _ => .fail (.body (.staticWithoutMemory path))
    | _, _ => .text (" (static: " ++ path ++ ", error during initializer evaluation)")

/-- A static that is known is listed from what is known about it. -/
theorem staticListing_of_get? {items : ItemTable} {item : Item} (hkey : item.id.key?.isSome)
    (hget : items.get? item.id = some item) (layout : Layout) :
    staticListing items layout item.id = item.staticListing layout := by
  have hknown : ¬item.id.key?.isNone = true := by
    rw [Option.isNone_iff_eq_none, ← Option.not_isSome_iff_eq_none]
    exact not_not_intro hkey
  have hforeign : items.isForeign item.id = item.isForeign := by
    rw [ItemTable.isForeign, hget]
    rfl
  simp only [MirListing.staticListing, Item.staticListing, if_neg hknown, hforeign]
  split
  · rfl
  · simp only [ItemTable.evaluate, hget]
    cases item.initializerFault? with
    | some reason => cases item.initializer? <;> rfl
    | none =>
      cases item.initializer? with
      | none => rfl
      | some value => cases value <;> rfl

/-! ## Programs -/

/-- What refers to an item in an object refers to the resolution of its path text. -/
abbrev ReferTo (entries objects : List Value) (items : List ItemId) : Prop :=
  List.Forall₂ (fun v item => resolutionOf entries v = .ok item) objects items

/-- What a program refers to is the resolution of the path texts in its document, and all of these
are referred to. -/
structure Program.Resolves (document : Value) (allocations entries : List Value) (names : Names)
    (p : Program) : Prop where
  /-- An item is the resolution of the path text of its entry. -/
  items : entries.mapM (resolutionOf entries) = .ok (p.items.map Item.id)
  /-- A static of the directory is that of the path text of its handle's entry. -/
  statics : ∀ handle item, p.directory.get? handle = some (.static item) → ∃ v, document.Inside v ∧
    Directory.Listed.read names v = .ok ⟨handle, some (.static item)⟩ ∧
    resolutionOf entries v = .ok item
  /-- An item whose value has not been evaluated is that of the path text of the value. -/
  values : ∀ item promoted, p.HasValue (.unevaluated item promoted) → ∃ v, document.Inside v ∧
    ConstValue.read names v = .ok (.unevaluated item promoted) ∧ resolutionOf entries v = .ok item
  /-- The item of a closure or generator is that of the path text of the aggregate. -/
  aggregates : ∀ body kind operands item, p.HasBody body → body.Assigns (.aggregate kind operands) →
    kind.item? = some item → ∃ v, document.Inside v ∧ AggregateKind.read names v = .ok kind ∧
      resolutionOf entries v = .ok item
  /-- What the entry of an item refers to, the item refers to, one reference after another. -/
  references : List.Forall₂ (fun entry item =>
    ReferTo entries (entry.references (.node .item)) item.itemIds) entries p.items
  /-- The entry of a static refers to the resolution of its path text, and so does its handle unless
  a later entry is for the same one. -/
  handles : ∀ (k : Nat) (fields : Fields), allocations[k]? = some (.object fields) →
    Fields.field? "kind" fields = some (.string "static") →
      ∃ handle item, (Value.object fields).allocId = .ok handle ∧
      resolutionOf entries (.object fields) = .ok item ∧
      ((∀ later ∈ allocations.drop (k + 1), later.allocId ≠ .ok handle) →
        p.directory.get? handle = some (.static item))
  /-- A book that keeps its answers gives the same ones, whatever it is asked before. -/
  answers : ∀ texts, names.askAll texts = texts.mapM (resolution entries)

namespace Program

variable {document : Value} {p : Program} {names : Names} {allocations entries : List Value}

theorem mapM_resolutionOf (hnames : Names.ofEntries entries = .ok names)
    (hitems : entries.mapM (Item.read names) = .ok p.items) :
    entries.mapM (resolutionOf entries) = .ok (p.items.map Item.id) :=
  mapM_map_of_mapM (fun _ _ hread =>
    resolutionOf_of_refersTo hnames (Item.refersTo_of_read hread)) hitems

/-- The references of an entry arrive in its item. -/
theorem forall₂_references (hnames : Names.ofEntries entries = .ok names)
    (hitems : entries.mapM (Item.read names) = .ok p.items) :
    List.Forall₂ (fun entry item => ReferTo entries (entry.references (.node .item)) item.itemIds)
      entries p.items :=
  (forall₂_of_mapM hitems).imp fun _ _ hread =>
    (Item.delivers hread).imp fun _ _ hrefers => resolutionOf_of_refersTo hnames hrefers

/-- The handle of a static refers to it, unless a later entry is for the same handle. -/
theorem get?_static_of_last (hallocations : allocations.foldlM (Directory.readEntry names) {} =
      .ok p.directory) {k : Nat} {fields : Fields}
    (hk : allocations[k]? = some (.object fields))
    (hkind : Fields.field? "kind" fields = some (.string "static")) :
    ∃ handle item, (Value.object fields).allocId = .ok handle ∧
      (Value.object fields).RefersTo names item ∧
      ((∀ later ∈ allocations.drop (k + 1), later.allocId ≠ .ok handle) →
        p.directory.get? handle = some (.static item)) := by
  obtain ⟨listed, hlisted, hdirectory⟩ := Directory.exists_listed_of_foldlM hallocations
  obtain ⟨⟨handle, listed?⟩, hentry, hread⟩ := exists_of_mapM_getElem? hlisted hk
  obtain ⟨item, rfl, hrefers⟩ := Directory.Listed.static_of_read hread hkind
  refine ⟨handle, item, Directory.Listed.allocId_of_read hread, hrefers, fun hlast => ?_⟩
  have hsplit : listed = listed.take k ++ ⟨handle, some (.static item)⟩ :: listed.drop (k + 1) := by
    obtain ⟨hlt, hget⟩ := List.getElem?_eq_some_iff.1 hentry
    rw [← hget, List.getElem_cons_drop, List.take_append_drop]
  rw [hdirectory, hsplit]
  refine Directory.get?_after_of_last fun other hother heq => ?_
  have hlater : (allocations.drop (k + 1)).mapM (Directory.Listed.read names) =
      .ok (listed.drop (k + 1)) := by
    rw [mapM_eq_ok_iff, List.map_drop, mapM_eq_ok_iff.1 hlisted, List.map_drop]
  obtain ⟨v, hv, hreadOther⟩ := exists_of_mem_mapM hlater hother
  exact hlast v hv (heq ▸ Directory.Listed.allocId_of_read hreadOther)

theorem ReadIn.resolves (h : p.ReadIn names document) (hnames : Names.ofEntries entries = .ok names)
    (hallocations : allocations.foldlM (Directory.readEntry names) {} = .ok p.directory)
    (hitems : entries.mapM (Item.read names) = .ok p.items) :
    p.Resolves document allocations entries names := by
  refine ⟨mapM_resolutionOf hnames hitems, ?_, ?_, ?_, forall₂_references hnames hitems, ?_,
    fun texts => ?_⟩
  · intro handle item hget
    obtain ⟨⟨_, _⟩, ⟨v, hv, hread⟩, rfl, rfl⟩ := h.entries handle _ hget
    exact ⟨v, hv, hread, resolutionOf_of_refersTo hnames (Directory.Listed.refersTo_of_read hread)⟩
  · intro item promoted hvalue
    obtain ⟨v, hv, hread⟩ := h.value hvalue
    cases ConstValue.readIn_of_read hread with
    | unevaluated hrefers => exact ⟨v, hv, hread, resolutionOf_of_refersTo hnames hrefers⟩
  · intro body kind operands item hbody hassigns hitem
    have hvalue := (h.body hbody).bind fun w hw => (Body.readIn_of_read hw).value hassigns
    obtain ⟨v, hv, hread⟩ :=
      hvalue.bind fun w hw => (Rvalue.readIn_of_read hw).kind kind operands rfl
    have hrefers := (AggregateKind.readIn_of_read hread).item item hitem
    exact ⟨v, hv, hread, resolutionOf_of_refersTo hnames hrefers⟩
  · intro k fields hk hkind
    obtain ⟨handle, item, hhandle, hrefers, hget⟩ := get?_static_of_last hallocations hk hkind
    exact ⟨handle, item, hhandle, resolutionOf_of_refersTo hnames hrefers, hget⟩
  · rw [Names.askAll_eq, funext (Names.resolveText_eq hnames)]

/-- A handle that refers to an item is listed from what has been read about the item, if no other
item has the same identity. -/
theorem appendixEntry_of_unique (h : read document = .ok p) {item : Item} (hmem : item ∈ p.items)
    (hunique : ∀ other ∈ p.items, other.id.key? = item.id.key? → other = item) {handle : AllocId}
    (hget : p.directory.get? handle = some (.static item.id)) (m : SourceMap) (layout : Layout) :
    appendixEntry { items := p.table, directory := p.directory, sourceMap := m, layout } handle =
      .text ("\n" ++ handle.text) ++ item.staticListing layout ++ .text "\n" := by
  rw [appendixEntry]
  simp only [hget]
  rw [entryListing, staticListing_of_get? (isSome_key? h hmem) (get?_table h hmem hunique)]

end Program

/-- The entry of a static of another crate, with one byte. -/
def farEntry : Value :=
  .object [(.text "path", .string "g::X"), (.text "crate", .string "far"),
    (.text "local", .bool false), (.text "kind", .string "static"),
    (.text "initializer", .object [
      (.text "kind", .string "by_ref"), (.text "alloc", .object [(.text "bytes", .string "2a")])])]

/-- The entry of a handle that refers to it. -/
def farReference : Value :=
  .object [
    (.text "id", .integer 0), (.text "kind", .string "static"), (.text "path", .string "g::X")]

/-- What a body refers to in it: the closure that it makes. -/
def closureReference : Value :=
  .object [(.text "kind", .string "closure"), (.text "path", .string "c")]

/-- What the type of its result refers to: the static. -/
def lengthReference : Value :=
  .object [(.text "kind", .string "unevaluated"), (.text "path", .string "g::X")]

/-- The entry of a function with this body. -/
def nearEntry : Value :=
  .object [(.text "path", .string "f"), (.text "body", .object [
    (.text "locals", .array [.object [(.text "ty", .object [
      (.text "name", .string "[u8; _]"),
      (.text "consts", .array [.object [
        (.text "ty", .string "usize"), (.text "val", lengthReference)]])])]]),
    (.text "blocks", .array [.object [
      (.text "statements", .array [.object [
        (.text "kind", .string "assign"), (.text "place", .string "_0"),
        (.text "rvalue", .object [
          (.text "kind", .string "aggregate"), (.text "aggregate", closureReference)])]]),
      (.text "terminator", .object [(.text "kind", .string "return")])]])])]

/-- A document in which the function stands before the static. -/
def farDocument : Value :=
  .object [(.text "allocations", .array [farReference]),
    (.text "items", .array [nearEntry, farEntry])]

/-- That static. -/
def farItem : Item :=
  { id := { crate := .string "far", path := [⟨"g", 0⟩, ⟨"X", 0⟩], locality := .bool false }
    kind? := some .static
    initializer? := some (.byRef { cells := [{ byte := 0x2a }] } 0) }

/-- The closure, which has no entry. -/
def closureId : ItemId := { crate := .string "crate", path := [⟨"c", 0⟩] }

/-- That function. -/
def nearItem : Item :=
  { id := { crate := .string "crate", path := [⟨"f", 0⟩] }
    body? := some {
      blocks := [{
        statements := [⟨{}, .assign ⟨0, []⟩ (.aggregate (.closure closureId []) [])⟩]
        terminator := ⟨{}, .return⟩ }]
      locals := [{
        ty := .mk (.string "[u8; _]") [.mk (.named "usize") (.unevaluated farItem.id none)] }] } }

/-- That program. -/
def farProgram : Program :=
  { directory := ({} : Directory).set ⟨0⟩ (.static farItem.id), items := [nearItem, farItem] }

theorem read_farDocument : Program.read farDocument = .ok farProgram := by
  with_unfolding_all rfl

theorem references_nearEntry :
    nearEntry.references (.node .item) = [closureReference, lengthReference] := by
  with_unfolding_all rfl

end MirListing
