import MirListing.Proofs.Items.Registration
import MirListing.Proofs.Memory.Loading
import MirListing.Proofs.Reading.Sources

/-!
# What a program has been read from

The bodies of a program, the values of its constants and statics, and the memory it holds have all
been read inside its document, by one reader for each kind and with one book of names.  So what such
a reader ensures of all that it reads holds of everything in the program.
-/

namespace MirListing

open Value

/-! ## Parts of a program -/

/-- The memory of a value. -/
def ConstValue.memory? : ConstValue → Option Allocation
  | .byRef a _ | .slice a _ _ => some a
  | .scalar _ _ | .pointer _ _ | .unevaluated _ _ => none

namespace Program

/-- A body of a program: the main body of an item, or that of a promoted constant. -/
def HasBody (p : Program) (body : Body) : Prop :=
  ∃ item ∈ p.items, item.body? = some body ∨ body ∈ item.promoted

/-- A value of a program: that of a static, or that of a constant in a body. -/
inductive HasValue (p : Program) : ConstValue → Prop
  | initializer {item : Item} {value : ConstValue} : item ∈ p.items →
      item.initializer? = some value → HasValue p value
  | constant {body : Body} {c : Const} : p.HasBody body → body.Occurs c → HasValue p c.value

/-- Memory of a program: that of a handle, or that of a value. -/
inductive HasMemory (p : Program) : Allocation → Prop
  | stored {id : AllocId} {a : Allocation} : p.directory.get? id = some (.memory a) → HasMemory p a
  | held {value : ConstValue} {a : Allocation} : p.HasValue value → value.memory? = some a →
      HasMemory p a

end Program

/-! ## Entries of the directory -/

namespace Directory

/-- What a directory has after some entries is from one of them, or it has been there before. -/
theorem exists_listed_of_get? {entries : List Listed} {id : AllocId} {entry : GlobalAlloc} :
    ∀ {d : Directory}, (d.after (entries.flatMap Listed.operations)).get? id = some entry →
      (∃ listed ∈ entries, listed.handle = id ∧ listed.entry? = some entry) ∨
        d.get? id = some entry := by
  induction entries with
  | nil =>
    intro d h
    exact .inr h
  | cons listed rest ih =>
    intro d h
    rw [List.flatMap_cons, after_append] at h
    rcases ih h with ⟨other, hmem, hother⟩ | hget
    · exact .inl ⟨other, List.mem_cons_of_mem _ hmem, hother⟩
    · obtain ⟨handle, listedEntry⟩ := listed
      cases listedEntry with
      | none =>
        change ((d.set handle _).deallocate handle).get? id = some entry at hget
        rw [get?_deallocate, get?_set] at hget
        split at hget
        · cases hget
        · exact .inr hget
      | some first =>
        change (d.set handle first).get? id = some entry at hget
        rw [get?_set] at hget
        split at hget
        · exact .inl ⟨_, List.mem_cons_self, by assumption, hget⟩
        · exact .inr hget

/-- An entry that is for another handle changes nothing about a handle. -/
theorem get?_after_operations_of_ne {d : Directory} {listed : Listed} {id : AllocId}
    (h : listed.handle ≠ id) : (d.after listed.operations).get? id = d.get? id := by
  obtain ⟨handle, entry?⟩ := listed
  cases entry? with
  | none =>
    change ((d.set handle _).deallocate handle).get? id = _
    rw [get?_deallocate, if_neg h, get?_set, if_neg h]
  | some entry =>
    change (d.set handle entry).get? id = _
    rw [get?_set, if_neg h]

theorem get?_after_of_ne {id : AllocId} {entries : List Listed} :
    ∀ {d : Directory}, (∀ listed ∈ entries, listed.handle ≠ id) →
      (d.after (entries.flatMap Listed.operations)).get? id = d.get? id := by
  induction entries with
  | nil => exact fun _ => rfl
  | cons listed rest ih =>
    intro d h
    rw [List.flatMap_cons, after_append,
      ih fun other hother => h other (List.mem_cons_of_mem _ hother),
      get?_after_operations_of_ne (h listed List.mem_cons_self)]

/-- A handle refers to what the last entry for it says. -/
theorem get?_after_of_last {d : Directory} {before later : List Listed} {handle : AllocId}
    {entry : GlobalAlloc} (h : ∀ listed ∈ later, listed.handle ≠ handle) :
    (d.after ((before ++ ⟨handle, some entry⟩ :: later).flatMap Listed.operations)).get? handle =
      some entry := by
  rw [List.flatMap_append, List.flatMap_cons, after_append, after_append, get?_after_of_ne h]
  change ((d.after _).set handle entry).get? handle = _
  rw [get?_set, if_pos rfl]

end Directory

/-! ## Values and entries -/

section

variable {names : Names} {v : Value}

/-- What a value is made of has been read inside it. -/
inductive ConstValue.ReadIn (names : Names) (v : Value) : ConstValue → Prop
  | scalar {bits size : Int} : ReadIn names v (.scalar bits size)
  | pointer {target : AllocId} {offset : Int} : ReadIn names v (.pointer target offset)
  | byRef {a : Allocation} {offset : Int} : v.Yields Allocation.read a →
      ReadIn names v (.byRef a offset)
  | slice {a : Allocation} {start stop : Int} : v.Yields Allocation.read a →
      ReadIn names v (.slice a start stop)
  | unevaluated {item : ItemId} {promoted : Option Int} : v.RefersTo names item →
      ReadIn names v (.unevaluated item promoted)

theorem ConstValue.readIn_of_read {value : ConstValue} (h : ConstValue.read names v = .ok value) :
    value.ReadIn names v := by
  unfold ConstValue.read at h
  obtain ⟨word, fields, rfl, hword⟩ := exists_of_tagged h
  simp only at hword
  split at hword
  case h_1 =>
    simp only [bind_eq_ok_iff] at hword
    obtain ⟨_, -, _, -, heq⟩ := hword
    cases heq
    exact .scalar
  case h_2 =>
    simp only [bind_eq_ok_iff] at hword
    obtain ⟨_, -, _, -, heq⟩ := hword
    cases heq
    exact .pointer
  case h_3 =>
    simp only [bind_eq_ok_iff] at hword
    obtain ⟨member, hmember, memory, hmemory, _, -, heq⟩ := hword
    cases heq
    exact .byRef ((inside_of_require hmember).yields hmemory)
  case h_4 =>
    simp only [bind_eq_ok_iff] at hword
    obtain ⟨member, hmember, memory, hmemory, _, -, _, -, heq⟩ := hword
    cases heq
    exact .slice ((inside_of_require hmember).yields hmemory)
  case h_5 =>
    simp only [bind_eq_ok_iff] at hword
    obtain ⟨path, hpath, item, hitem, _, -, heq⟩ := hword
    cases heq
    exact .unevaluated (refersTo_of_member hpath hitem)
  case h_6 => cases hword

theorem ConstValue.ReadIn.memory {value : ConstValue} (h : value.ReadIn names v) {a : Allocation}
    (ha : value.memory? = some a) : v.Yields Allocation.read a := by
  cases h with
  | scalar => cases ha
  | pointer => cases ha
  | byRef hmemory =>
    cases ha
    exact hmemory
  | slice hmemory =>
    cases ha
    exact hmemory
  | unevaluated _ => cases ha

/-- What an entry says has been read in it. -/
inductive Directory.Listed.ReadIn (names : Names) (v : Value) : Listed → Prop
  | memory {handle : AllocId} {a : Allocation} : Allocation.read v = .ok a →
      ReadIn names v ⟨handle, some (.memory a)⟩
  | function {handle : AllocId} {text : Label} : ReadIn names v ⟨handle, some (.function text)⟩
  | static {handle : AllocId} {item : ItemId} : v.RefersTo names item →
      ReadIn names v ⟨handle, some (.static item)⟩
  | deallocated {handle : AllocId} : ReadIn names v ⟨handle, none⟩

theorem Directory.Listed.readIn_of_read {listed : Listed} (h : Listed.read names v = .ok listed) :
    listed.ReadIn names v := by
  unfold Listed.read at h
  simp only [bind_eq_ok_iff] at h
  obtain ⟨_, -, _, -, ⟨word, fields⟩, htagged, hword⟩ := h
  split at hword
  case h_1 =>
    obtain ⟨memory, hmemory, heq⟩ := bind_eq_ok_iff.1 hword
    cases heq
    exact .memory hmemory
  case h_2 =>
    obtain ⟨_, -, heq⟩ := bind_eq_ok_iff.1 hword
    cases heq
    exact .function
  case h_3 =>
    simp only [bind_eq_ok_iff] at hword
    obtain ⟨path, hpath, item, hitem, heq⟩ := hword
    cases heq
    exact .static ⟨fields, path, (tagged_eq_ok_iff.1 htagged).1, field?_of_require hpath, hitem⟩
  case h_4 =>
    cases hword
    exact .deallocated
  case h_5 => cases hword

/-- The handle that the entry of an allocation is for. -/
def Value.allocId (value : Value) : Outcome AllocId := do
  return ⟨← (← value.require "allocation" "id").toInteger⟩

theorem Directory.Listed.allocId_of_read {listed : Listed} (h : Listed.read names v = .ok listed) :
    v.allocId = .ok listed.handle := by
  simp only [Listed.read, bind_eq_ok_iff] at h
  obtain ⟨id, hid, n, hn, ⟨word, fields⟩, -, hword⟩ := h
  have hhandle : listed.handle = ⟨n⟩ := by
    split at hword
    case h_1 | h_2 =>
      obtain ⟨_, -, heq⟩ := bind_eq_ok_iff.1 hword
      cases heq
      rfl
    case h_3 =>
      simp only [bind_eq_ok_iff] at hword
      obtain ⟨_, -, _, -, heq⟩ := hword
      cases heq
      rfl
    case h_4 =>
      cases hword
      rfl
    case h_5 => cases hword
  simp only [Value.allocId, bind_eq_ok_iff]
  exact ⟨id, hid, n, hn, congrArg Except.ok hhandle.symm⟩

theorem Directory.Listed.refersTo_of_read {handle : AllocId} {item : ItemId}
    (h : Listed.read names v = .ok ⟨handle, some (.static item)⟩) : v.RefersTo names item := by
  cases readIn_of_read h with
  | static hrefers => exact hrefers

/-- The entry of a static refers to an item. -/
theorem Directory.Listed.static_of_read {fields : Fields} {handle : AllocId}
    {listed? : Option GlobalAlloc} (h : Listed.read names (.object fields) = .ok ⟨handle, listed?⟩)
    (hkind : Fields.field? "kind" fields = some (.string "static")) :
    ∃ item, listed? = some (.static item) ∧ (Value.object fields).RefersTo names item := by
  simp only [Listed.read, Value.tagged, hkind, bind_eq_ok_iff] at h
  obtain ⟨_, -, _, -, _, heq, h⟩ := h
  cases heq
  simp only [bind_eq_ok_iff] at h
  obtain ⟨path, hpath, item, hitem, hlisted⟩ := h
  cases hlisted
  exact ⟨item, rfl, fields, path, rfl, field?_of_require hpath, hitem⟩

theorem Item.refersTo_of_read {item : Item} (h : Item.read names v = .ok item) :
    v.RefersTo names item.id := by
  obtain ⟨fields, path, _, rfl, hpath, hid, -⟩ := Item.exists_of_read h
  exact refersTo_of_member hpath hid

end

/-! ## Programs -/

namespace Program

variable {names : Names} {document : Value} {p : Program}

/-- What a program is made of has been read inside its document. -/
structure ReadIn (names : Names) (document : Value) (p : Program) : Prop where
  /-- Its items. -/
  items : ∀ item ∈ p.items, document.Yields (Item.read names) item
  /-- The entries of its directory. -/
  entries : ∀ id entry, p.directory.get? id = some entry →
    ∃ listed, document.Yields (Directory.Listed.read names) listed ∧ listed.handle = id ∧
      listed.entry? = some entry

/-- A program has been read with the book of the entries of its items. -/
theorem exists_readIn (h : read document = .ok p) :
    ∃ (fields : Fields) (allocations entries : List Value) (names : Names),
      document = .object fields ∧
      (Fields.field "allocations" fields).elementsIfGiven = .ok allocations ∧
      (Fields.field "items" fields).elementsIfGiven = .ok entries ∧
      Names.ofEntries entries = .ok names ∧
      allocations.foldlM (Directory.readEntry names) {} = .ok p.directory ∧
      entries.mapM (Item.read names) = .ok p.items ∧ p.ReadIn names document := by
  obtain ⟨fields, entries, names, allocations, rfl, -, hentries, hnames, hallocations, hdirectory,
    hitems⟩ := exists_of_read h
  refine ⟨fields, allocations, entries, names, rfl, hallocations, hentries, hnames, hdirectory,
    hitems, ?_, ?_⟩
  · intro item hitem
    exact yields_of_field_elements hentries hitems hitem
  · intro id entry hget
    obtain ⟨listed, hlisted, hdirectory⟩ := Directory.exists_listed_of_foldlM hdirectory
    rw [hdirectory] at hget
    rcases Directory.exists_listed_of_get? hget with ⟨found, hfound, hentry⟩ | hnone
    · exact ⟨found, yields_of_field_elements hallocations hlisted hfound, hentry⟩
    · cases hnone

namespace ReadIn

/-- The bodies of a program have been read inside its document. -/
theorem body (h : p.ReadIn names document) {body : Body} (hbody : p.HasBody body) :
    document.Yields (Body.read names) body := by
  obtain ⟨item, hitem, hbody⟩ := hbody
  refine (h.items item hitem).bind fun w hw => ?_
  obtain ⟨fields, path, promoted, rfl, -, -, -, -, -, hmain, hpromotedItems, hpromoted, -⟩ :=
    Item.exists_of_read hw
  rcases hbody with hsome | hmem
  · rw [hsome] at hmain
    unfold Body.read? at hmain
    split at hmain
    · cases hmain
    · rename_i hgiven
      obtain ⟨read, hread, hmain⟩ := bind_eq_ok_iff.1 hmain
      cases hmain
      exact (inside_field hgiven).yields hread
  · exact yields_of_field_elements hpromotedItems hpromoted hmem

/-- The values of a program have been read inside its document. -/
theorem value (h : p.ReadIn names document) {value : ConstValue} (hvalue : p.HasValue value) :
    document.Yields (ConstValue.read names) value := by
  cases hvalue with
  | initializer hitem hsome =>
    refine (h.items _ hitem).bind fun w hw => ?_
    obtain ⟨fields, path, promoted, rfl, -, -, -, -, hinitializer, -⟩ := Item.exists_of_read hw
    rw [hsome] at hinitializer
    unfold ConstValue.read? at hinitializer
    split at hinitializer
    · cases hinitializer
    · rename_i hgiven
      obtain ⟨read, hread, hinitializer⟩ := bind_eq_ok_iff.1 hinitializer
      cases hinitializer
      exact (inside_field hgiven).yields hread
  | constant hbody hoccurs =>
    refine (h.body hbody).bind fun w hw => ?_
    refine ((Body.readIn_of_read hw).const hoccurs).bind fun u hu => ?_
    exact (Const.exists_of_read hu).2

/-- The memory of a program has been read inside its document. -/
theorem memory (h : p.ReadIn names document) {a : Allocation} (ha : p.HasMemory a) :
    document.Yields Allocation.read a := by
  cases ha with
  | stored hget =>
    obtain ⟨listed, hyields, -, hentry⟩ := h.entries _ _ hget
    refine hyields.bind fun w hw => ?_
    cases Directory.Listed.readIn_of_read hw with
    | memory hmemory =>
      cases hentry
      exact Inside.refl.yields hmemory
    | function => cases hentry
    | static _ => cases hentry
    | deallocated => cases hentry
  | held hvalue hmemory =>
    exact (h.value hvalue).bind fun w hw => (ConstValue.readIn_of_read hw).memory hmemory

end ReadIn

end Program

end MirListing
