import MirListing.Proofs.Memory.History
import MirListing.Reader.Program

/-!
# Directories of programs

The directory of a program starts with a history, the entries of the allocations in the document.
An entry `Listed` there makes its handle refer to something, or it makes the handle used and leaves
it without meaning.  Neither depends on the entries before it, so reading the entries and carrying
out what they say can be taken apart (`foldlM_readEntry_eq`), and the directory of a program is what
the operations of its document make of the empty one (`Program.directory_of_read`).  What is done to
the directory afterwards continues that history.
-/

namespace MirListing

namespace Directory

/-- What the entry of an allocation says. -/
structure Listed where
  /-- The handle that it is for. -/
  handle : AllocId
  /-- What the handle refers to; a handle that has been deallocated refers to nothing. -/
  entry? : Option GlobalAlloc

namespace Listed

/-- Reads the entry of an allocation. -/
def read (names : Names) (value : Value) : Outcome Listed := do
  let handle : AllocId := ⟨← (← value.require "allocation" "id").toInteger⟩
  let (kind, fields) ← value.tagged "allocation"
  match kind with
  | .text "memory" => return { handle, entry? := some (.memory (← Allocation.read value)) }
  | .text "fn" =>
      let text ← Value.require "fn allocation" "instance" (.object fields)
      return { handle, entry? := some (.function text) }
  | .text "static" =>
      let path ← Value.require "static allocation" "path" (.object fields)
      return { handle, entry? := some (.static (← names.resolve path)) }
  | .text "deallocated" => return { handle, entry? := none }
  | _ => .error (.document (.unknown "allocation kind" (.spelled kind)))

/-- The operations that an entry stands for.  A handle is used by being set, so one that refers to
nothing is set first and deallocated then. -/
def operations (listed : Listed) : List Operation :=
  match listed.entry? with
  | some entry => [.set listed.handle entry]
  | none => [.set listed.handle (.function (.string "")), .deallocate listed.handle]

theorem exists_event (d : Directory) (listed : Listed) :
    ∃ event ∈ d.history listed.operations,
      event.handle = listed.handle ∧ event.operation.uses = true := by
  obtain ⟨handle, entry?⟩ := listed
  cases entry? with
  | some entry => exact ⟨_, List.mem_cons_self, rfl, rfl⟩
  | none => exact ⟨_, List.mem_cons_self, rfl, rfl⟩

/-- Entries use the handles that they are for. -/
theorem exists_event_of_mem {d : Directory} {entries : List Listed} {listed : Listed}
    (h : listed ∈ entries) :
    ∃ event ∈ d.history (entries.flatMap operations),
      event.handle = listed.handle ∧ event.operation.uses = true := by
  induction entries generalizing d with
  | nil => cases h
  | cons first rest ih =>
    rw [List.flatMap_cons, history_append]
    cases h with
    | head =>
      obtain ⟨event, hevent, hused⟩ := exists_event d listed
      exact ⟨event, List.mem_append_left _ hevent, hused⟩
    | tail _ hrest =>
      obtain ⟨event, hevent, hused⟩ := ih hrest
      exact ⟨event, List.mem_append_right _ hevent, hused⟩

end Listed

variable {d : Directory} {names : Names}

/-- Reading an entry into a directory is reading it and carrying out what it says. -/
theorem readEntry_eq (value : Value) :
    d.readEntry names value =
      (Listed.read names value).map fun listed => d.after listed.operations := by
  unfold readEntry Listed.read
  cases value.require "allocation" "id" with
  | error fault => rfl
  | ok number =>
    simp only [bind, Except.bind]
    cases number.toInteger with
    | error fault => rfl
    | ok n =>
      cases value.tagged "allocation" with
      | error fault => rfl
      | ok tagged =>
        obtain ⟨kind, fields⟩ := tagged
        simp only
        split
        · cases Allocation.read value <;> rfl
        · cases Value.require "fn allocation" "instance" (.object fields) <;> rfl
        · cases Value.require "static allocation" "path" (.object fields) with
          | error fault => rfl
          | ok path =>
            simp only
            cases names.resolve path <;> rfl
        · rfl
        · -- of a kind that is none of the four
          simp [Except.map, *]

/-- Reading entries into a directory is reading them all and carrying out what they say. -/
theorem foldlM_readEntry_eq (values : List Value) :
    values.foldlM (readEntry names) d =
      (values.mapM (Listed.read names)).map fun listed =>
        d.after (listed.flatMap Listed.operations) := by
  induction values generalizing d with
  | nil => rfl
  | cons value rest ih =>
    rw [List.foldlM_cons, List.mapM_cons, readEntry_eq]
    cases Listed.read names value with
    | error fault => rfl
    | ok listed =>
      change rest.foldlM (readEntry names) (d.after listed.operations) = _
      rw [ih]
      cases rest.mapM (Listed.read names) with
      | error fault => rfl
      | ok others => exact congrArg Except.ok (after_append ..).symm

theorem exists_listed_of_foldlM {values : List Value} {d' : Directory}
    (h : values.foldlM (readEntry names) d = .ok d') :
    ∃ entries, values.mapM (Listed.read names) = .ok entries ∧
      d' = d.after (entries.flatMap Listed.operations) := by
  rw [foldlM_readEntry_eq] at h
  cases hentries : values.mapM (Listed.read names) with
  | error fault =>
    rw [hentries] at h
    cases h
  | ok entries =>
    rw [hentries] at h
    exact ⟨entries, rfl, (Except.ok.inj h).symm⟩

end Directory

namespace Program

open Directory

/-- What the entries of the allocations of a document say, in order. -/
def listed : Value → Outcome (List Listed)
  | .object fields => do
      let names ← Names.ofEntries (← (Fields.field "items" fields).elementsIfGiven)
      (← (Fields.field "allocations" fields).elementsIfGiven).mapM (Listed.read names)
  | _ => .error (.document (.notAnObject "program document"))

/-- The directory of a program is what the entries in its document make of the empty one. -/
theorem directory_of_read {document : Value} {p : Program} (h : read document = .ok p) :
    ∃ entries, listed document = .ok entries ∧
      p.directory = ({} : Directory).after (entries.flatMap Listed.operations) := by
  cases document with
  | object fields =>
    simp only [read, bind_eq_ok_iff] at h
    obtain ⟨layout, -, items, hitems, names, hnames, values, hvalues, d, hd, _, -, hp⟩ := h
    obtain ⟨entries, hentries, rfl⟩ := exists_listed_of_foldlM hd
    obtain rfl := Except.ok.inj hp
    refine ⟨entries, ?_, rfl⟩
    simp only [listed, bind_eq_ok_iff]
    exact ⟨items, hitems, names, hnames, values, hvalues, hentries⟩
  | null | bool | integer | number | spelled | array => cases h

end Program

/-! ## Handles -/

open Directory

/-- A handle that is given out after a program has been loaded, and after any operations since then,
is a new one: it is beyond all handles that the document lists and all that have been used, and has
no entry.  At any time a handle refers to what it was last made to refer to, unless that has been
taken away since; and an operation changes nothing about the handles that it does not concern. -/
theorem handles_after_loading {document : Value} {p : Program}
    (h : Program.read document = .ok p) :
    ∃ entries, Program.listed document = .ok entries ∧ ∀ ops : List Operation,
      let d := p.directory.after ops
      let events := ({} : Directory).history (entries.flatMap Listed.operations) ++
        p.directory.history ops
      (∀ id, id = d.reserve.1 ∨ (∃ entry, id = (d.create entry).1) →
        (∀ listed ∈ entries, listed.handle.index < id.index) ∧
        (∀ event ∈ events, event.operation.uses = true → event.handle.index < id.index) ∧
        d.get? id = none) ∧
      (∀ id entry, d.get? id = some entry ↔ LastPut events id entry) ∧
      ∀ (op : Operation) id, op.handle d ≠ id → (d.apply op).get? id = d.get? id := by
  obtain ⟨entries, hlisted, hdirectory⟩ := Program.directory_of_read h
  refine ⟨entries, hlisted, fun ops => ?_⟩
  intro d events
  have hrecords : Records d events := by
    have hloaded := records_empty.after (entries.flatMap Listed.operations)
    rw [← hdirectory, List.nil_append] at hloaded
    exact hloaded.after ops
  refine ⟨fun id hid => ?_, hrecords.get?_iff, fun op id hid => ?_⟩
  · -- the handle of a creation is the one that is reserved for it
    obtain rfl : id = d.reserve.1 := by
      rcases hid with rfl | ⟨entry, rfl⟩ <;> rfl
    obtain ⟨hbeyond, hnone⟩ := hrecords.reserve
    refine ⟨fun listed hmem => ?_, hbeyond, hnone⟩
    obtain ⟨event, hevent, hhandle, huses⟩ := Listed.exists_event_of_mem hmem
    rw [← hhandle]
    exact hbeyond event (List.mem_append_left _ hevent) huses
  · rw [get?_apply, if_neg hid]

/-- A document whose allocations have far, negative and deallocated handles. -/
def sparseDocument : Value :=
  .object [(.text "allocations", .array [
    .object [
      (.text "id", .integer 5), (.text "kind", .string "fn"), (.text "instance", .string "f")],
    .object [(.text "id", .integer 9), (.text "kind", .string "deallocated")],
    .object [(.text "id", .integer (-2)), (.text "kind", .string "memory")]])]

/-- What has been done to its directory: another far handle has come and gone. -/
def sparseOperations : List Operation :=
  [.set ⟨20⟩ (.function (.string "g")), .deallocate ⟨20⟩, .deallocate ⟨5⟩]

theorem handles_after_loading_sparse :
    ∃ p, Program.read sparseDocument = .ok p ∧
      (p.directory.after sparseOperations).reserve.1 = ⟨21⟩ ∧
      (p.directory.after sparseOperations).get? ⟨21⟩ = none := by
  refine ⟨_, rfl, rfl, ?_⟩
  obtain ⟨entries, -, hlater⟩ := @handles_after_loading sparseDocument _ rfl
  exact ((hlater sparseOperations).1 _ (.inl rfl)).2.2

end MirListing
