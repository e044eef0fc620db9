import MirListing.Listing.Appendix
import MirListing.Proofs.Listing.Render
import MirListing.Proofs.Memory.Scan
import MirListing.Proofs.Memory.Walk

/-!
# What the appendix lists

A handle is `Reachable` from a body if a constant of the body refers to it, or if the memory that is
listed for a reachable handle stores a pointer to it (`Lists`).  The appendix has an entry for each
reachable handle and for no other, and no second one.

Two walks are chained.  The first follows memory only, so it finds too little where a static leads
on; the second begins with all that the first has found and follows `Lists`.  Since memory is listed
too, what the second reaches from there is just what is reachable from the body
(`reached_listed_iff`).  Both come to an end on every graph, since all targets come from the entries
of the directory (`complements_unseenTargets`).

A pointer that is drawn in a listed dump is stored there, so its target has an entry of its own.
-/

namespace MirListing

/-! ## Reachable handles -/

/-- The memory that is listed for a handle: its own, or the value of the static it refers to. -/
inductive Lists (items : ItemTable) (d : Directory) (id : AllocId) : Allocation → Prop
  | memory {a : Allocation} : d.get? id = some (.memory a) → Lists items d id a
  | static {item : ItemId} {a : Allocation} {offset : Int} : d.get? id = some (.static item) →
      items.isForeign item = false → items.evaluate item = .ok (.byRef a offset) →
      Lists items d id a

/-- A handle can be reached from a body: the least set with the handles that the body mentions and
the targets of all pointers in the memory that is listed for its handles. -/
inductive Reachable (items : ItemTable) (d : Directory) (body : Body) : AllocId → Prop
  | mentioned {id : AllocId} : id ∈ body.allocIds → Reachable items d body id
  | stored {id target : AllocId} {a : Allocation} {offset : Nat} : Reachable items d body id →
      Lists items d id a → (offset, target) ∈ a.relocations → Reachable items d body target

/-! ## Targets -/

theorem nodup_eraseDups {α : Type} [DecidableEq α] (l : List α) : l.eraseDups.Nodup := by
  induction hlength : l.length using Nat.strongRecOn generalizing l with
  | ind n ih =>
    cases l with
    | nil => exact List.nodup_nil
    | cons x rest =>
      subst hlength
      have hshorter := List.length_filter_le (fun y => !y == x) rest
      have hrest := ih _ (Nat.lt_succ_of_le hshorter) _ rfl
      rw [List.eraseDups_cons]
      exact List.nodup_cons.2 ⟨by simp, hrest⟩

namespace Directory

/-- The targets that the first walk follows are the pointers in memory. -/
theorem mem_memoryTargets {d : Directory} {id target : AllocId} :
    target ∈ d.memoryTargets id ↔
      ∃ a offset, d.get? id = some (.memory a) ∧ (offset, target) ∈ a.relocations := by
  unfold memoryTargets
  cases hentry : d.get? id with
  | none => simp
  | some entry =>
    cases entry with
    | function => simp [GlobalAlloc.memoryTargets]
    | static => simp [GlobalAlloc.memoryTargets]
    | memory a => simp [GlobalAlloc.memoryTargets, Allocation.mem_targets]

theorem lists_iff {items : ItemTable} {d : Directory} {id : AllocId} {a : Allocation} :
    Lists items d id a ↔
      ∃ entry, d.get? id = some entry ∧ entry.listedMemory? items = some a := by
  constructor
  · intro h
    cases h with
    | memory hentry => exact ⟨_, hentry, rfl⟩
    | static hentry hforeign hvalue =>
      refine ⟨_, hentry, ?_⟩
      simp [GlobalAlloc.listedMemory?, hforeign, hvalue]
  · rintro ⟨entry, hentry, hlisted⟩
    cases entry with
    | function => simp [GlobalAlloc.listedMemory?] at hlisted
    | memory a' =>
      obtain rfl : a' = a := by simpa [GlobalAlloc.listedMemory?] using hlisted
      exact .memory hentry
    | static item =>
      simp only [GlobalAlloc.listedMemory?] at hlisted
      split at hlisted
      · simp at hlisted
      · rename_i hforeign
        split at hlisted
        · rename_i hvalue
          obtain rfl := Option.some.inj hlisted
          exact .static hentry (Bool.not_eq_true _ ▸ hforeign) hvalue
        · simp at hlisted

/-- The targets that the second walk follows are the pointers in listed memory. -/
theorem mem_listedTargets {items : ItemTable} {d : Directory} {id target : AllocId} :
    target ∈ d.listedTargets items id ↔
      ∃ a offset, Lists items d id a ∧ (offset, target) ∈ a.relocations := by
  simp only [lists_iff]
  unfold listedTargets
  cases hentry : d.get? id with
  | none => simp
  | some entry =>
    simp only [Option.map_some, Option.getD_some, Option.some.injEq, exists_eq_left',
      GlobalAlloc.listedTargets]
    cases hlisted : entry.listedMemory? items with
    | none => simp
    | some a => simp [Allocation.mem_targets]

/-! ## Unseen targets -/

/-- The targets of the entries are all that a walk can find. -/
theorem complements_unseenTargets (d : Directory) (targets : GlobalAlloc → List AllocId)
    (seen : List AllocId) :
    Complements (fun id => ((d.get? id).map targets).getD []) (d.unseenTargets targets seen)
      seen := by
  constructor
  · exact (nodup_eraseDups _).filter _
  · intro id target htarget
    cases hentry : d.get? id with
    | none => simp [hentry] at htarget
    | some entry =>
      rw [hentry] at htarget
      have hvalue : entry ∈ d.entries.values := OrderedMap.mem_values_of_get? hentry
      have hlisted : target ∈ (d.entries.values.flatMap targets).eraseDups :=
        List.mem_eraseDups.2 (List.mem_flatMap.2 ⟨entry, hvalue, htarget⟩)
      simp [unseenTargets, List.mem_filter, hlisted]

/-! ## The two walks -/

/-- The first walk comes to its end. -/
theorem collect_ends (d : Directory) (roots : List AllocId) :
    ∃ collected, Walk.EndsWith d.memoryTargets roots collected ∧
      d.collect roots = collected.mergeSort :=
  ⟨_, Walk.endsWith_visit (complements_unseenTargets d GlobalAlloc.memoryTargets roots), rfl⟩

/-- The first walk finds what memory leads to, each handle once. -/
theorem nodup_and_mem_collect (d : Directory) {roots : List AllocId} (hroots : roots.Nodup) :
    (d.collect roots).Nodup ∧
      ∀ id, id ∈ d.collect roots ↔ Reached d.memoryTargets roots id := by
  obtain ⟨collected, hends, heq⟩ := d.collect_ends roots
  obtain ⟨hnodup, hmem⟩ := hends.nodup_and_mem_iff hroots
  rw [heq]
  constructor
  · exact (List.mergeSort_perm _ _).nodup_iff.2 hnodup
  · intro id
    rw [List.mem_mergeSort]
    exact hmem id

/-- The second walk comes to its end. -/
theorem appendixOrder_ends (items : ItemTable) (d : Directory) (body : Body) :
    Walk.EndsWith (d.listedTargets items) (d.collect body.allocIds)
      (appendixOrder items d body) :=
  Walk.endsWith_visit (complements_unseenTargets d (GlobalAlloc.listedTargets items) _)

/-- From what the first walk has found, the second reaches what is reachable from the body. -/
theorem reached_listed_iff {items : ItemTable} {d : Directory} {body : Body} {id : AllocId} :
    Reached (d.listedTargets items) (d.collect body.allocIds) id ↔
      Reachable items d body id := by
  obtain ⟨-, hcollect⟩ := d.nodup_and_mem_collect (nodup_eraseDups body.mentions)
  constructor
  · intro h
    induction h with
    | root hroot =>
      have hfirst := (hcollect _).1 hroot
      clear hroot
      induction hfirst with
      | root hmentioned => exact .mentioned hmentioned
      | target _ htarget ih =>
        obtain ⟨a, offset, hmemory, hstored⟩ := mem_memoryTargets.1 htarget
        exact .stored ih (.memory hmemory) hstored
    | target _ htarget ih =>
      obtain ⟨a, offset, hlists, hstored⟩ := mem_listedTargets.1 htarget
      exact .stored ih hlists hstored
  · intro h
    induction h with
    | mentioned hmentioned => exact .root ((hcollect _).2 (.root hmentioned))
    | stored _ hlists hstored ih =>
      exact .target ih (mem_listedTargets.2 ⟨_, _, hlists, hstored⟩)

end Directory

/-- The appendix is ordered without repetition over the reachable handles. -/
theorem nodup_and_mem_appendixOrder (items : ItemTable) (d : Directory) (body : Body) :
    (appendixOrder items d body).Nodup ∧
      ∀ id, id ∈ appendixOrder items d body ↔ Reachable items d body id := by
  obtain ⟨hcollect, -⟩ := d.nodup_and_mem_collect (nodup_eraseDups body.mentions)
  obtain ⟨hnodup, hmem⟩ := (Directory.appendixOrder_ends items d body).nodup_and_mem_iff hcollect
  refine ⟨hnodup, ?_⟩
  intro id
  rw [hmem id]
  exact Directory.reached_listed_iff

/-! ## Entries -/

/-- What stands behind a handle in the appendix. -/
def entryText (ctx : Context) (id : AllocId) : String :=
  (entryListing ctx.items ctx.layout (ctx.directory.get? id)).written

theorem render_appendixEntry {ctx : Context} {id : AllocId} {text : String}
    (h : (appendixEntry ctx id).render = .ok text) :
    text = "\n" ++ id.text ++ entryText ctx id ++ "\n" ∧
      (entryListing ctx.items ctx.layout (ctx.directory.get? id)).render =
        .ok (entryText ctx id) := by
  obtain ⟨front, _, hfront, hend, rfl⟩ := Listing.render_append_eq_ok.1 h
  obtain ⟨_, entry, hhead, hentry, rfl⟩ := Listing.render_append_eq_ok.1 hfront
  rw [Listing.render_text, Except.ok.injEq] at hhead hend
  obtain rfl : entryText ctx id = entry := (Listing.render_eq_ok.1 hentry).2
  exact ⟨by rw [← hhead, ← hend], hentry⟩

/-- An appendix that renders has the entries of its handles, and nothing else. -/
theorem render_appendix {ctx : Context} {body : Body} {text : String}
    (h : (appendix ctx body).render = .ok text) :
    text = String.join ((appendixOrder ctx.items ctx.directory body).map fun id =>
        "\n" ++ id.text ++ entryText ctx id ++ "\n") ∧
      ∀ id ∈ appendixOrder ctx.items ctx.directory body,
        (entryListing ctx.items ctx.layout (ctx.directory.get? id)).render =
          .ok (entryText ctx id) := by
  obtain ⟨hentries, rfl⟩ := Listing.render_concat_eq_ok.1 h
  have hentry : ∀ id ∈ appendixOrder ctx.items ctx.directory body, _ := fun id hid =>
    render_appendixEntry (hentries _ (List.mem_map_of_mem hid))
  refine ⟨?_, fun id hid => (hentry id hid).2⟩
  rw [List.map_map]
  congr 1
  apply List.map_congr_left
  intro id hid
  exact (hentry id hid).1

/-- The memory that is listed for a handle is dumped at the end of its entry. -/
theorem Lists.exists_block {ctx : Context} {id : AllocId} {a : Allocation}
    (h : Lists ctx.items ctx.directory id a) {text : String}
    (hrender : (entryListing ctx.items ctx.layout (ctx.directory.get? id)).render = .ok text) :
    ∃ head dump, (HexDump.block ctx.layout a).render = .ok dump ∧ text = head ++ dump := by
  cases h with
  | memory hentry =>
    rw [hentry, entryListing] at hrender
    obtain ⟨head, dump, -, hdump, rfl⟩ := Listing.render_append_eq_ok.1 hrender
    exact ⟨head, dump, hdump, rfl⟩
  | @static item _ _ hentry hforeign hvalue =>
    rw [hentry, entryListing, staticListing] at hrender
    simp only [hforeign, hvalue] at hrender
    cases hkey : item.key?.isNone with
    | true => simp [hkey] at hrender
    | false =>
      simp only [hkey, Bool.false_eq_true, if_false] at hrender
      obtain ⟨head, dump, -, hdump, rfl⟩ := Listing.render_append_eq_ok.1 hrender
      exact ⟨head, dump, hdump, rfl⟩

/-! ## The appendix -/

/-- The walks of an appendix come to their ends, and one that renders has an entry for each
reachable handle, no second one, and none for any other handle.  So a pointer that is drawn in a
dump has just one entry of its own. -/
theorem appendix_lists_reachable (ctx : Context) (body : Body) :
    (∃ collected, Walk.EndsWith ctx.directory.memoryTargets body.allocIds collected ∧
      Walk.EndsWith (ctx.directory.listedTargets ctx.items) collected.mergeSort
        (appendixOrder ctx.items ctx.directory body)) ∧
    ∀ text, (appendix ctx body).render = .ok text →
      ∃ (order : List AllocId) (entry : AllocId → String),
        text = String.join (order.map fun id => "\n" ++ id.text ++ entry id ++ "\n") ∧
        (∀ id ∈ order, (entryListing ctx.items ctx.layout (ctx.directory.get? id)).render =
          .ok (entry id)) ∧
        order.Nodup ∧
        (∀ id, id ∈ order ↔ Reachable ctx.items ctx.directory body id) ∧
        ∀ id ∈ order, ∀ a, Lists ctx.items ctx.directory id a →
          (∃ head dump, (HexDump.block ctx.layout a).render = .ok dump ∧
            entry id = head ++ dump) ∧
          ∀ i t, HexDump.Drawn ctx.layout a i t → order.count t = 1 := by
  constructor
  · obtain ⟨collected, hfirst, heq⟩ := ctx.directory.collect_ends body.allocIds
    have hsecond := Directory.appendixOrder_ends ctx.items ctx.directory body
    rw [heq] at hsecond
    exact ⟨collected, hfirst, hsecond⟩
  · intro text h
    obtain ⟨htext, hentries⟩ := render_appendix h
    obtain ⟨hnodup, hmem⟩ := nodup_and_mem_appendixOrder ctx.items ctx.directory body
    refine ⟨_, entryText ctx, htext, hentries, hnodup, hmem, ?_⟩
    intro id hid a hlists
    refine ⟨hlists.exists_block (hentries id hid), ?_⟩
    intro i t hdrawn
    have hreachable : Reachable ctx.items ctx.directory body t :=
      .stored ((hmem id).1 hid) hlists hdrawn.2
    rw [hnodup.count, if_pos ((hmem t).2 hreachable)]

/-- The memory of a static, with a pointer back to what leads to it and another that dangles. -/
def ringMemory : Allocation where
  cells := [{ byte := 0, target? := some ⟨0⟩ }, { byte := 0 },
    { byte := 0, target? := some ⟨2⟩ }, { byte := 0 }]

/-- Memory with a pointer to the static. -/
def ringFront : Allocation where
  cells := [{ byte := 0, target? := some ⟨1⟩ }, { byte := 0 }]

/-- The static of `ringMemory`. -/
def ringStatic : Item where
  id := { crate := .string "crate", path := [{ name := "RING" }] }
  kind? := some .static
  initializer? := some (.byRef ringMemory 0)

/-- Memory and a static that point to each other. -/
def ring : Context where
  items := ItemTable.registerAll {} [ringStatic]
  directory := (Directory.set {} ⟨0⟩ (.memory ringFront)).set ⟨1⟩ (.static ringStatic.id)
  layout := { pointerSize := .two }

/-- A body that mentions the memory of `ring`. -/
def ringBody : Body where
  blocks := []
  locals := [{ ty := .mk (.string "T") [.mk (.named "&T") (.pointer ⟨0⟩ 0)] }]

/-- The appendix of `ringBody`. -/
def ringText : String :=
  "\nalloc0 (size: 2, align: 1) \x7b\n" ++
  "    ╾───╼                                           │ ╾╼\n\x7d\n" ++
  "\nalloc1 (static: RING, size: 4, align: 1) \x7b\n" ++
  "    ╾───╼ ╾───╼                                     │ ╾╼╾╼\n\x7d\n" ++
  "\nalloc2 (deallocated)\n"

theorem collect_ring : ring.directory.collect ringBody.allocIds = [⟨0⟩, ⟨1⟩] := by
  have hvisit : visit ring.directory.memoryTargets
      (ring.directory.unseenTargets GlobalAlloc.memoryTargets ringBody.allocIds)
      ringBody.allocIds = [⟨0⟩, ⟨1⟩] := by decide +kernel
  rw [Directory.collect, hvisit]
  exact List.mergeSort_of_pairwise (by decide)

theorem appendixOrder_ring :
    appendixOrder ring.items ring.directory ringBody = [⟨0⟩, ⟨1⟩, ⟨2⟩] := by
  simp only [appendixOrder, collect_ring]
  decide +kernel

theorem render_ring : (appendix ring ringBody).render = .ok ringText := by
  rw [appendix, appendixOrder_ring]
  exact Listing.render_eq_ok.2 (by decide +kernel)

theorem lists_ring : Lists ring.items ring.directory ⟨1⟩ ringMemory :=
  .static (by rfl) (by rfl) (by rfl)

theorem appendix_lists_reachable_ring :
    (appendix ring ringBody).render = .ok ringText ∧
      HexDump.Drawn ring.layout ringMemory 0 ⟨0⟩ ∧
      ∃ (order : List AllocId) (entry : AllocId → String),
        ringText = String.join (order.map fun id => "\n" ++ id.text ++ entry id ++ "\n") ∧
        order.Nodup ∧ (∀ id, id ∈ order ↔ Reachable ring.items ring.directory ringBody id) ∧
        ⟨2⟩ ∈ order ∧ order.count ⟨0⟩ = 1 := by
  obtain ⟨order, entry, htext, -, hnodup, hmem, hdumps⟩ :=
    (appendix_lists_reachable ring ringBody).2 ringText render_ring
  have hdrawn : HexDump.Drawn ring.layout ringMemory 0 ⟨0⟩ := ⟨.start, by decide⟩
  have hfirst : Reachable ring.items ring.directory ringBody ⟨0⟩ := .mentioned (by decide +kernel)
  have hstatic : Reachable ring.items ring.directory ringBody ⟨1⟩ :=
    @Reachable.stored _ _ _ _ _ ringFront 0 hfirst (.memory (by rfl)) (by decide)
  have hdangling : Reachable ring.items ring.directory ringBody ⟨2⟩ :=
    @Reachable.stored _ _ _ _ _ _ 2 hstatic lists_ring (by decide)
  refine ⟨render_ring, hdrawn, order, entry, htext, hnodup, hmem, (hmem _).2 hdangling, ?_⟩
  exact (hdumps _ ((hmem _).2 hstatic) _ lists_ring).2 _ _ hdrawn

end MirListing
