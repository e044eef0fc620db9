import Mathlib.Data.List.Nodup
import MirListing.Proofs.Body.Occurrences
import MirListing.Proofs.Listing.Reachable
import MirListing.Proofs.Memory.Exploration

/-!
# The order of the appendix

The second walk of an appendix begins with the handles that the first has collected, in ascending
order, and these keep their order.  Whatever else it comes to has been found on the way: some handle
is the first whose listed memory stores a pointer to it (`Finds`).

What a handle finds goes in front of all that waits.  So a handle that has not been collected stands
behind the one that finds it, with no collected handle between the two (`exists_finder`), and behind
a collected handle stands just what it finds, at first hand or later (`mem_group_iff`).

The targets that memory adds are put on the stack from the last to the first, and one that is there
already is not put there again.  A target that is stored more than once therefore comes where it is
stored *last* (`new_targets_next`).  Only where no new target is stored twice is this the order of
the offsets.
-/

namespace MirListing

/-- The memory that is listed for a handle stores a pointer to another. -/
def Stores (items : ItemTable) (d : Directory) (id target : AllocId) : Prop :=
  ∃ a offset, Lists items d id a ∧ (offset, target) ∈ a.relocations

/-- A handle finds another that has not been collected: of all handles in the appendix it is the
first whose listed memory stores a pointer to it. -/
def Finds (items : ItemTable) (d : Directory) (body : Body) (id target : AllocId) : Prop :=
  target ∉ d.collect body.allocIds ∧ Stores items d id target ∧
    ∃ before after, appendixOrder items d body = before ++ id :: after ∧
      ∀ e ∈ before, ¬Stores items d e target

/-- The new targets of memory that is listed behind some handles, each once: what it stores a
pointer to, unless that has been collected or is stored in the memory of one of those handles. -/
structure NewTargets (items : ItemTable) (d : Directory) (body : Body) (before : List AllocId)
    (a : Allocation) (new : List AllocId) : Prop where
  nodup : new.Nodup
  mem_iff : ∀ t, t ∈ new ↔ (∃ offset, (offset, t) ∈ a.relocations) ∧
    t ∉ d.collect body.allocIds ∧ ∀ e ∈ before, ¬Stores items d e t

/-- Behind a handle its new targets come next: the first of them at once, the others in this order,
and all of them before any handle that waited. -/
def ListedNext (items : ItemTable) (d : Directory) (body : Body) (before after : List AllocId)
    (new : List AllocId) : Prop :=
  (∀ t, new.head? = some t → after.head? = some t) ∧
    ∃ group rest, after = group ++ rest ∧ new.Sublist group ∧
      ∀ x ∈ group, x ∉ d.collect body.allocIds ∧ ∀ e ∈ before, ¬Stores items d e x

/-- The last pointer to one target is stored before the last pointer to another. -/
def LastStoredBefore (a : Allocation) (s t : AllocId) : Prop :=
  ∃ j, (j, t) ∈ a.relocations ∧ ∀ i, (i, s) ∈ a.relocations → i < j

/-- The first pointer to one target is stored before the first pointer to another. -/
def FirstStoredBefore (a : Allocation) (s t : AllocId) : Prop :=
  ∃ i, (i, s) ∈ a.relocations ∧ ∀ j, (j, t) ∈ a.relocations → i < j

section

variable {items : ItemTable} {d : Directory} {body : Body}

/-! ## The second walk taken apart -/

theorem mem_listedTargets_iff_stores {id target : AllocId} :
    target ∈ d.listedTargets items id ↔ Stores items d id target :=
  Directory.mem_listedTargets

/-- The targets of a handle are those of the memory that is listed for it, in order. -/
theorem listedTargets_of_lists {id : AllocId} {a : Allocation} (h : Lists items d id a) :
    d.listedTargets items id = a.targets := by
  obtain ⟨entry, hentry, hlisted⟩ := Directory.lists_iff.1 h
  rw [Directory.listedTargets, hentry, Option.map_some, Option.getD_some,
    GlobalAlloc.listedTargets, hlisted, Option.map_some, Option.getD_some]

theorem explores_appendixOrder (items : ItemTable) (d : Directory) (body : Body) :
    ∃ last, Explores (d.listedTargets items) (d.collect body.allocIds) (d.collect body.allocIds)
      (appendixOrder items d body) last :=
  explores_visit _ _ _ (d.complements_unseenTargets (GlobalAlloc.listedTargets items) _)

/-- Behind a handle stands the group of what it finds: first its new targets, each where it is
stored last, and nothing that had been seen before. -/
theorem group_of_split {before after : List AllocId} {id : AllocId}
    (hsplit : appendixOrder items d body = before ++ id :: after) :
    ∃ found group rest, after = group ++ rest ∧ found.Sublist group ∧
      group.head? = found.head? ∧
      (∃ known, found = newTargets known (d.listedTargets items id)) ∧
      (∀ t, t ∈ found ↔ Stores items d id t ∧ t ∉ d.collect body.allocIds ∧
        ∀ e ∈ before, ¬Stores items d e t) ∧
      ∀ x ∈ group, x ∉ d.collect body.allocIds ∧ ∀ e ∈ before, ¬Stores items d e x := by
  obtain ⟨last, hwalk⟩ := explores_appendixOrder items d body
  obtain ⟨known, group, rest, middle, hafter, hknown, hgroup⟩ := hwalk.at_visit hsplit
  simp only [mem_listedTargets_iff_stores] at hknown
  have hnew : ∀ x, x ∉ known ↔
      x ∉ d.collect body.allocIds ∧ ∀ e ∈ before, ¬Stores items d e x := by
    intro x
    rw [hknown, not_or, not_exists]
    simp only [not_and]
  refine ⟨_, group, rest, hafter, hgroup.sublist, hgroup.head?, ⟨known, rfl⟩, fun t => ?_, ?_⟩
  · rw [mem_newTargets, mem_listedTargets_iff_stores, hnew]
  · intro x hx
    rw [← hnew]
    rcases hgroup.notMem_seen hx with hfound | hunseen
    · exact (mem_newTargets.1 hfound).2
    · exact fun hseen => hunseen (List.mem_append_right _ hseen)

/-! ## Collected handles -/

theorem eq_of_index_eq {a b : AllocId} (h : a.index = b.index) : a = b := by
  cases a
  cases b
  exact congrArg AllocId.mk h

/-- Sorted handles do not descend. -/
theorem pairwise_mergeSort (l : List AllocId) :
    l.mergeSort.Pairwise fun a b => a.index ≤ b.index := by
  refine (List.pairwise_mergeSort ?_ ?_ l).imp of_decide_eq_true
  · intro a b c hab hbc
    exact decide_eq_true (Int.le_trans (of_decide_eq_true hab) (of_decide_eq_true hbc))
  · intro a b
    rw [Bool.or_eq_true, decide_eq_true_iff, decide_eq_true_iff]
    exact Int.le_total a.index b.index

/-- Handles are collected in ascending order. -/
theorem pairwise_collect (d : Directory) (body : Body) :
    (d.collect body.allocIds).Pairwise fun a b => a.index < b.index := by
  obtain ⟨hnodup, -⟩ := d.nodup_and_mem_collect (nodup_eraseDups body.mentions)
  have hle : (d.collect body.allocIds).Pairwise fun a b => a.index ≤ b.index :=
    pairwise_mergeSort _
  refine (hle.and hnodup).imp fun {a b} ⟨hab, hne⟩ => ?_
  have hindex : a.index ≠ b.index := fun heq => hne (eq_of_index_eq heq)
  omega

/-- The collected handles keep their order. -/
theorem filter_appendixOrder (items : ItemTable) (d : Directory) (body : Body) :
    (appendixOrder items d body).filter (fun id => decide (id ∈ d.collect body.allocIds)) =
      d.collect body.allocIds := by
  obtain ⟨last, hwalk⟩ := explores_appendixOrder items d body
  rw [hwalk.filter_order fun x hx => hx]
  exact List.filter_eq_self.2 fun x hx => decide_eq_true hx

/-- The targets of collected memory are collected. -/
theorem mem_collect_of_memory {id target : AllocId} {a : Allocation} {offset : Nat}
    (hid : id ∈ d.collect body.allocIds) (hmemory : d.get? id = some (.memory a))
    (hstored : (offset, target) ∈ a.relocations) : target ∈ d.collect body.allocIds := by
  obtain ⟨-, hmem⟩ := d.nodup_and_mem_collect (nodup_eraseDups body.mentions)
  exact (hmem target).2 (.target ((hmem id).1 hid)
    (Directory.mem_memoryTargets.2 ⟨a, offset, hmemory, hstored⟩))

/-! ## Found handles -/

/-- What a handle finds stands behind it, with no collected handle between the two. -/
theorem exists_between {before after : List AllocId} {id x : AllocId}
    (hsplit : appendixOrder items d body = before ++ id :: after)
    (hx : x ∉ d.collect body.allocIds) (hstores : Stores items d id x)
    (hfirst : ∀ e ∈ before, ¬Stores items d e x) :
    ∃ between rest, after = between ++ x :: rest ∧
      ∀ y ∈ between, y ∉ d.collect body.allocIds := by
  obtain ⟨found, group, rest, rfl, hsub, -, -, hfound, hgroup⟩ := group_of_split hsplit
  have hmem : x ∈ group := hsub.subset ((hfound x).2 ⟨hstores, hx, hfirst⟩)
  obtain ⟨between, more, rfl⟩ := List.append_of_mem hmem
  refine ⟨between, more ++ rest, by simp, fun y hy => ?_⟩
  exact (hgroup y (List.mem_append_left _ hy)).1

/-- A handle that has not been collected is found. -/
theorem exists_finder {x : AllocId} (hx : x ∈ appendixOrder items d body)
    (hnew : x ∉ d.collect body.allocIds) :
    ∃ before id between after,
      appendixOrder items d body = before ++ id :: (between ++ x :: after) ∧
      Stores items d id x ∧ (∀ e ∈ before, ¬Stores items d e x) ∧
      ∀ y ∈ between, y ∉ d.collect body.allocIds := by
  obtain ⟨-, hreached⟩ := nodup_and_mem_appendixOrder items d body
  have hstored : ∃ e ∈ appendixOrder items d body, Stores items d e x := by
    have hwalk := Directory.reached_listed_iff.2 ((hreached x).1 hx)
    cases hwalk with
    | root hroot => exact absurd hroot hnew
    | @target e _ he htarget =>
      exact ⟨e, (hreached e).2 (Directory.reached_listed_iff.1 he),
        mem_listedTargets_iff_stores.1 htarget⟩
  -- of the handles that store a pointer to it, the first finds it
  obtain ⟨e, he, hstores⟩ := hstored
  have hsome : ((appendixOrder items d body).find?
      fun e => decide (x ∈ d.listedTargets items e)).isSome := by
    rw [List.find?_isSome]
    exact ⟨e, he, decide_eq_true (mem_listedTargets_iff_stores.2 hstores)⟩
  obtain ⟨id, hfind⟩ := Option.isSome_iff_exists.1 hsome
  obtain ⟨hid, before, after, hsplit, hbefore⟩ := List.find?_eq_some_iff_append.1 hfind
  have hfirst : ∀ e ∈ before, ¬Stores items d e x := by
    intro e he hstores
    have hno := hbefore e he
    rw [decide_eq_true (mem_listedTargets_iff_stores.2 hstores)] at hno
    cases hno
  have hstores := mem_listedTargets_iff_stores.1 (of_decide_eq_true hid)
  obtain ⟨between, rest, rfl, hbetween⟩ := exists_between hsplit hnew hstores hfirst
  exact ⟨before, id, between, rest, hsplit, hstores, hfirst, hbetween⟩

/-- An appendix can be cut at a handle in one way. -/
theorem split_unique {before after before' after' : List AllocId} {id : AllocId}
    (h : appendixOrder items d body = before ++ id :: after)
    (h' : appendixOrder items d body = before' ++ id :: after') :
    before = before' ∧ after = after' := by
  obtain ⟨hnodup, -⟩ := nodup_and_mem_appendixOrder items d body
  rw [h', List.nodup_middle, List.nodup_cons, List.mem_append, not_or] at hnodup
  obtain ⟨⟨hbefore, hafter⟩, -⟩ := hnodup
  obtain ⟨rfl, -, rfl⟩ := (List.append_cons_inj_of_notMem hbefore hafter).1 (h'.symm.trans h)
  exact ⟨rfl, rfl⟩

section

variable {before group rest : List AllocId} {c : AllocId}

/-- What a handle of a group finds belongs to the group. -/
theorem mem_group_of_finds
    (hsplit : appendixOrder items d body = before ++ c :: (group ++ rest))
    (hc : c ∈ d.collect body.allocIds)
    (hrest : ∀ next, rest.head? = some next → next ∈ d.collect body.allocIds) {id x : AllocId}
    (hid : id ∈ c :: group) (hfinds : Finds items d body id x) : x ∈ group := by
  obtain ⟨hnew, hstores, front, back, hcut, hfirst⟩ := hfinds
  obtain ⟨left, right, hparts⟩ := List.append_of_mem hid
  have hat : appendixOrder items d body = (before ++ left) ++ id :: (right ++ rest) := by
    rw [hsplit, ← List.cons_append, hparts]
    simp
  obtain ⟨-, hback⟩ := split_unique hat hcut
  obtain ⟨between, more, rfl, hbetween⟩ := exists_between hcut hnew hstores hfirst
  rcases append_eq_append_cons hback with ⟨middle, rfl, -⟩ | ⟨middle, rfl, rfl⟩
  · have hmem : x ∈ c :: group := by
      rw [hparts]
      simp
    rcases List.mem_cons.1 hmem with rfl | hmem
    · exact absurd hc hnew
    · exact hmem
  · -- behind the group the next handle has been collected, and so it would be or stand in between
    cases middle with
    | nil => exact absurd (hrest x rfl) hnew
    | cons y middle => exact absurd (hrest y rfl) (hbetween y (by simp))

/-- The handles of a group are found from the collected handle before it. -/
theorem transGen_of_mem_group
    (hsplit : appendixOrder items d body = before ++ c :: (group ++ rest))
    (hc : c ∈ d.collect body.allocIds) (hgroup : ∀ x ∈ group, x ∉ d.collect body.allocIds)
    {front back : List AllocId} {x : AllocId} (hx : group = front ++ x :: back) :
    Relation.TransGen (Finds items d body) c x := by
  induction hlength : front.length using Nat.strongRecOn generalizing front back x with
  | ind n ih =>
    subst hlength
    have hmem : x ∈ group := by simp [hx]
    have hat : appendixOrder items d body = (before ++ c :: front) ++ x :: (back ++ rest) := by
      rw [hsplit, hx]
      simp
    have horder : x ∈ appendixOrder items d body := by simp [hat]
    obtain ⟨left, id, between, after, hcut, hstores, hfirst, hbetween⟩ :=
      exists_finder horder (hgroup x hmem)
    have hfinds : Finds items d body id x :=
      ⟨hgroup x hmem, hstores, left, _, hcut, hfirst⟩
    have hcut' : appendixOrder items d body = (left ++ id :: between) ++ x :: after := by
      rw [hcut]
      simp
    obtain ⟨hfront, -⟩ := split_unique hcut' hat
    -- the collected handle is the finder or stands before it, since none stands in between
    rcases append_eq_append_cons hfront with ⟨middle, rfl, hmiddle⟩ | ⟨middle, rfl, hmiddle⟩
    · have hfront : front = middle ++ id :: between := hmiddle
      have hearlier : group = middle ++ id :: (between ++ x :: back) := by
        rw [hx, hfront]
        simp
      refine .tail (ih middle.length ?_ hearlier rfl) hfinds
      simp [hfront]
    · cases middle with
      | nil =>
        obtain ⟨rfl, -⟩ := List.cons.inj hmiddle
        exact .single hfinds
      | cons y middle =>
        obtain ⟨rfl, rfl⟩ := List.cons.inj hmiddle
        exact absurd hc (hbetween c (by simp))

/-- Behind a collected handle stands what it finds, at first hand or later, up to the next handle
that has been collected. -/
theorem mem_group_iff
    (hsplit : appendixOrder items d body = before ++ c :: (group ++ rest))
    (hc : c ∈ d.collect body.allocIds) (hgroup : ∀ x ∈ group, x ∉ d.collect body.allocIds)
    (hrest : ∀ next, rest.head? = some next → next ∈ d.collect body.allocIds) (x : AllocId) :
    x ∈ group ↔ Relation.TransGen (Finds items d body) c x := by
  constructor
  · intro hx
    obtain ⟨front, back, hparts⟩ := List.append_of_mem hx
    exact transGen_of_mem_group hsplit hc hgroup hparts
  · intro h
    induction h with
    | single hfinds => exact mem_group_of_finds hsplit hc hrest List.mem_cons_self hfinds
    | tail _ hfinds ih =>
      exact mem_group_of_finds hsplit hc hrest (List.mem_cons_of_mem _ ih) hfinds

end

/-- If no static finds anything, nothing is listed that has not been collected. -/
theorem mem_collect_of_no_static
    (hstatic : ∀ id item x, d.get? id = some (.static item) → ¬Finds items d body id x)
    {before after : List AllocId} {x : AllocId}
    (hsplit : appendixOrder items d body = before ++ x :: after) :
    x ∈ d.collect body.allocIds := by
  induction hlength : before.length using Nat.strongRecOn generalizing before after x with
  | ind n ih =>
    subst hlength
    refine Decidable.byContradiction fun hnew => ?_
    have hx : x ∈ appendixOrder items d body := by simp [hsplit]
    obtain ⟨front, id, between, rest, hcut, hstores, hfirst, -⟩ := exists_finder hx hnew
    have hcut' : appendixOrder items d body = (front ++ id :: between) ++ x :: rest := by
      rw [hcut]
      simp
    obtain ⟨rfl, -⟩ := split_unique hcut' hsplit
    have hid : id ∈ d.collect body.allocIds := ih front.length (by simp) hcut rfl
    obtain ⟨a, offset, hlists, hstored⟩ := hstores
    cases hlists with
    | memory hmemory => exact hnew (mem_collect_of_memory hid hmemory hstored)
    | static hentry hforeign hvalue =>
      exact hstatic id _ x hentry ⟨hnew, ⟨a, offset, .static hentry hforeign hvalue, hstored⟩,
        front, _, hcut, hfirst⟩

/-- If no static finds anything, the whole appendix is in ascending order. -/
theorem pairwise_appendixOrder
    (hstatic : ∀ id item x, d.get? id = some (.static item) → ¬Finds items d body id x) :
    (appendixOrder items d body).Pairwise fun a b => a.index < b.index := by
  have hall : (appendixOrder items d body).filter
      (fun id => decide (id ∈ d.collect body.allocIds)) = appendixOrder items d body := by
    refine List.filter_eq_self.2 fun x hx => decide_eq_true ?_
    obtain ⟨before, after, hsplit⟩ := List.append_of_mem hx
    exact mem_collect_of_no_static hstatic hsplit
  rw [← hall, filter_appendixOrder]
  exact pairwise_collect d body

/-! ## New targets -/

/-- Targets that are taken where they are named last stand in the order of their last pointers. -/
theorem pairwise_lastStoredBefore (known : List AllocId) (a : Allocation) :
    (newTargets known a.targets).Pairwise (LastStoredBefore a) := by
  obtain ⟨htargets, hoffsets⟩ := targets_eq_relocations a
  refine (pairwise_newTargets known a.targets).imp ?_
  rintro s t ⟨front, back, hsplit, hlast⟩
  rw [htargets] at hsplit
  obtain ⟨before, after, hparts, -, hafter⟩ := List.map_eq_append_iff.1 hsplit
  obtain ⟨⟨j, _⟩, later, rfl, rfl, rfl⟩ := List.map_eq_cons_iff.1 hafter
  rw [hparts, List.map_append, List.pairwise_append] at hoffsets
  refine ⟨j, by simp [hparts], fun i hi => ?_⟩
  rw [hparts, List.mem_append] at hi
  rcases hi with hi | hi
  · exact hoffsets.2.2 i (List.mem_map_of_mem hi) j List.mem_cons_self
  · exact absurd (List.mem_map_of_mem (f := Prod.snd) hi) hlast

/-- Of targets stored once the last pointer is the first. -/
theorem LastStoredBefore.firstStoredBefore {a : Allocation} {s t : AllocId}
    (h : LastStoredBefore a s t) (hs : ∃ i, (i, s) ∈ a.relocations)
    (honce : ∀ i j, (i, t) ∈ a.relocations → (j, t) ∈ a.relocations → i = j) :
    FirstStoredBefore a s t := by
  obtain ⟨j, hj, hlater⟩ := h
  obtain ⟨i, hi⟩ := hs
  refine ⟨i, hi, fun j' hj' => ?_⟩
  obtain rfl := honce j j' hj hj'
  exact hlater i hi

end

/-! ## The order of the appendix -/

/-- In an appendix the collected handles stand in ascending order.  Any other handle stands behind
the first one whose listed memory stores a pointer to it, and no collected handle comes between the
two.  So behind a collected handle stands, up to the next one, just what it finds, at first hand or
later; and if no static finds anything, the whole appendix is in ascending order. -/
theorem appendix_in_order_of_discovery {ctx : Context} {body : Body} {text : String}
    (h : (appendix ctx body).render = .ok text) :
    text = String.join ((appendixOrder ctx.items ctx.directory body).map fun id =>
        "\n" ++ id.text ++ entryText ctx id ++ "\n") ∧
    ((ctx.directory.collect body.allocIds).Pairwise (fun a b => a.index < b.index) ∧
      (appendixOrder ctx.items ctx.directory body).filter
          (fun id => decide (id ∈ ctx.directory.collect body.allocIds)) =
        ctx.directory.collect body.allocIds) ∧
    (∀ x ∈ appendixOrder ctx.items ctx.directory body, x ∉ ctx.directory.collect body.allocIds →
      ∃ before id between after,
        appendixOrder ctx.items ctx.directory body = before ++ id :: (between ++ x :: after) ∧
        Stores ctx.items ctx.directory id x ∧
        (∀ e ∈ before, ¬Stores ctx.items ctx.directory e x) ∧
        ∀ y ∈ between, y ∉ ctx.directory.collect body.allocIds) ∧
    (∀ before c group rest,
      appendixOrder ctx.items ctx.directory body = before ++ c :: (group ++ rest) →
      c ∈ ctx.directory.collect body.allocIds →
      (∀ x ∈ group, x ∉ ctx.directory.collect body.allocIds) →
      (∀ next, rest.head? = some next → next ∈ ctx.directory.collect body.allocIds) →
      ∀ x, x ∈ group ↔ Relation.TransGen (Finds ctx.items ctx.directory body) c x) ∧
    ((∀ id item x, ctx.directory.get? id = some (.static item) →
        ¬Finds ctx.items ctx.directory body id x) →
      (appendixOrder ctx.items ctx.directory body).Pairwise fun a b => a.index < b.index) :=
  ⟨(render_appendix h).1, ⟨pairwise_collect _ _, filter_appendixOrder _ _ _⟩,
    fun _ hx hnew => exists_finder hx hnew,
    fun _ _ _ _ hsplit hc hgroup hrest x => mem_group_iff hsplit hc hgroup hrest x,
    pairwise_appendixOrder⟩

/-- In `ring` the static finds what its memory alone points to, and this stands behind it. -/
theorem appendix_in_order_of_discovery_ring :
    (appendix ring ringBody).render = .ok ringText ∧
      (appendixOrder ring.items ring.directory ringBody).filter
        (fun id => decide (id ∈ ring.directory.collect ringBody.allocIds)) = [⟨0⟩, ⟨1⟩] ∧
      Relation.TransGen (Finds ring.items ring.directory ringBody) ⟨1⟩ ⟨2⟩ := by
  obtain ⟨-, ⟨-, hfilter⟩, -, hgroup, -⟩ := appendix_in_order_of_discovery render_ring
  rw [collect_ring] at hfilter hgroup
  refine ⟨render_ring, by rw [collect_ring, hfilter], ?_⟩
  exact (hgroup [⟨0⟩] ⟨1⟩ [⟨2⟩] [] appendixOrder_ring (by decide) (by decide) (by simp) ⟨2⟩).1
    List.mem_cons_self

/-- Behind a handle with listed memory its new targets come next.  Each stands where it is stored
last: their order is that of the last pointers, and it is that of the offsets if no new target is
stored twice. -/
theorem new_targets_next {ctx : Context} {body : Body} {text : String}
    (h : (appendix ctx body).render = .ok text) {before after : List AllocId} {id : AllocId}
    (hsplit : appendixOrder ctx.items ctx.directory body = before ++ id :: after)
    {a : Allocation} (hlists : Lists ctx.items ctx.directory id a) :
    text = String.join ((before ++ id :: after).map fun id =>
        "\n" ++ id.text ++ entryText ctx id ++ "\n") ∧
    ∃ new, NewTargets ctx.items ctx.directory body before a new ∧
      ListedNext ctx.items ctx.directory body before after new ∧
      new.Pairwise (LastStoredBefore a) ∧
      ((∀ t ∈ new, ∀ i j, (i, t) ∈ a.relocations → (j, t) ∈ a.relocations → i = j) →
        new.Pairwise (FirstStoredBefore a)) := by
  refine ⟨hsplit ▸ (render_appendix h).1, ?_⟩
  obtain ⟨found, group, rest, rfl, hsub, hhead, ⟨known, hknown⟩, hfound, hgroup⟩ :=
    group_of_split hsplit
  rw [listedTargets_of_lists hlists] at hknown
  have hstores : ∀ t, Stores ctx.items ctx.directory id t ↔
      ∃ offset, (offset, t) ∈ a.relocations := by
    intro t
    rw [← mem_listedTargets_iff_stores, listedTargets_of_lists hlists, Allocation.mem_targets]
  have hnew : NewTargets ctx.items ctx.directory body before a found := by
    refine ⟨?_, fun t => ?_⟩
    · rw [hknown]
      exact nodup_newTargets known a.targets
    · rw [hfound, hstores]
  have horder : found.Pairwise (LastStoredBefore a) := by
    rw [hknown]
    exact pairwise_lastStoredBefore known a
  refine ⟨found, hnew, ⟨fun t ht => ?_, group, rest, rfl, hsub, hgroup⟩, horder, fun honce => ?_⟩
  · rw [List.head?_append, hhead, ht, Option.some_or]
  · refine horder.imp_of_mem fun hs ht hbefore => ?_
    exact hbefore.firstStoredBefore ((hnew.mem_iff _).1 hs).1 (honce _ ht)

/-- Memory that points to one function, to another, and to the first again. -/
def stutterMemory : Allocation where
  cells := [{ byte := 0, target? := some ⟨1⟩ }, { byte := 0 },
    { byte := 0, target? := some ⟨2⟩ }, { byte := 0 },
    { byte := 0, target? := some ⟨1⟩ }, { byte := 0 }]

/-- The static of `stutterMemory`. -/
def stutterStatic : Item where
  id := { crate := .string "crate", path := [{ name := "S" }] }
  kind? := some .static
  initializer? := some (.byRef stutterMemory 0)

/-- The static and the functions. -/
def stutter : Context where
  items := ItemTable.registerAll {} [stutterStatic]
  directory := ((Directory.set {} ⟨0⟩ (.static stutterStatic.id)).set ⟨1⟩
    (.function (.string "f"))).set ⟨2⟩ (.function (.string "g"))
  layout := { pointerSize := .two }

/-- The appendix of a body that mentions the static. -/
def stutterText : String :=
  "\nalloc0 (static: S, size: 6, align: 1) \x7b\n" ++
  "    ╾───╼ ╾───╼ ╾───╼                               │ ╾╼╾╼╾╼\n\x7d\n" ++
  "\nalloc2 (fn: g)\n" ++
  "\nalloc1 (fn: f)\n"

theorem collect_stutter : stutter.directory.collect ringBody.allocIds = [⟨0⟩] := by
  have hvisit : visit stutter.directory.memoryTargets
      (stutter.directory.unseenTargets GlobalAlloc.memoryTargets ringBody.allocIds)
      ringBody.allocIds = [⟨0⟩] := by decide +kernel
  rw [Directory.collect, hvisit]
  exact List.mergeSort_of_pairwise (by decide)

theorem appendixOrder_stutter :
    appendixOrder stutter.items stutter.directory ringBody = [⟨0⟩, ⟨2⟩, ⟨1⟩] := by
  simp only [appendixOrder, collect_stutter]
  decide +kernel

theorem render_stutter : (appendix stutter ringBody).render = .ok stutterText := by
  rw [appendix, appendixOrder_stutter]
  exact Listing.render_eq_ok.2 (by decide +kernel)

theorem lists_stutter : Lists stutter.items stutter.directory ⟨0⟩ stutterMemory :=
  .static (by rfl) (by rfl) (by rfl)

/-- Both functions are new targets of the static, which is listed first. -/
theorem NewTargets.mem_stutter {new : List AllocId}
    (h : NewTargets stutter.items stutter.directory ringBody [] stutterMemory new) :
    ⟨1⟩ ∈ new ∧ ⟨2⟩ ∈ new := by
  constructor
  · exact (h.mem_iff _).2 ⟨⟨0, by decide⟩, by simp [collect_stutter], by simp⟩
  · exact (h.mem_iff _).2 ⟨⟨2, by decide⟩, by simp [collect_stutter], by simp⟩

theorem new_targets_next_stutter :
    (appendix stutter ringBody).render = .ok stutterText ∧
      ∃ new, NewTargets stutter.items stutter.directory ringBody [] stutterMemory new ∧
        ListedNext stutter.items stutter.directory ringBody [] [⟨2⟩, ⟨1⟩] new ∧
        ⟨1⟩ ∈ new ∧ ⟨2⟩ ∈ new ∧ new.Pairwise (LastStoredBefore stutterMemory) := by
  have hsplit : appendixOrder stutter.items stutter.directory ringBody =
      [] ++ ⟨0⟩ :: [⟨2⟩, ⟨1⟩] := appendixOrder_stutter
  obtain ⟨-, new, hnew, hnext, horder, -⟩ := new_targets_next render_stutter hsplit lists_stutter
  exact ⟨render_stutter, new, hnew, hnext, hnew.mem_stutter.1, hnew.mem_stutter.2, horder⟩

/-- The order is not that of the offsets where a target is stored twice: the first pointer of the
static is to the first function, and the second function is listed next. -/
theorem not_offset_order_stutter :
    (appendix stutter ringBody).render = .ok stutterText ∧
      appendixOrder stutter.items stutter.directory ringBody = [] ++ ⟨0⟩ :: [⟨2⟩, ⟨1⟩] ∧
      Lists stutter.items stutter.directory ⟨0⟩ stutterMemory ∧
      ¬∃ new, NewTargets stutter.items stutter.directory ringBody [] stutterMemory new ∧
        ListedNext stutter.items stutter.directory ringBody [] [⟨2⟩, ⟨1⟩] new ∧
        new.Pairwise (FirstStoredBefore stutterMemory) := by
  refine ⟨render_stutter, appendixOrder_stutter, lists_stutter, ?_⟩
  rintro ⟨new, hnew, ⟨hhead, -⟩, horder⟩
  obtain ⟨hone, htwo⟩ := hnew.mem_stutter
  cases new with
  | nil => cases hone
  | cons t new =>
    -- the first to be listed is the second function, so the first function would be stored after it
    obtain rfl := Option.some.inj (hhead t rfl)
    have hlater : (⟨1⟩ : AllocId) ∈ new := (List.mem_cons.1 hone).resolve_left (by decide)
    obtain ⟨i, -, hfirst⟩ := (List.pairwise_cons.1 horder).1 _ hlater
    exact absurd (hfirst 0 (by decide)) (Nat.not_lt_zero i)

end MirListing
