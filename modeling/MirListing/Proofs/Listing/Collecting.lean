import Mathlib.Logic.Relation
import MirListing.Proofs.Listing.Discovery

/-!
# What is collected from memory

The first walk of an appendix knows what it has seen and what waits, and nothing of the directory as
a whole.  It still comes to its end on every graph, since all that it can find is the target of some
entry, and then it has seen what chains of stored pointers lead to from the handles of the body
(`Directory.PointsTo`).  A chain goes on from memory only: a function, a static, and a handle that
refers to nothing are where it stops.

How the handles of the body and the pointers of each memory are listed decides on the order of the
walk, and so does the end of the stack from which it goes on, but what it has seen in the end is
always the same (`Walk.run_of_perm`).  Sorted, it is one list (`collect_chains`).
-/

namespace MirListing

/-! ## Chains of targets -/

section

variable {α : Type} {targets targets' : α → List α} {roots roots' : List α}

/-- What is reached stands at the end of a chain of targets. -/
theorem reached_iff_chain {x : α} :
    Reached targets roots x ↔
      ∃ root ∈ roots, Relation.ReflTransGen (fun a b => b ∈ targets a) root x := by
  constructor
  · intro h
    induction h with
    | root hroot => exact ⟨_, hroot, .refl⟩
    | target _ htarget ih =>
      obtain ⟨root, hroot, hchain⟩ := ih
      exact ⟨root, hroot, hchain.tail htarget⟩
  · rintro ⟨root, hroot, hchain⟩
    induction hchain with
    | refl => exact .root hroot
    | tail _ htarget ih => exact .target ih htarget

/-- How roots and targets are listed does not matter. -/
theorem reached_iff_of_perm (hroots : roots'.Perm roots)
    (htargets : ∀ x, (targets' x).Perm (targets x)) {x : α} :
    Reached targets' roots' x ↔ Reached targets roots x := by
  simp only [reached_iff_chain, hroots.mem_iff, (htargets _).mem_iff]

theorem Complements.of_perm {unseen : List α} (h : Complements targets unseen roots)
    (hroots : roots'.Perm roots) (htargets : ∀ x, (targets' x).Perm (targets x)) :
    Complements targets' unseen roots' where
  nodup := h.nodup
  mem_iff x y hy := by rw [h.mem_iff x y ((htargets x).mem_iff.1 hy), hroots.mem_iff]

/-! ## What a walk has seen -/

namespace Walk

variable [DecidableEq α]

theorem nodup_seen_step {w : Walk α} (h : w.seen.Nodup) : (w.step targets).seen.Nodup := by
  obtain ⟨seen, waiting, visited⟩ := w
  cases waiting with
  | nil => exact h
  | cons node rest =>
    refine List.nodup_append.2 ⟨nodup_newTargets seen (targets node), h, ?_⟩
    rintro x hnew y hold rfl
    exact (mem_newTargets.1 hnew).2 hold

theorem nodup_seen_run (turns : Nat) {w : Walk α} (h : w.seen.Nodup) :
    (w.run targets turns).seen.Nodup := by
  induction turns generalizing w with
  | zero => exact h
  | succ turns ih => exact ih (nodup_seen_step h)

/-- A walk has seen what is reached, each node once, after as many turns as there are reached nodes.
Whatever order they are listed in, it is the walk from these roots over these targets. -/
theorem run_of_perm {unseen : List α} (h : Complements targets unseen roots) (hnodup : roots.Nodup)
    (hroots : roots'.Perm roots) (htargets : ∀ x, (targets' x).Perm (targets x)) :
    ∃ seen order,
      (start roots').run targets' (visit targets unseen roots).length = ⟨seen, [], order⟩ ∧
      seen.Nodup ∧ ∀ x, x ∈ seen ↔ Reached targets roots x := by
  have hnodup' : roots'.Nodup := hroots.nodup_iff.2 hnodup
  obtain ⟨hvisit, hmem⟩ := (endsWith_visit h).nodup_and_mem_iff hnodup
  have h' := h.of_perm hroots htargets
  obtain ⟨hvisit', hmem'⟩ := (endsWith_visit h').nodup_and_mem_iff hnodup'
  have hperm : (visit targets' unseen roots').Perm (visit targets unseen roots) := by
    refine (List.perm_ext_iff_of_nodup hvisit' hvisit).2 fun x => ?_
    rw [hmem, hmem', reached_iff_of_perm hroots htargets]
  obtain ⟨seen, hrun⟩ := @run_visit _ _ targets' unseen roots' roots' [] h'
  rw [hperm.length_eq, List.nil_append] at hrun
  have hinv := invariant_run (visit targets unseen roots).length (invariant_start targets' hnodup')
  have hseen : ((start roots').run targets' (visit targets unseen roots).length).seen.Nodup :=
    nodup_seen_run _ hnodup'
  rw [start, hrun] at hinv hseen
  refine ⟨seen, _, hrun, hseen, fun x => ?_⟩
  rw [← reached_iff_of_perm hroots htargets, ← hinv.mem_visited_iff rfl]
  simpa using hinv.seen_iff x

end Walk

end

/-! ## Collected handles -/

namespace Directory

/-- A handle refers to memory that stores a pointer to another. -/
def PointsTo (d : Directory) (id target : AllocId) : Prop :=
  ∃ a offset, d.get? id = some (.memory a) ∧ (offset, target) ∈ a.relocations

/-- Only memory leads on. -/
theorem eq_of_chain {d : Directory} {id target : AllocId}
    (hid : ∀ a, d.get? id ≠ some (.memory a)) (h : Relation.ReflTransGen d.PointsTo id target) :
    target = id := by
  cases h.cases_head with
  | inl heq => exact heq.symm
  | inr hstep =>
    obtain ⟨_, ⟨a, _, hmemory, _⟩, _⟩ := hstep
    exact absurd hmemory (hid a)

theorem reached_iff_pointsTo {d : Directory} {roots : List AllocId} {id : AllocId} :
    Reached d.memoryTargets roots id ↔
      ∃ root ∈ roots, Relation.ReflTransGen d.PointsTo root id := by
  have hstep : (fun a b => b ∈ d.memoryTargets a) = d.PointsTo := by
    funext a b
    exact propext mem_memoryTargets
  rw [reached_iff_chain, hstep]

end Directory

/-- Sorting forgets an order. -/
theorem mergeSort_eq_of_perm {l l' : List AllocId} (h : l.Perm l') :
    l.mergeSort = l'.mergeSort := by
  have hperm : l.mergeSort.Perm l'.mergeSort :=
    (List.mergeSort_perm l _).trans (h.trans (List.mergeSort_perm l' _).symm)
  refine hperm.eq_of_pairwise (fun a b _ _ hab hba => ?_) (pairwise_mergeSort l)
    (pairwise_mergeSort l')
  exact eq_of_index_eq (Int.le_antisymm hab hba)

/-- The collected handles ascend, so none is listed twice, and they are those at the ends of chains
of stored pointers from the handles of the body; a chain ends where no memory is.  The walk that
collects them comes to its end after one turn for each, however the handles of the body and the
targets of each handle are listed, and what it has seen is always the same when it is sorted. -/
theorem collect_chains (d : Directory) (body : Body) :
    (d.collect body.allocIds).Pairwise (fun a b => a.index < b.index) ∧
    (∀ id, id ∈ d.collect body.allocIds ↔
      ∃ root ∈ body.allocIds, Relation.ReflTransGen d.PointsTo root id) ∧
    (∀ id, (∀ a, d.get? id ≠ some (.memory a)) →
      ∀ target, Relation.ReflTransGen d.PointsTo id target → target = id) ∧
    ∀ roots targets, roots.Perm body.allocIds →
      (∀ id, (targets id).Perm (d.memoryTargets id)) →
      ∃ seen order,
        (Walk.start roots).run targets (d.collect body.allocIds).length = ⟨seen, [], order⟩ ∧
        seen.mergeSort = d.collect body.allocIds := by
  have hroots : body.allocIds.Nodup := nodup_eraseDups body.mentions
  obtain ⟨hnodup, hmem⟩ := d.nodup_and_mem_collect hroots
  refine ⟨pairwise_collect d body, fun id => ?_, fun id hid target => Directory.eq_of_chain hid, ?_⟩
  · rw [hmem, Directory.reached_iff_pointsTo]
  · intro roots targets hperm htargets
    have hsupply := d.complements_unseenTargets GlobalAlloc.memoryTargets body.allocIds
    obtain ⟨seen, order, hrun, hseen, hreached⟩ := Walk.run_of_perm hsupply hroots hperm htargets
    have hcollect : seen.Perm (d.collect body.allocIds) := by
      refine (List.perm_ext_iff_of_nodup hseen hnodup).2 fun id => ?_
      rw [hreached, hmem]
      rfl
    refine ⟨seen, order, ?_, ?_⟩
    · rw [← hrun, Directory.collect, List.length_mergeSort]
      rfl
    · rw [mergeSort_eq_of_perm hcollect]
      exact List.mergeSort_of_pairwise ((pairwise_mergeSort _).imp decide_eq_true)

/-- Memory that points to other memory and to a function. -/
def knotFront : Allocation where
  cells := [{ byte := 0, target? := some ⟨1⟩ }, { byte := 0, target? := some ⟨3⟩ }]

/-- Memory that points back, to itself, and to nothing. -/
def knotBack : Allocation where
  cells := [{ byte := 0, target? := some ⟨2⟩ }, { byte := 0, target? := some ⟨0⟩ },
    { byte := 0, target? := some ⟨1⟩ }]

/-- Two memories that point to each other, and a function. -/
def knot : Directory :=
  ((Directory.set {} ⟨0⟩ (.memory knotFront)).set ⟨1⟩ (.memory knotBack)).set ⟨3⟩
    (.function (.string "f"))

/-- A type with pointers to both memories in it, to the second one first. -/
def knotTy : Ty :=
  .mk (.string "T") [.mk (.named "&T") (.pointer ⟨1⟩ 0), .mk (.named "&T") (.pointer ⟨0⟩ 0)]

/-- A body that mentions both memories. -/
def knotBody : Body where
  blocks := []
  locals := [{ ty := knotTy }]

theorem collect_knot : knot.collect knotBody.allocIds = [⟨0⟩, ⟨1⟩, ⟨2⟩, ⟨3⟩] := by
  have hvisit : (visit knot.memoryTargets
      (knot.unseenTargets GlobalAlloc.memoryTargets knotBody.allocIds) knotBody.allocIds).Perm
      [⟨0⟩, ⟨1⟩, ⟨2⟩, ⟨3⟩] := by decide +kernel
  rw [Directory.collect, mergeSort_eq_of_perm hvisit]
  exact List.mergeSort_of_pairwise (by decide)

theorem collect_chains_knot :
    knot.collect knotBody.allocIds = [⟨0⟩, ⟨1⟩, ⟨2⟩, ⟨3⟩] ∧
      (∃ seen order, (Walk.start [⟨0⟩, ⟨1⟩]).run (fun id => (knot.memoryTargets id).reverse) 4 =
          ⟨seen, [], order⟩ ∧ seen.mergeSort = [⟨0⟩, ⟨1⟩, ⟨2⟩, ⟨3⟩]) ∧
      ∀ target, Relation.ReflTransGen knot.PointsTo ⟨3⟩ target → target = ⟨3⟩ := by
  obtain ⟨-, -, hends, hruns⟩ := collect_chains knot knotBody
  obtain ⟨seen, order, hrun, hseen⟩ := hruns [⟨0⟩, ⟨1⟩] (fun id => (knot.memoryTargets id).reverse)
    (by decide +kernel) fun id => List.reverse_perm _
  rw [collect_knot] at hrun hseen
  refine ⟨collect_knot, ⟨seen, order, hrun, hseen⟩, hends ⟨3⟩ ?_⟩
  intro a h
  cases h

end MirListing
