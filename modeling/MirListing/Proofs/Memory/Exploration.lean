import MirListing.Proofs.Lists
import MirListing.Proofs.Memory.Walk

/-!
# Walks taken apart

What a node finds is put in front of the nodes that wait, so all of it is visited before any of them
is, and so is whatever it leads to.  `Explores` describes a walk by this alone: each waiting node is
followed by a whole walk over what it finds, its *group*, and only then comes the next one.  The
walk that `visit` lists is of this form (`explores_visit`).

From the form follow the order of a walk and what it depends on.  At the visit of any node what has
been seen is known, and so is what comes next (`Explores.at_visit`).  The nodes that waited at the
beginning keep their order (`Explores.filter_order`).  Targets that agree for the visited nodes give
the same walk (`visit_congr`).
-/

namespace MirListing

variable {α : Type} [DecidableEq α] {targets : α → List α} {seen waiting order last : List α}

/-- With some nodes seen, a walk over the nodes that wait visits nodes in this order, and leaves
these seen. -/
inductive Explores (targets : α → List α) : List α → List α → List α → List α → Prop
  | done {seen : List α} : Explores targets seen [] [] seen
  | visit {seen rest group order middle last : List α} {node : α} :
      Explores targets (newTargets seen (targets node) ++ seen) (newTargets seen (targets node))
        group middle →
      Explores targets middle rest order last →
      Explores targets seen (node :: rest) (node :: (group ++ order)) last

/-! ## The form of a walk -/

/-- A walk goes over the first of the waiting nodes and then over the others. -/
theorem Explores.split {first second : List α}
    (h : Explores targets seen (first ++ second) order last) :
    ∃ before after middle, order = before ++ after ∧
      Explores targets seen first before middle ∧ Explores targets middle second after last := by
  induction first generalizing seen order with
  | nil => exact ⟨[], order, seen, rfl, .done, h⟩
  | cons node rest ih =>
    cases h with
    | visit hgroup hrest =>
      obtain ⟨before, after, middle, rfl, hbefore, hafter⟩ := ih hrest
      exact ⟨_, after, middle, by simp, .visit hgroup hbefore, hafter⟩

/-- The walk that `visit` lists. -/
theorem explores_visit (targets : α → List α) (unseen waiting : List α) {seen : List α}
    (h : Complements targets unseen seen) :
    ∃ last, Explores targets seen waiting (visit targets unseen waiting) last := by
  induction unseen, waiting using visit.induct targets generalizing seen with
  | case1 unseen => exact ⟨seen, by simpa using .done⟩
  | case2 unseen node rest ih =>
    have hfound := fst_discover h.nodup (h.mem_iff node)
    rw [hfound] at ih
    obtain ⟨last, hwalk⟩ := ih (h.discover node)
    obtain ⟨group, order, middle, heq, hgroup, hrest⟩ := hwalk.split
    refine ⟨last, ?_⟩
    rw [visit_cons, hfound, heq]
    exact .visit hgroup hrest

/-- There is one such walk. -/
theorem Explores.unique {order' last' : List α} (h : Explores targets seen waiting order last)
    (h' : Explores targets seen waiting order' last') : order = order' ∧ last = last' := by
  induction h generalizing order' last' with
  | done =>
    cases h' with
    | done => exact ⟨rfl, rfl⟩
  | visit _ _ ihgroup ihrest =>
    cases h' with
    | visit hgroup' hrest' =>
      obtain ⟨rfl, rfl⟩ := ihgroup hgroup'
      obtain ⟨rfl, rfl⟩ := ihrest hrest'
      exact ⟨rfl, rfl⟩

/-- A walk depends on the targets of the nodes it visits and on no others. -/
theorem Explores.congr {targets' : α → List α} (h : Explores targets seen waiting order last)
    (hagree : ∀ x ∈ order, targets x = targets' x) :
    Explores targets' seen waiting order last := by
  induction h with
  | done => exact .done
  | @visit seen rest group order middle last node _ _ ihgroup ihrest =>
    have hgroup := ihgroup fun x hx =>
      hagree x (List.mem_cons_of_mem _ (List.mem_append_left _ hx))
    have hrest := ihrest fun x hx =>
      hagree x (List.mem_cons_of_mem _ (List.mem_append_right _ hx))
    rw [hagree node List.mem_cons_self] at hgroup
    exact .visit hgroup hrest

/-- Walks that agree on the targets of what is visited list the same nodes. -/
theorem visit_congr {targets targets' : α → List α} {unseen unseen' waiting seen : List α}
    (h : Complements targets unseen seen) (h' : Complements targets' unseen' seen)
    (hagree : ∀ x ∈ visit targets unseen waiting, targets x = targets' x) :
    visit targets unseen waiting = visit targets' unseen' waiting := by
  obtain ⟨_, hwalk⟩ := explores_visit targets unseen waiting h
  obtain ⟨_, hwalk'⟩ := explores_visit targets' unseen' waiting h'
  exact ((hwalk.congr hagree).unique hwalk').1

/-! ## What is seen and what is visited -/

/-- When a node is visited all its targets come to be seen. -/
theorem mem_newTargets_append {seen targets : List α} {x : α} :
    x ∈ newTargets seen targets ++ seen ↔ x ∈ seen ∨ x ∈ targets := by
  rw [List.mem_append, mem_newTargets]
  constructor
  · rintro (⟨hmem, -⟩ | hseen)
    · exact .inr hmem
    · exact .inl hseen
  · intro h
    by_cases hseen : x ∈ seen
    · exact .inr hseen
    · exact .inl ⟨h.resolve_left hseen, hseen⟩

/-- In the end the targets of all visited nodes have been seen, and nothing else besides what had
been before. -/
theorem Explores.mem_last (h : Explores targets seen waiting order last) (x : α) :
    x ∈ last ↔ x ∈ seen ∨ ∃ e ∈ order, x ∈ targets e := by
  induction h with
  | done => simp
  | @visit seen rest group order middle last node _ _ ihgroup ihrest =>
    rw [ihrest, ihgroup, mem_newTargets_append]
    simp only [List.mem_cons, List.mem_append, or_and_right, exists_or, exists_eq_left, or_assoc]

/-- What is visited had not been seen, unless it waited. -/
theorem Explores.notMem_seen (h : Explores targets seen waiting order last) {x : α}
    (hx : x ∈ order) : x ∈ waiting ∨ x ∉ seen := by
  induction h with
  | done => simp at hx
  | @visit seen rest group order middle last node hgroup _ ihgroup ihrest =>
    rw [List.mem_cons, List.mem_append] at hx
    obtain rfl | hx | hx := hx
    · exact .inl List.mem_cons_self
    · right
      rcases ihgroup hx with hfound | hnew
      · exact (mem_newTargets.1 hfound).2
      · exact fun hseen => hnew (List.mem_append_right _ hseen)
    · rcases ihrest hx with hwaits | hnew
      · exact .inl (List.mem_cons_of_mem _ hwaits)
      · right
        exact fun hseen => hnew ((hgroup.mem_last x).2 (.inl (List.mem_append_right _ hseen)))

/-- The waiting nodes are visited in the order in which they wait. -/
theorem Explores.sublist (h : Explores targets seen waiting order last) :
    waiting.Sublist order := by
  induction h with
  | done => exact .slnil
  | visit _ _ _ ihrest => exact (ihrest.trans (List.sublist_append_right _ _)).cons_cons _

theorem Explores.head? (h : Explores targets seen waiting order last) :
    order.head? = waiting.head? := by
  cases h <;> rfl

/-- Of nodes that have been seen just those are visited that wait. -/
theorem Explores.filter_order (h : Explores targets seen waiting order last) {set : List α}
    (hset : ∀ x ∈ set, x ∈ seen) :
    order.filter (fun x => decide (x ∈ set)) = waiting.filter (fun x => decide (x ∈ set)) := by
  induction h with
  | done => rfl
  | @visit seen rest group order middle last node hgroup _ ihgroup ihrest =>
    have hfound : (newTargets seen (targets node)).filter (fun x => decide (x ∈ set)) = [] := by
      refine List.filter_eq_nil_iff.2 fun x hx hmem => ?_
      exact (mem_newTargets.1 hx).2 (hset x (of_decide_eq_true hmem))
    have hsame := ihgroup fun x hx => List.mem_append_right _ (hset x hx)
    have hrest := ihrest fun x hx =>
      (hgroup.mem_last x).2 (.inl (List.mem_append_right _ (hset x hx)))
    rw [hfound] at hsame
    rw [List.filter_cons, List.filter_cons, List.filter_append, hsame, hrest, List.nil_append]

/-- At the visit of a node the targets of all nodes before it have been seen.  The node is followed
by the group of what it finds, and the rest comes after that. -/
theorem Explores.at_visit (h : Explores targets seen waiting order last) {before after : List α}
    {node : α} (hsplit : order = before ++ node :: after) :
    ∃ known group rest middle, after = group ++ rest ∧
      (∀ x, x ∈ known ↔ x ∈ seen ∨ ∃ e ∈ before, x ∈ targets e) ∧
      Explores targets (newTargets known (targets node) ++ known)
        (newTargets known (targets node)) group middle := by
  induction h generalizing before after with
  | done => simp at hsplit
  | @visit seen rest group order middle last first hgroup _ ihgroup ihrest =>
    cases before with
    | nil =>
      obtain ⟨rfl, rfl⟩ := List.cons.inj hsplit
      exact ⟨seen, group, order, middle, rfl, by simp, hgroup⟩
    | cons other before =>
      obtain ⟨rfl, htail⟩ := List.cons.inj hsplit
      -- the node stands in the group of the first one or behind it
      rcases append_eq_append_cons htail with ⟨back, hnode, rfl⟩ | ⟨front, rfl, hnode⟩
      · obtain ⟨known, group', rest', middle', rfl, hknown, hwalk⟩ := ihgroup hnode
        refine ⟨known, group', rest' ++ order, middle', List.append_assoc .., fun x => ?_, hwalk⟩
        rw [hknown, mem_newTargets_append]
        simp only [List.mem_cons, or_and_right, exists_or, exists_eq_left, or_assoc]
      · obtain ⟨known, group', rest', middle', hafter, hknown, hwalk⟩ := ihrest hnode
        refine ⟨known, group', rest', middle', hafter, fun x => ?_, hwalk⟩
        rw [hknown, hgroup.mem_last, mem_newTargets_append]
        simp only [List.mem_cons, List.mem_append, or_and_right, exists_or, exists_eq_left,
          or_assoc]

/-! ## The order of new targets -/

/-- Of two new targets the one that is named last comes last. -/
theorem pairwise_newTargets (seen targets : List α) :
    (newTargets seen targets).Pairwise fun x y =>
      ∃ front back, targets = front ++ y :: back ∧ x ∉ y :: back := by
  induction targets with
  | nil => exact .nil
  | cons target targets ih =>
    have hlater : (newTargets seen targets).Pairwise fun x y =>
        ∃ front back, target :: targets = front ++ y :: back ∧ x ∉ y :: back :=
      ih.imp fun ⟨front, back, heq, hnot⟩ => ⟨target :: front, back, by rw [heq]; rfl, hnot⟩
    simp only [newTargets]
    split
    · exact hlater
    · rename_i hunknown
      obtain ⟨hseen, hfound⟩ := not_or.1 hunknown
      have hlast : target ∉ targets := fun hmem => hfound (mem_newTargets.2 ⟨hmem, hseen⟩)
      refine List.pairwise_cons.2 ⟨fun y hy => ?_, hlater⟩
      obtain ⟨front, back, rfl⟩ := List.append_of_mem (mem_newTargets.1 hy).1
      exact ⟨target :: front, back, rfl, fun hmem => hlast (List.mem_append_right _ hmem)⟩

end MirListing
