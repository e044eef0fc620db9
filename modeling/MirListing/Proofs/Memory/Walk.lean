import MirListing.Memory.Reach

/-!
# Walks as loops

`visit` gives the nodes of a walk in one list.  Here the same walk is a loop over three lists: the
nodes that have been seen, those that wait, and those that have been visited.  `Walk.step` is one
turn of the loop, `Walk.run` some turns of it.

*Invariant.*  A node is seen exactly if it has been visited or waits, no node is both or twice,
every seen node is `Reached`, the roots are seen, and so are the targets of every visited node.
`Walk.invariant_step` keeps it, so a walk with nothing left to wait has visited exactly the reached
nodes, each once (`Walk.Invariant.mem_visited_iff`).

*End.*  A loop that only knows what it has seen need not end.  It ends where the targets come from a
finite supply: `Complements` says that a list holds just the possible targets that are not seen.
Each turn takes what it finds out of that list, so the unseen and the waiting nodes together become
one fewer, and the walk has ended after one turn for each node of `visit` (`Walk.run_visit`).
-/

namespace MirListing

variable {α : Type}

/-! ## Reached nodes -/

/-- The nodes that targets lead to: the least set with the roots and the targets of its nodes. -/
inductive Reached (targets : α → List α) (roots : List α) : α → Prop
  | root {x : α} : x ∈ roots → Reached targets roots x
  | target {x y : α} : Reached targets roots x → y ∈ targets x → Reached targets roots y

/-- A set that holds the roots and the targets of its nodes holds every reached node. -/
theorem mem_of_reached {targets : α → List α} {roots set : List α} (hroots : ∀ x ∈ roots, x ∈ set)
    (htargets : ∀ x ∈ set, ∀ y ∈ targets x, y ∈ set) {x : α} (h : Reached targets roots x) :
    x ∈ set := by
  induction h with
  | root hx => exact hroots _ hx
  | target _ hy ih => exact htargets _ ih _ hy

variable [DecidableEq α]

/-! ## The loop -/

/-- A walk that is under way. -/
structure Walk (α : Type) where
  /-- The nodes that have been seen. -/
  seen : List α
  /-- The nodes that wait, the next one first. -/
  waiting : List α
  /-- The nodes that have been visited, in order. -/
  visited : List α

/-- The targets that have not been seen, each where it is named last. -/
def newTargets (seen : List α) : List α → List α
  | [] => []
  | target :: targets =>
      let found := newTargets seen targets
      if target ∈ seen ∨ target ∈ found then found else target :: found

namespace Walk

/-- A walk before its first turn: the roots are seen and wait. -/
def start (roots : List α) : Walk α := ⟨roots, roots, []⟩

/-- One turn: the first waiting node is visited, and its new targets are seen and wait in front of
the others. -/
def step (targets : α → List α) (w : Walk α) : Walk α :=
  match w.waiting with
  | [] => w
  | node :: rest =>
      let found := newTargets w.seen (targets node)
      ⟨found ++ w.seen, found ++ rest, w.visited ++ [node]⟩

/-- Some turns. -/
def run (targets : α → List α) (w : Walk α) : Nat → Walk α
  | 0 => w
  | turns + 1 => (w.step targets).run targets turns

/-- The walk from some roots comes to its end, having visited some nodes in this order. -/
def EndsWith (targets : α → List α) (roots order : List α) : Prop :=
  ∃ turns seen, (start roots).run targets turns = ⟨seen, [], order⟩

theorem step_cons (targets : α → List α) (seen rest visited : List α) (node : α) :
    (⟨seen, node :: rest, visited⟩ : Walk α).step targets =
      ⟨newTargets seen (targets node) ++ seen, newTargets seen (targets node) ++ rest,
        visited ++ [node]⟩ := rfl

end Walk

/-! ## New targets -/

/-- A target is new if it is listed and not seen. -/
theorem mem_newTargets {seen targets : List α} {x : α} :
    x ∈ newTargets seen targets ↔ x ∈ targets ∧ x ∉ seen := by
  induction targets with
  | nil => simp [newTargets]
  | cons target targets ih =>
    simp only [newTargets]
    split
    · rename_i hknown
      rw [ih, List.mem_cons]
      constructor
      · rintro ⟨hmem, hnew⟩
        exact ⟨.inr hmem, hnew⟩
      · rintro ⟨rfl | hmem, hnew⟩
        · rcases hknown with hseen | hfound
          · exact absurd hseen hnew
          · exact ih.1 hfound
        · exact ⟨hmem, hnew⟩
    · rename_i hunknown
      obtain ⟨hseen, -⟩ := not_or.1 hunknown
      rw [List.mem_cons, List.mem_cons, ih]
      constructor
      · rintro (rfl | ⟨hmem, hnew⟩)
        · exact ⟨.inl rfl, hseen⟩
        · exact ⟨.inr hmem, hnew⟩
      · rintro ⟨rfl | hmem, hnew⟩
        · exact .inl rfl
        · exact .inr ⟨hmem, hnew⟩

/-- No target is found twice. -/
theorem nodup_newTargets (seen targets : List α) : (newTargets seen targets).Nodup := by
  induction targets with
  | nil => exact .nil
  | cons target targets ih =>
    simp only [newTargets]
    split
    · exact ih
    · rename_i hunknown
      exact List.nodup_cons.2 ⟨(not_or.1 hunknown).2, ih⟩

namespace Walk

/-! ## The invariant -/

/-- What every turn of a walk keeps. -/
structure Invariant (targets : α → List α) (roots : List α) (w : Walk α) : Prop where
  /-- No node has been visited twice, waits twice, or waits after its visit. -/
  nodup : (w.visited ++ w.waiting).Nodup
  /-- What has been seen has been visited or waits. -/
  seen_iff : ∀ x, x ∈ w.seen ↔ x ∈ w.visited ∨ x ∈ w.waiting
  /-- What has been seen is reached. -/
  reached : ∀ x ∈ w.seen, Reached targets roots x
  /-- The roots have been seen. -/
  roots_seen : ∀ x ∈ roots, x ∈ w.seen
  /-- The targets of visited nodes have been seen. -/
  targets_seen : ∀ x ∈ w.visited, ∀ y ∈ targets x, y ∈ w.seen

omit [DecidableEq α] in
theorem invariant_start (targets : α → List α) {roots : List α} (h : roots.Nodup) :
    Invariant targets roots (start roots) where
  nodup := by simpa [start] using h
  seen_iff x := by simp [start]
  reached x hx := .root hx
  roots_seen x hx := hx
  targets_seen x hx := by simp [start] at hx

omit [DecidableEq α] in
/-- What is found neither has been visited nor waits, so nothing comes to be listed twice. -/
theorem nodup_turn {visited rest found : List α} {node : α}
    (hnodup : (visited ++ node :: rest).Nodup) (hfound : found.Nodup)
    (hnew : ∀ x ∈ found, ¬(x ∈ visited ∨ x ∈ node :: rest)) :
    (visited ++ [node] ++ (found ++ rest)).Nodup := by
  obtain ⟨hvisited, hwaiting, hapart⟩ := List.nodup_append.1 hnodup
  obtain ⟨hfirst, hrest⟩ := List.nodup_cons.1 hwaiting
  simp only [List.nodup_append, List.mem_append, List.mem_cons, List.not_mem_nil, or_false]
  refine ⟨⟨hvisited, by simp, ?_⟩, ⟨hfound, hrest, ?_⟩, ?_⟩
  · rintro x hx y rfl rfl
    exact hapart x hx x (List.mem_cons_self ..) rfl
  · rintro x hx y hy rfl
    exact hnew x hx (.inr (List.mem_cons_of_mem _ hy))
  · rintro x (hx | rfl) y (hy | hy) rfl
    · exact hnew x hy (.inl hx)
    · exact hapart x hx x (List.mem_cons_of_mem _ hy) rfl
    · exact hnew x hy (.inr (List.mem_cons_self ..))
    · exact hfirst hy

/-- A turn keeps the invariant. -/
theorem invariant_step {targets : α → List α} {roots : List α} {w : Walk α}
    (h : Invariant targets roots w) : Invariant targets roots (w.step targets) := by
  obtain ⟨seen, waiting, visited⟩ := w
  cases waiting with
  | nil => exact h
  | cons node rest =>
    obtain ⟨hnodup, hseen, hreached, hroots, htargets⟩ := h
    simp only at hnodup hseen hreached hroots htargets
    have hnode : node ∈ seen := (hseen node).2 (.inr (List.mem_cons_self ..))
    rw [step_cons]
    refine ⟨?_, ?_, ?_, ?_, ?_⟩
    · apply nodup_turn hnodup (nodup_newTargets seen (targets node))
      intro x hx hold
      exact (mem_newTargets.1 hx).2 ((hseen x).2 hold)
    · intro x
      simp only [List.mem_append, List.mem_cons, List.not_mem_nil, or_false, hseen x]
      constructor
      · rintro (hx | hx | rfl | hx)
        · exact .inr (.inl hx)
        · exact .inl (.inl hx)
        · exact .inl (.inr rfl)
        · exact .inr (.inr hx)
      · rintro ((hx | rfl) | hx | hx)
        · exact .inr (.inl hx)
        · exact .inr (.inr (.inl rfl))
        · exact .inl hx
        · exact .inr (.inr (.inr hx))
    · intro x hx
      rcases List.mem_append.1 hx with hx | hx
      · exact .target (hreached node hnode) (mem_newTargets.1 hx).1
      · exact hreached x hx
    · intro x hx
      exact List.mem_append.2 (.inr (hroots x hx))
    · intro x hx y hy
      rcases List.mem_append.1 hx with hx | hx
      · exact List.mem_append.2 (.inr (htargets x hx y hy))
      · obtain rfl := List.mem_singleton.1 hx
        by_cases hold : y ∈ seen
        · exact List.mem_append.2 (.inr hold)
        · exact List.mem_append.2 (.inl (mem_newTargets.2 ⟨hy, hold⟩))

/-- Any number of turns keeps the invariant. -/
theorem invariant_run {targets : α → List α} {roots : List α} (turns : Nat) {w : Walk α}
    (h : Invariant targets roots w) : Invariant targets roots (w.run targets turns) := by
  induction turns generalizing w with
  | zero => exact h
  | succ turns ih => exact ih (invariant_step h)

omit [DecidableEq α] in
/-- A walk that has ended has visited what is reached and nothing else. -/
theorem Invariant.mem_visited_iff {targets : α → List α} {roots : List α} {w : Walk α}
    (h : Invariant targets roots w) (hend : w.waiting = []) {x : α} :
    x ∈ w.visited ↔ Reached targets roots x := by
  have hseen : ∀ y, y ∈ w.seen ↔ y ∈ w.visited := fun y => by rw [h.seen_iff y, hend]; simp
  constructor
  · intro hx
    exact h.reached x ((hseen x).2 hx)
  · intro hx
    refine mem_of_reached ?_ ?_ hx
    · intro y hy
      exact (hseen y).1 (h.roots_seen y hy)
    · intro y hy z hz
      exact (hseen z).1 (h.targets_seen y hy z hz)

/-- A walk that comes to its end has visited each reached node once. -/
theorem EndsWith.nodup_and_mem_iff {targets : α → List α} {roots order : List α}
    (h : EndsWith targets roots order) (hroots : roots.Nodup) :
    order.Nodup ∧ ∀ x, x ∈ order ↔ Reached targets roots x := by
  obtain ⟨turns, seen, hrun⟩ := h
  have hinv := invariant_run turns (invariant_start targets hroots)
  rw [hrun] at hinv
  refine ⟨?_, fun x => hinv.mem_visited_iff rfl⟩
  simpa using hinv.nodup

end Walk

/-! ## The end of a walk -/

/-- A list holds, each once, the possible targets that have not been seen. -/
structure Complements (targets : α → List α) (unseen seen : List α) : Prop where
  /-- No node is listed twice. -/
  nodup : unseen.Nodup
  /-- A target is listed unless it has been seen. -/
  mem_iff : ∀ x, ∀ y ∈ targets x, y ∈ unseen ↔ y ∉ seen

/-- What is left unseen is what has not been found. -/
theorem mem_snd_discover {unseen : List α} (h : unseen.Nodup) (targets : List α) :
    (discover unseen targets).2.Nodup ∧ ∀ x, x ∈ (discover unseen targets).2 ↔
      x ∈ unseen ∧ x ∉ (discover unseen targets).1 := by
  induction targets with
  | nil => simp [discover, h]
  | cons target targets ih =>
    obtain ⟨hnodup, hmem⟩ := ih
    simp only [discover]
    split
    · refine ⟨hnodup.erase target, fun x => ?_⟩
      rw [hnodup.mem_erase_iff, hmem, List.mem_cons, not_or]
      constructor
      · rintro ⟨hne, hx, hnot⟩
        exact ⟨hx, hne, hnot⟩
      · rintro ⟨hx, hne, hnot⟩
        exact ⟨hne, hx, hnot⟩
    · exact ⟨hnodup, hmem⟩

/-- Taking the targets out of the unseen nodes finds what a look at the seen ones finds. -/
theorem fst_discover {unseen seen targets : List α} (hnodup : unseen.Nodup)
    (h : ∀ y ∈ targets, y ∈ unseen ↔ y ∉ seen) :
    (discover unseen targets).1 = newTargets seen targets := by
  induction targets with
  | nil => rfl
  | cons target targets ih =>
    have hfound := ih fun y hy => h y (List.mem_cons_of_mem _ hy)
    have hleft : target ∈ (discover unseen targets).2 ↔
        ¬(target ∈ seen ∨ target ∈ newTargets seen targets) := by
      rw [(mem_snd_discover hnodup targets).2, hfound, h target (List.mem_cons_self ..), not_or]
    simp only [discover, newTargets]
    by_cases hnew : target ∈ (discover unseen targets).2
    · rw [if_pos hnew, if_neg (hleft.1 hnew), hfound]
    · rw [if_neg hnew, if_pos (Decidable.not_not.1 fun hno => hnew (hleft.2 hno)), hfound]

/-- After a turn the rest of the unseen nodes is still what has not been seen. -/
theorem Complements.discover {targets : α → List α} {unseen seen : List α}
    (h : Complements targets unseen seen) (node : α) :
    Complements targets (MirListing.discover unseen (targets node)).2
      (newTargets seen (targets node) ++ seen) := by
  have hfound := fst_discover h.nodup (h.mem_iff node)
  obtain ⟨hnodup, hmem⟩ := mem_snd_discover h.nodup (targets node)
  refine ⟨hnodup, fun x y hy => ?_⟩
  rw [hmem, hfound, h.mem_iff x y hy, List.mem_append, not_or]
  exact And.comm

/-- A walk ends after one turn for each node that is visited. -/
theorem Walk.run_visit (targets : α → List α) (unseen waiting : List α) {seen visited : List α}
    (h : Complements targets unseen seen) :
    ∃ seen', (⟨seen, waiting, visited⟩ : Walk α).run targets (visit targets unseen waiting).length =
      ⟨seen', [], visited ++ visit targets unseen waiting⟩ := by
  induction unseen, waiting using visit.induct targets generalizing seen visited with
  | case1 unseen => exact ⟨seen, by simp [run]⟩
  | case2 unseen node rest ih =>
    have hfound := fst_discover h.nodup (h.mem_iff node)
    rw [hfound] at ih
    obtain ⟨seen', hrun⟩ := @ih _ (visited ++ [node]) (h.discover node)
    refine ⟨seen', ?_⟩
    rw [visit_cons, hfound, List.length_cons, run, step_cons, hrun, List.append_assoc]
    rfl

/-- The walk that `visit` lists comes to its end. -/
theorem Walk.endsWith_visit {targets : α → List α} {unseen roots : List α}
    (h : Complements targets unseen roots) :
    EndsWith targets roots (visit targets unseen roots) := by
  obtain ⟨seen, hrun⟩ := @run_visit _ _ targets unseen roots roots [] h
  exact ⟨_, seen, by rw [start, hrun, List.nil_append]⟩

end MirListing
