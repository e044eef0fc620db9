/-!
# Lists with positions

Facts about lists whose elements are known by where they stand: numbered lists, lists from which
repetitions have been taken out, lists that are cut at an element, or where a run of elements of one
kind ends, and lists that are known from what a function makes of their elements.
-/

namespace MirListing

theorem pairwise_zipIdx {α : Type} (l : List α) : l.zipIdx.Pairwise fun a b => a.2 < b.2 := by
  rw [← List.pairwise_map (f := Prod.snd), List.zipIdx_map_snd]
  exact List.pairwise_lt_range'

theorem zipIdx_take {α : Type} (l : List α) (k n : Nat) :
    (l.take k).zipIdx n = (l.zipIdx n).filter fun (_, index) => index < n + k := by
  induction l generalizing k n with
  | nil => simp
  | cons a rest ih =>
    cases k with
    | zero =>
      refine (List.filter_eq_nil_iff.2 ?_).symm
      rintro ⟨b, index⟩ hmem
      have := (List.mk_mem_zipIdx_iff_le_and_getElem?_sub.1 hmem).1
      simp only [decide_eq_true_eq]
      omega
    | succ k =>
      rw [List.take_succ_cons, List.zipIdx_cons, List.zipIdx_cons, ih,
        List.filter_cons_of_pos (by simp)]
      congr 2
      funext (_, index)
      simp only [decide_eq_decide]
      omega

/-- Where repetitions are taken out, what came first stands first. -/
theorem pairwise_eraseDups {α : Type} [DecidableEq α] (l : List α) :
    l.eraseDups.Pairwise fun a b => l.idxOf a < l.idxOf b := by
  suffices h : ∀ r : List α, r.reverse.eraseDups.Pairwise fun a b =>
      r.reverse.idxOf a < r.reverse.idxOf b by
    simpa using h l.reverse
  intro r
  induction r with
  | nil => exact .nil
  | cons x r ih =>
    rw [List.reverse_cons]
    generalize r.reverse = l at ih ⊢
    -- an element at the end moves none of those in front of it
    have hkeep : ∀ a ∈ l, (l ++ [x]).idxOf a = l.idxOf a := by
      intro a ha
      rw [List.idxOf_append, if_pos ha]
    have hlast : ∀ b ∈ ([x].removeAll l).eraseDups, b = x ∧ x ∉ l := by
      intro b hb
      rw [List.mem_eraseDups, List.removeAll, List.mem_filter, List.mem_singleton] at hb
      obtain ⟨rfl, hnew⟩ := hb
      exact ⟨rfl, by simpa using hnew⟩
    rw [List.eraseDups_append, List.pairwise_append]
    refine ⟨ih.imp_of_mem fun ha hb hlt => ?_, ?_, fun a ha b hb => ?_⟩
    · rw [hkeep _ (List.mem_eraseDups.1 ha), hkeep _ (List.mem_eraseDups.1 hb)]
      exact hlt
    · by_cases hx : x ∈ l <;> simp [List.removeAll, List.eraseDups_cons, hx]
    · obtain ⟨rfl, hnew⟩ := hlast b hb
      have hmem := List.mem_eraseDups.1 ha
      rw [hkeep a hmem, List.idxOf_append, if_neg hnew]
      have := List.idxOf_lt_length_of_mem hmem
      omega

/-- A place in two lists one after the other is one in the first or one in the second. -/
theorem append_eq_append_cons {α : Type} {front back before after : List α} {x : α}
    (h : front ++ back = before ++ x :: after) :
    (∃ middle, front = before ++ x :: middle ∧ after = middle ++ back) ∨
      ∃ middle, before = front ++ middle ∧ back = middle ++ x :: after := by
  induction front generalizing before with
  | nil => exact .inr ⟨before, rfl, h⟩
  | cons y front ih =>
    cases before with
    | nil =>
      obtain ⟨rfl, hafter⟩ := List.cons.inj h
      exact .inl ⟨front, rfl, hafter.symm⟩
    | cons z before =>
      obtain ⟨rfl, htail⟩ := List.cons.inj h
      rcases ih htail with ⟨middle, rfl, hafter⟩ | ⟨middle, rfl, hback⟩
      · exact .inl ⟨middle, rfl, hafter⟩
      · exact .inr ⟨middle, rfl, hback⟩

/-- Runs of elements of one kind can be told from what comes behind them, which begins with an
element of another kind. -/
theorem append_inj_of_run {α : Type} {kind : α → Prop} {run run' rest rest' : List α}
    (hrun : ∀ x ∈ run, kind x) (hrun' : ∀ x ∈ run', kind x) (hrest : ∀ x ∈ rest.head?, ¬kind x)
    (hrest' : ∀ x ∈ rest'.head?, ¬kind x) (h : run ++ rest = run' ++ rest') :
    run = run' ∧ rest = rest' := by
  induction run generalizing run' with
  | nil =>
    cases run' with
    | nil => exact ⟨rfl, h⟩
    | cons y run' =>
      rw [List.nil_append] at h
      subst h
      exact absurd (hrun' y List.mem_cons_self) (hrest y rfl)
  | cons x run ih =>
    cases run' with
    | nil =>
      rw [List.nil_append] at h
      subst h
      exact absurd (hrun x List.mem_cons_self) (hrest' x rfl)
    | cons y run' =>
      obtain ⟨rfl, htail⟩ := List.cons.inj h
      obtain ⟨rfl, hsame⟩ := ih (fun z hz => hrun z (List.mem_cons_of_mem _ hz))
        (fun z hz => hrun' z (List.mem_cons_of_mem _ hz)) htail
      exact ⟨rfl, hsame⟩

/-- A function that tells the elements of two lists apart tells the lists apart. -/
theorem eq_of_map_eq {α β : Type} {f : α → β} {l l' : List α}
    (h : ∀ a ∈ l, ∀ b ∈ l', f a = f b → a = b) (heq : l.map f = l'.map f) : l = l' := by
  induction l generalizing l' with
  | nil => exact (List.map_eq_nil_iff.1 heq.symm).symm
  | cons a rest ih =>
    cases l' with
    | nil => cases heq
    | cons b rest' =>
      obtain ⟨hfirst, hrest⟩ := List.cons.inj heq
      obtain rfl := h a List.mem_cons_self b List.mem_cons_self hfirst
      rw [ih (fun c hc d hd => h c (List.mem_cons_of_mem _ hc) d (List.mem_cons_of_mem _ hd)) hrest]

end MirListing
