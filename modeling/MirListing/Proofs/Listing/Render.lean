import MirListing.Listing

/-!
# Rendering parts

A listing renders if nothing in it fails, and its text is then what its parts have written, one
after another.  These laws take the rendering of a sequence of listings apart.
-/

namespace MirListing.Listing

theorem render_eq_ok {l : Listing} {s : String} :
    l.render = .ok s ↔ l.failure? = none ∧ l.written = s := by
  unfold render
  cases hfailure : l.failure? with
  | none => simp
  | some failure => simp

@[simp] theorem render_text (s : String) : (text s).render = .ok s := by
  simp [render_eq_ok, text, written, textWith]

@[simp] theorem render_ofOutcome (o : Outcome String) : (ofOutcome o).render = o := by
  cases o with
  | ok s => exact render_text s
  | error failure => rfl

@[simp] theorem render_fail (failure : Failure) : (fail failure).render = .error failure := rfl

theorem failure?_append {a b : Listing} :
    (a ++ b).failure? = none ↔ a.failure? = none ∧ b.failure? = none := by
  rw [append_def, append]
  cases hfailure : a.failure? with
  | none => simp
  | some failure => simp [hfailure]

theorem written_append {a : Listing} (h : a.failure? = none) (b : Listing) :
    (a ++ b).written = a.written ++ b.written := by
  rw [append_def, append, h]
  exact textWith_append _ _ _

/-- A sequence renders if both parts do, to their texts one after the other. -/
theorem render_append_eq_ok {a b : Listing} {s : String} :
    (a ++ b).render = .ok s ↔ ∃ t u, a.render = .ok t ∧ b.render = .ok u ∧ s = t ++ u := by
  simp only [render_eq_ok, failure?_append]
  constructor
  · rintro ⟨⟨ha, hb⟩, rfl⟩
    exact ⟨_, _, ⟨ha, rfl⟩, ⟨hb, rfl⟩, written_append ha b⟩
  · rintro ⟨_, _, ⟨ha, rfl⟩, ⟨hb, rfl⟩, rfl⟩
    exact ⟨⟨ha, hb⟩, written_append ha b⟩

theorem concat_append (ls ms : List Listing) : concat (ls ++ ms) = concat ls ++ concat ms := by
  induction ls with
  | nil => rfl
  | cons l rest ih => rw [List.cons_append, concat_cons, ih, concat_cons, append_assoc]

/-- A concatenation renders if every part does, to all their texts. -/
theorem render_concat_eq_ok {ls : List Listing} {s : String} :
    (concat ls).render = .ok s ↔
      (∀ l ∈ ls, l.render = .ok l.written) ∧ s = String.join (ls.map written) := by
  induction ls generalizing s with
  | nil =>
    simp only [concat_nil, List.not_mem_nil, false_implies, implies_true, true_and, List.map_nil,
      String.join_nil, render_eq_ok, empty, written, textWith]
    exact eq_comm
  | cons l rest ih =>
    rw [concat_cons, render_append_eq_ok, List.forall_mem_cons, List.map_cons, String.join_cons]
    constructor
    · rintro ⟨t, u, hl, hrest, rfl⟩
      obtain ⟨hall, rfl⟩ := ih.1 hrest
      obtain rfl := (render_eq_ok.1 hl).2
      exact ⟨⟨hl, hall⟩, rfl⟩
    · rintro ⟨⟨hl, hall⟩, rfl⟩
      exact ⟨l.written, _, hl, ih.2 ⟨hall, rfl⟩, rfl⟩

end MirListing.Listing
