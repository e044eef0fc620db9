import MirListing.Proofs.Listing.Render

/-!
# Why an outcome or a listing fails

`FailsOnly P` says that whatever makes an outcome or a listing fail is of the kind `P`.  It is kept
by every way of putting outcomes and listings together, so it is shown for a whole listing by
showing it for the parts.
-/

namespace MirListing

variable {α β : Type} {P : Failure → Prop}

/-- Every failure of an outcome is of a kind. -/
def FailsOnly (P : Failure → Prop) (o : Outcome α) : Prop :=
  ∀ failure, o = .error failure → P failure

theorem failsOnly_ok (a : α) : FailsOnly P (.ok a) := by
  intro failure h
  cases h

theorem failsOnly_error {failure : Failure} (h : P failure) :
    FailsOnly P (.error failure : Outcome α) := by
  rintro _ ⟨⟩
  exact h

theorem failsOnly_of_ok {o : Outcome α} (h : ∃ a, o = .ok a) : FailsOnly P o := by
  obtain ⟨a, rfl⟩ := h
  exact failsOnly_ok a

theorem FailsOnly.bind {o : Outcome α} {k : α → Outcome β} (ho : FailsOnly P o)
    (hk : ∀ a, FailsOnly P (k a)) : FailsOnly P (o >>= k) := by
  intro failure h
  cases o with
  | ok a => exact hk a failure h
  | error first =>
    obtain rfl := Except.error.inj h
    exact ho first rfl

theorem FailsOnly.mapM {f : α → Outcome β} {l : List α} (h : ∀ a ∈ l, FailsOnly P (f a)) :
    FailsOnly P (l.mapM f) := by
  induction l with
  | nil => exact failsOnly_ok []
  | cons a rest ih =>
    rw [List.mapM_cons]
    refine (h a List.mem_cons_self).bind fun _ => ?_
    exact (ih fun a ha => h a (List.mem_cons_of_mem _ ha)).bind fun _ => failsOnly_ok _

/-- A computation over a list succeeds if each of its steps does. -/
theorem mapM_eq_ok_iff {f : α → Outcome β} {l : List α} {results : List β} :
    l.mapM f = .ok results ↔ l.map f = results.map .ok := by
  induction l generalizing results with
  | nil => cases results <;> simp [pure, Except.pure]
  | cons a rest ih =>
    rw [List.mapM_cons, List.map_cons]
    cases ha : f a with
    | error => cases results <;> simp [bind, Except.bind]
    | ok b =>
      cases hrest : rest.mapM f with
      | error => cases results <;> simp [bind, Except.bind, ← ih, hrest]
      | ok bs => cases results <;> simp [bind, Except.bind, pure, Except.pure, ← ih, hrest]

/-- Every result of a computation over a list is that of one of its steps. -/
theorem exists_of_mem_mapM {f : α → Outcome β} {l : List α} {results : List β}
    (h : l.mapM f = .ok results) {b : β} (hb : b ∈ results) : ∃ a ∈ l, f a = .ok b := by
  have hok : Except.ok b ∈ results.map (Except.ok : β → Outcome β) := List.mem_map_of_mem hb
  rw [← mapM_eq_ok_iff.1 h] at hok
  exact List.mem_map.1 hok

/-- The results of a computation over a list stand where the steps have stood. -/
theorem exists_of_mapM_getElem? {f : α → Outcome β} {l : List α} {results : List β}
    (h : l.mapM f = .ok results) {k : Nat} {a : α} (ha : l[k]? = some a) :
    ∃ b, results[k]? = some b ∧ f a = .ok b := by
  have hk := congrArg (fun steps => steps[k]?) (mapM_eq_ok_iff.1 h)
  simp only [List.getElem?_map, ha, Option.map_some] at hk
  obtain ⟨b, hb, heq⟩ := Option.map_eq_some_iff.1 hk.symm
  exact ⟨b, hb, heq.symm⟩

/-- A computation over a list fails as one of its steps does. -/
theorem exists_error_of_mapM {f : α → Outcome β} {l : List α}
    (h : ∃ a ∈ l, ∃ failure, f a = .error failure) :
    ∃ a ∈ l, ∃ failure, f a = .error failure ∧ l.mapM f = .error failure := by
  induction l with
  | nil =>
    obtain ⟨a, ha, -⟩ := h
    cases ha
  | cons first rest ih =>
    rw [List.mapM_cons]
    cases hfirst : f first with
    | error failure => exact ⟨first, List.mem_cons_self, failure, hfirst, rfl⟩
    | ok b =>
      have hrest : ∃ a ∈ rest, ∃ failure, f a = .error failure := by
        obtain ⟨a, ha, failure, hfails⟩ := h
        obtain rfl | hmem := List.mem_cons.1 ha
        · rw [hfirst] at hfails
          cases hfails
        · exact ⟨a, hmem, failure, hfails⟩
      obtain ⟨a, ha, failure, hfails, hall⟩ := ih hrest
      refine ⟨a, List.mem_cons_of_mem _ ha, failure, hfails, ?_⟩
      rw [hall]
      rfl

/-- What each step of a computation over a list says of its result holds of all results. -/
theorem mapM_map_of_mapM {γ : Type} {f : α → Outcome β} {g : α → Outcome γ} {k : β → γ}
    (hstep : ∀ a b, f a = .ok b → g a = .ok (k b)) {l : List α} {results : List β}
    (h : l.mapM f = .ok results) : l.mapM g = .ok (results.map k) := by
  induction l generalizing results with
  | nil =>
    cases h
    rfl
  | cons a rest ih =>
    rw [List.mapM_cons] at h ⊢
    simp only [bind_eq_ok_iff] at h
    obtain ⟨b, hb, bs, hbs, h⟩ := h
    cases h
    rw [hstep a b hb, ih hbs]
    rfl

namespace Listing

/-- Every failure of a listing is of a kind. -/
def FailsOnly (P : Failure → Prop) (l : Listing) : Prop :=
  ∀ failure, l.failure? = some failure → P failure

theorem renderWith_eq_ok {mark : Point → String} {l : Listing} :
    (∃ text, l.renderWith mark = .ok text) ↔ l.failure? = none := by
  unfold renderWith
  cases l.failure? <;> simp

theorem renderWith_eq_error {mark : Point → String} {l : Listing} {failure : Failure} :
    l.renderWith mark = .error failure ↔ l.failure? = some failure := by
  unfold renderWith
  cases l.failure? <;> simp

theorem FailsOnly.mono {Q : Failure → Prop} {l : Listing} (h : FailsOnly P l)
    (himp : ∀ failure, P failure → Q failure) : FailsOnly Q l :=
  fun failure hfailure => himp failure (h failure hfailure)

theorem failsOnly_text (s : String) : FailsOnly P (text s) := by
  intro failure h
  cases h

theorem failsOnly_point (p : Point) : FailsOnly P (point p) := by
  intro failure h
  cases h

theorem failsOnly_empty : FailsOnly P empty := by
  intro failure h
  cases h

theorem failsOnly_fail {failure : Failure} (h : P failure) : FailsOnly P (fail failure) := by
  rintro _ ⟨⟩
  exact h

theorem failsOnly_ofOutcome {o : Outcome String} (h : MirListing.FailsOnly P o) :
    FailsOnly P (ofOutcome o) := by
  intro failure hfailure
  cases o with
  | ok s => cases hfailure
  | error first =>
    obtain rfl := Option.some.inj hfailure
    exact h _ rfl

theorem FailsOnly.append {a b : Listing} (ha : FailsOnly P a) (hb : FailsOnly P b) :
    FailsOnly P (a ++ b) := by
  intro failure h
  rw [append_def, Listing.append] at h
  cases hfirst : a.failure? with
  | none =>
    rw [hfirst] at h
    exact hb failure h
  | some first =>
    rw [hfirst] at h
    exact ha failure h

theorem failsOnly_concat {ls : List Listing} (h : ∀ l ∈ ls, FailsOnly P l) :
    FailsOnly P (concat ls) := by
  induction ls with
  | nil => exact failsOnly_empty
  | cons l rest ih =>
    exact (h l List.mem_cons_self).append (ih fun l hl => h l (List.mem_cons_of_mem _ hl))

theorem failure?_concat {ls : List Listing} :
    (concat ls).failure? = none ↔ ∀ l ∈ ls, l.failure? = none := by
  induction ls with
  | nil => simp [empty]
  | cons l rest ih => rw [concat_cons, failure?_append, ih, List.forall_mem_cons]

end Listing

end MirListing
