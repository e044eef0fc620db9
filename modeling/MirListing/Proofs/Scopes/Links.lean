import MirListing.Listing.Scopes

/-!
# Parent links

The scopes of a body are given by their parents.  `Depth` follows the parents of a scope up to scope
0 and counts the links; a scope without a depth is on a cycle, or its parents lead out of the list
or to another scope without a parent.

`ScopeTree.ofScopes` looks at one link of each scope and no further: it accepts scopes if 0 is the
only one without a parent (`ofScopes_eq_ok_iff`), and the children of a scope are then those that
state it, in ascending order (`childrenOf_ofScopes`).  Whether the parents make one tree is another
matter.

Since the parent of a scope is unique, so is its depth, and a scope is `Below` no more than one
scope of any depth.  These are the two facts that keep the listing of a tree from entering a scope
twice.
-/

namespace MirListing

/-- The parent that a scope states. -/
def parentLink? (scopes : List Scope) (s : Nat) : Option Int := scopes[s]?.bind Scope.parent?

/-- The scopes that state a parent, in ascending order. -/
def childScopes (scopes : List Scope) (parent : Int) : List Nat :=
  (scopes.zipIdx.filter fun (scope, _) => scope.parent? = some parent).map Prod.snd

/-- The parents of a scope stay inside the list and reach scope 0 after a number of links. -/
inductive Depth (scopes : List Scope) : Nat → Nat → Prop
  | root : Depth scopes 0 0
  | link {s p n : Nat} : parentLink? scopes s = some p → Depth scopes p n → Depth scopes s (n + 1)

/-- Scope 0 and no other is without a parent. -/
def OnlyRoot (scopes : List Scope) : Prop :=
  ∀ s scope, scopes[s]? = some scope → (scope.parent? = none ↔ s = 0)

/-! ## Children -/

theorem mem_childScopes {scopes : List Scope} {parent : Int} {s : Nat} :
    s ∈ childScopes scopes parent ↔ parentLink? scopes s = some parent := by
  simp only [childScopes, parentLink?, List.mem_map, List.mem_filter, List.mem_zipIdx_iff_getElem?,
    decide_eq_true_eq, Prod.exists, exists_eq_right, Option.bind_eq_some_iff]

theorem pairwise_childScopes (scopes : List Scope) (parent : Int) :
    (childScopes scopes parent).Pairwise (· < ·) := by
  have hsub : (childScopes scopes parent).Sublist (scopes.zipIdx.map Prod.snd) :=
    List.filter_sublist.map Prod.snd
  rw [List.zipIdx_map_snd] at hsub
  exact List.Pairwise.sublist hsub List.pairwise_lt_range'

theorem lt_length_of_parentLink? {scopes : List Scope} {s : Nat} {parent : Int}
    (h : parentLink? scopes s = some parent) : s < scopes.length := by
  obtain ⟨scope, hscope, -⟩ := Option.bind_eq_some_iff.1 h
  exact (List.getElem?_eq_some_iff.1 hscope).1

theorem OnlyRoot.parentLink?_zero {scopes : List Scope} (h : OnlyRoot scopes) :
    parentLink? scopes 0 = none := by
  cases hscope : scopes[0]? with
  | none => simp [parentLink?, hscope]
  | some scope => simpa [parentLink?, hscope] using h 0 scope hscope

/-! ## Depths -/

section

variable {scopes : List Scope}

/-- Scopes whose parents stay among them, scope 0 not being one of them, have no depth. -/
theorem not_depth_of_closed (among : Nat → Prop) (hzero : ¬among 0)
    (hclosed : ∀ s p : Nat, among s → parentLink? scopes s = some p → among p) {s n : Nat}
    (hs : among s) : ¬Depth scopes s n := by
  intro h
  induction h with
  | root => exact hzero hs
  | link hlink _ ih => exact ih (hclosed _ _ hs hlink)

variable (hroot : parentLink? scopes 0 = none)
include hroot

/-- A scope has one depth. -/
theorem Depth.unique {s n m : Nat} (hn : Depth scopes s n) (hm : Depth scopes s m) : n = m := by
  induction hn generalizing m with
  | root =>
    cases hm with
    | root => rfl
    | link hlink => rw [hroot] at hlink; cases hlink
  | link hlink _ ih =>
    cases hm with
    | root => rw [hroot] at hlink; cases hlink
    | link hlink' hm' =>
      rw [hlink] at hlink'
      obtain rfl := Int.ofNat.inj (Option.some.inj hlink')
      exact congrArg (· + 1) (ih hm')

theorem Depth.ne_zero {s n : Nat} (h : Depth scopes s (n + 1)) : s ≠ 0 := by
  rintro rfl
  have := Depth.unique hroot h .root
  omega

end

/-! ## Scopes below others -/

/-- The parents of a scope lead to another, which may be the scope itself. -/
inductive Below (scopes : List Scope) : Nat → Nat → Prop
  | refl {s : Nat} : Below scopes s s
  | link {s p t : Nat} : parentLink? scopes s = some p → Below scopes p t → Below scopes s t

theorem Below.trans {scopes : List Scope} {s t u : Nat} (hs : Below scopes s t)
    (ht : Below scopes t u) : Below scopes s u := by
  induction hs with
  | refl => exact ht
  | link hlink _ ih => exact .link hlink (ih ht)

/-- What is below a scope is deeper, the scope itself apart. -/
theorem Below.depth {scopes : List Scope} {s t d : Nat} (h : Below scopes s t)
    (hd : Depth scopes t d) : ∃ e, Depth scopes s e ∧ d ≤ e ∧ (e = d → s = t) := by
  induction h with
  | refl => exact ⟨d, hd, Nat.le_refl d, fun _ => rfl⟩
  | link hlink _ ih =>
    obtain ⟨e, he, hle, -⟩ := ih hd
    exact ⟨e + 1, .link hlink he, by omega, fun heq => by omega⟩

/-- A scope is below no more than one scope of a depth. -/
theorem Below.unique {scopes : List Scope} (hroot : parentLink? scopes 0 = none) {s t u d : Nat}
    (ht : Below scopes s t) (hu : Below scopes s u) (hdt : Depth scopes t d)
    (hdu : Depth scopes u d) : t = u := by
  induction ht with
  | refl =>
    obtain ⟨e, he, -, heq⟩ := hu.depth hdu
    exact heq (Depth.unique hroot he hdt)
  | link hlink hbelow ih =>
    cases hu with
    | refl =>
      obtain ⟨e, he, -, heq⟩ := (Below.link hlink hbelow).depth hdt
      exact (heq (Depth.unique hroot he hdu)).symm
    | link hlink' hu' =>
      rw [hlink] at hlink'
      obtain rfl := Int.ofNat.inj (Option.some.inj hlink')
      exact ih hu' hdt

/-! ## The tree of scopes -/

namespace ScopeTree

theorem childrenOf_addChild (tree : ScopeTree) (parent child other : Int) :
    (tree.addChild parent child).childrenOf other =
      tree.childrenOf other ++ (if parent = other then [child] else []) := by
  unfold addChild
  rw [childrenOf, OrderedMap.get?_put]
  by_cases h : parent = other
  · subst h
    simp
  · simp [h, childrenOf]

/-- Scopes are added if they are parentless just where they should be. -/
theorem addScopes_eq_ok_iff (scopes : List Scope) (tree : ScopeTree) (index : Nat) :
    (∃ result, addScopes tree index scopes = .ok result) ↔
      ∀ s scope, scopes[s]? = some scope → (scope.parent? = none ↔ index + s = 0) := by
  induction scopes generalizing tree index with
  | nil => simp [addScopes]
  | cons scope rest ih =>
    have hsplit : (∀ s other, (scope :: rest)[s]? = some other →
          (other.parent? = none ↔ index + s = 0)) ↔
        (scope.parent? = none ↔ index = 0) ∧
          ∀ s other, rest[s]? = some other → (other.parent? = none ↔ index + 1 + s = 0) := by
      constructor
      · intro h
        refine ⟨h 0 scope rfl, fun s other hother => ?_⟩
        have := h (s + 1) other hother
        rwa [show index + 1 + s = index + (s + 1) by omega]
      · rintro ⟨hfirst, hrest⟩ s other hother
        cases s with
        | zero =>
          obtain rfl := Option.some.inj hother
          exact hfirst
        | succ s =>
          have := hrest s other hother
          rwa [show index + (s + 1) = index + 1 + s by omega]
    rw [hsplit]
    cases hparent : scope.parent? with
    | some parent =>
      cases index with
      | zero => simp [addScopes, hparent]
      | succ index => simp [addScopes, hparent, ih]
    | none =>
      cases index with
      | zero => simp [addScopes, hparent, ih]
      | succ index => simp [addScopes, hparent]

/-- The scopes that are added stand behind the children there are. -/
theorem childrenOf_addScopes {scopes : List Scope} {tree result : ScopeTree} {index : Nat}
    (h : addScopes tree index scopes = .ok result) (parent : Int) :
    result.childrenOf parent = tree.childrenOf parent ++
      ((scopes.zipIdx index).filter fun (scope, _) => scope.parent? = some parent).map
        fun (_, s) => (s : Int) := by
  induction scopes generalizing tree index with
  | nil =>
    obtain rfl := Except.ok.inj h
    simp
  | cons scope rest ih =>
    cases hparent : scope.parent? with
    | some other =>
      cases index with
      | zero => simp [addScopes, hparent] at h
      | succ index =>
        simp only [addScopes, hparent] at h
        rw [ih h, childrenOf_addChild, List.zipIdx_cons, List.append_assoc]
        by_cases heq : other = parent <;> simp [hparent, heq]
    | none =>
      cases index with
      | zero =>
        simp only [addScopes, hparent] at h
        rw [ih h, List.zipIdx_cons]
        simp [hparent]
      | succ index => simp [addScopes, hparent] at h

/-- Scopes are accepted if 0 is the only one without a parent. -/
theorem ofScopes_eq_ok_iff (scopes : List Scope) :
    (∃ tree, ofScopes scopes = .ok tree) ↔ OnlyRoot scopes := by
  rw [ofScopes, addScopes_eq_ok_iff]
  simp only [Nat.zero_add, OnlyRoot]

theorem onlyRoot_of_ofScopes {scopes : List Scope} {tree : ScopeTree}
    (h : ofScopes scopes = .ok tree) : OnlyRoot scopes :=
  (ofScopes_eq_ok_iff scopes).1 ⟨tree, h⟩

/-- The children of a scope are the scopes that state it as their parent. -/
theorem childrenOf_ofScopes {scopes : List Scope} {tree : ScopeTree}
    (h : ofScopes scopes = .ok tree) (parent : Int) :
    tree.childrenOf parent = (childScopes scopes parent).map Int.ofNat := by
  rw [childrenOf_addScopes h parent, childScopes, List.map_map]
  rfl

end ScopeTree

end MirListing
