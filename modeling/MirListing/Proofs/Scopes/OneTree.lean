import MirListing.Proofs.Scopes.Intro

/-!
# Whether scopes make one tree

Scopes make one tree if scope 0 has no parent and the parents of every other scope lead to it.  That
is when the intro of a body lists every scope (`lists_all_iff_oneTree`).

Accepted are more scopes than that (`oneTree_iff`).  Since the check never follows a parent, it
finds only what has none; parents that lead out of the list, or round in a circle, it does not see.
The scopes above such parents are then left out, and with them what is declared there.
-/

namespace MirListing

/-- The parents of all scopes lead to scope 0, which has none. -/
def OneTree (scopes : List Scope) : Prop :=
  parentLink? scopes 0 = none ∧ ∀ s < scopes.length, ∃ n, Depth scopes s n

/-- The parents of a scope lead to a scope without a parent. -/
def Ends (scopes : List Scope) (s : Nat) : Prop :=
  ∃ root scope, Below scopes s root ∧ scopes[root]? = some scope ∧ scope.parent? = none

theorem below_zero_of_depth {scopes : List Scope} {s n : Nat} (h : Depth scopes s n) :
    Below scopes s 0 := by
  induction h with
  | root => exact .refl
  | link hlink _ ih => exact .link hlink ih

theorem depth_of_below_zero {scopes : List Scope} {s : Nat} (h : Below scopes s 0) :
    ∃ n, Depth scopes s n := by
  generalize hroot : 0 = root at h
  induction h with
  | refl => exact ⟨0, hroot ▸ .root⟩
  | link hlink _ ih =>
    obtain ⟨n, hn⟩ := ih hroot
    exact ⟨n + 1, .link hlink hn⟩

/-- In one tree no other scope is without a parent. -/
theorem OneTree.onlyRoot {scopes : List Scope} (h : OneTree scopes) : OnlyRoot scopes := by
  intro s scope hscope
  have hlink : parentLink? scopes s = scope.parent? := by rw [parentLink?, hscope, Option.bind_some]
  rw [← hlink]
  constructor
  · intro hnone
    obtain ⟨n, hn⟩ := h.2 s (List.getElem?_eq_some_iff.1 hscope).1
    cases hn with
    | root => rfl
    | link hsome => rw [hnone] at hsome; cases hsome
  · rintro rfl
    exact h.1

/-- What the check leaves open: scopes make one tree if they are accepted and, besides, the parents
of each of them come to an end. -/
theorem oneTree_iff (scopes : List Scope) :
    OneTree scopes ↔
      (∃ tree, ScopeTree.ofScopes scopes = .ok tree) ∧ ∀ s < scopes.length, Ends scopes s := by
  rw [ScopeTree.ofScopes_eq_ok_iff]
  constructor
  · intro h
    refine ⟨h.onlyRoot, fun s hs => ?_⟩
    obtain ⟨n, hn⟩ := h.2 s hs
    have hzero : 0 < scopes.length := by omega
    have hfirst := List.getElem?_eq_getElem hzero
    exact ⟨0, scopes[0], below_zero_of_depth hn, hfirst, (h.onlyRoot 0 _ hfirst).2 rfl⟩
  · -- where the parents end is a scope without a parent, and there is only one
    rintro ⟨hroot, hends⟩
    refine ⟨hroot.parentLink?_zero, fun s hs => ?_⟩
    obtain ⟨root, scope, hbelow, hscope, hnone⟩ := hends s hs
    obtain rfl := (hroot root scope hscope).1 hnone
    exact depth_of_below_zero hbelow

/-- All scopes of a body are listed just when they make one tree. -/
theorem lists_all_iff_oneTree {body : Body} {lines : List ScopeLine} (hroot : OnlyRoot body.scopes)
    (hlines : ∀ line, line ∈ lines ↔ Belongs body line) :
    (∀ s < body.scopes.length, s ≠ 0 → ∃ depth, ⟨depth, .opening s⟩ ∈ lines) ↔
      OneTree body.scopes := by
  constructor
  · intro hall
    refine ⟨hroot.parentLink?_zero, fun s hs => ?_⟩
    cases s with
    | zero => exact ⟨0, .root⟩
    | succ s =>
      obtain ⟨depth, hline⟩ := hall (s + 1) hs s.succ_ne_zero
      cases (hlines _).1 hline with
      | opening _ hdepth => exact ⟨depth, hdepth⟩
  · intro h s hs hne
    obtain ⟨n, hn⟩ := h.2 s hs
    exact ⟨n, (hlines _).2 (.opening hne hn)⟩

/-- In one tree every debug record and every local that is no argument is listed, if its scope is
one of the body's. -/
theorem OneTree.lists_contents {body : Body} {lines : List ScopeLine} (h : OneTree body.scopes)
    (hlines : ∀ line, line ∈ lines ↔ Belongs body line) {s : Nat} (hs : s < body.scopes.length) :
    (∀ (index : Nat) (record : DebugRecord), body.debugRecords[index]? = some record →
      record.sourceInfo.scope = (s : Int) → ∃ depth, ⟨depth, .debug index⟩ ∈ lines) ∧
    ∀ (index : Nat) (decl : LocalDecl), body.locals[index]? = some decl →
      body.isArgument index = false → decl.sourceInfo.scope = (s : Int) →
        ∃ depth, ⟨depth, .declaration index⟩ ∈ lines := by
  obtain ⟨n, hn⟩ := h.2 s hs
  constructor
  · intro index record hrecord hscope
    exact ⟨n + 1, (hlines _).2 (.debug hrecord hscope hn)⟩
  · intro index decl hdecl hno hscope
    exact ⟨n + 1, (hlines _).2 (.declaration hdecl hno hscope hn)⟩

/-- What is accepted, what it lacks of one tree, and when all that it holds is listed. -/
theorem accepted_scopes (m : SourceMap) (body : Body) :
    ((∃ tree, ScopeTree.ofScopes body.scopes = .ok tree) ↔ OnlyRoot body.scopes) ∧
    (OneTree body.scopes ↔ (∃ tree, ScopeTree.ofScopes body.scopes = .ok tree) ∧
      ∀ s < body.scopes.length, Ends body.scopes s) ∧
    (OnlyRoot body.scopes → ∃ lines : List ScopeLine,
      scopesListing m body = .concat (lines.map (ScopeLine.listing m body)) ∧
      ((∀ s < body.scopes.length, s ≠ 0 → ∃ depth, ⟨depth, .opening s⟩ ∈ lines) ↔
        OneTree body.scopes) ∧
      (OneTree body.scopes → ∀ s < body.scopes.length,
        (∀ (index : Nat) (record : DebugRecord), body.debugRecords[index]? = some record →
          record.sourceInfo.scope = (s : Int) → ∃ depth, ⟨depth, .debug index⟩ ∈ lines) ∧
        ∀ (index : Nat) (decl : LocalDecl), body.locals[index]? = some decl →
          body.isArgument index = false → decl.sourceInfo.scope = (s : Int) →
            ∃ depth, ⟨depth, .declaration index⟩ ∈ lines)) := by
  refine ⟨ScopeTree.ofScopes_eq_ok_iff _, oneTree_iff _, fun hroot => ?_⟩
  obtain ⟨tree, htree⟩ := (ScopeTree.ofScopes_eq_ok_iff _).2 hroot
  obtain ⟨blocks, hblocks, hlisting⟩ := exists_lines m htree
  have hlines : ∀ line, line ∈ ownLines body 0 1 ++ blocks ↔ Belongs body line :=
    fun line => hblocks.mem_lines_iff hroot.parentLink?_zero
  exact ⟨_, hlisting, lists_all_iff_oneTree hroot hlines, fun h s hs => h.lists_contents hlines hs⟩

/-- A body whose scopes 1 and 2 state each other; local 1 is in the first of them. -/
def circledBody : Body where
  blocks := []
  locals := [⟨.named "()", {}, true, []⟩, ⟨.named "u8", { scope := 1 }, true, []⟩]
  scopes := [{}, { parent? := some 2 }, { parent? := some 1 }]

/-- They are accepted although they make no tree, and neither they nor the local are listed. -/
theorem not_oneTree_circledBody :
    (∃ tree, ScopeTree.ofScopes circledBody.scopes = .ok tree) ∧ ¬OneTree circledBody.scopes ∧
    (scopesListing {} circledBody).render = .ok
      "    let mut _0: ();                      // return place in scope 0 at no-location\n" := by
  have htree : ScopeTree.ofScopes circledBody.scopes = .ok _ := rfl
  refine ⟨⟨_, htree⟩, fun h => ?_, ?_⟩
  · obtain ⟨n, hn⟩ := h.2 1 (by decide)
    refine not_depth_of_closed (fun s => s = 1 ∨ s = 2) (by omega) ?_ (.inl rfl) hn
    rintro s p (rfl | rfl) hlink
    · exact .inr (Int.ofNat.inj (Option.some.inj hlink)).symm
    · exact .inl (Int.ofNat.inj (Option.some.inj hlink)).symm
  · obtain ⟨blocks, hblocks, hlisting⟩ := exists_lines {} htree
    have hnone : childScopes circledBody.scopes 0 = [] := rfl
    rw [hnone] at hblocks
    cases hblocks
    rw [hlisting]
    rfl

end MirListing
