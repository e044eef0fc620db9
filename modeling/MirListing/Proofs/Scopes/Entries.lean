import MirListing.Proofs.Scopes.Intro

/-!
# The calls for a tree of scopes

`scopeListing` keeps the scopes that have not been entered and stops at one that would be entered
again.  `enterScopes` is the recursion without this guard: a call for a scope makes one for each of
its children, whatever has been entered, and only counts the calls that are open at once.

For the tree that the scopes state the count is enough if it is the number of scopes
(`scopes_entered_once`).  A call is made for a scope that is deeper than all those it was made from,
so it is none of them, and `EnteredWithin` is the invariant here as it is for the guard.  What is
entered can be read off the lines: each scope but the first at its opening brace, and no brace
stands there twice.
-/

namespace MirListing

/-! ## Calls -/

/-- What a call for a child comes to, if the child may stand under its parent. -/
def enterChild (body : Body) (scope depth : Int) (call : Int → Outcome (List Int × Listing))
    (child : Int) : Outcome (List Int × Listing) :=
  match body.checkChild scope child with
  | .error failure => .ok ([], .fail failure)
  | .ok _ => do
      let (entered, inner) ← call child
      return (entered,
        .text (indentation depth ++ "scope " ++ Text.decimal child ++ " \x7b\n") ++ inner ++
          .text (indentation depth ++ "\x7d\n"))

/-- The scopes that are entered by a call for a scope, in order, and what it writes.  No more than a
number of calls may be open at once.  A line that cannot be written stops the writing; the calls go
on here, so what is entered then is a first part of these scopes. -/
def enterScopes (m : SourceMap) (body : Body) (tree : ScopeTree) :
    Nat → Int → Int → Outcome (List Int × Listing)
  | 0, _, _ => .error .tooDeep
  | calls + 1, scope, depth => do
      let children ← (tree.childrenOf scope).mapM
        (enterChild body scope depth fun child => enterScopes m body tree calls child (depth + 1))
      return (scope :: children.flatMap Prod.fst,
        .concat ((debugLines m body scope depth).map .ofOutcome) ++
        .concat ((localLines m body scope depth).map .ofOutcome) ++
        .concat (children.map Prod.snd))

/-! ## Opened scopes -/

/-- The scope of an opening brace. -/
def ScopeEntry.opened? : ScopeEntry → Option Nat
  | .opening scope => some scope
  | .debug _ | .declaration _ | .closing _ => none

/-- The scopes whose opening braces stand in some lines, in order. -/
def opened (lines : List ScopeLine) : List Nat := lines.filterMap fun line => line.entry.opened?

theorem mem_opened {lines : List ScopeLine} {s : Nat} :
    s ∈ opened lines ↔ ∃ depth, ⟨depth, .opening s⟩ ∈ lines := by
  simp only [opened, List.mem_filterMap]
  constructor
  · rintro ⟨⟨depth, entry⟩, hline, hentry⟩
    cases entry with
    | opening scope =>
      obtain rfl := Option.some.inj hentry
      exact ⟨depth, hline⟩
    | debug _ | declaration _ | closing _ => cases hentry
  · rintro ⟨depth, hline⟩
    exact ⟨_, hline, rfl⟩

@[simp] theorem opened_append (lines more : List ScopeLine) :
    opened (lines ++ more) = opened lines ++ opened more := List.filterMap_append

@[simp] theorem opened_ownLines (body : Body) (s depth : Nat) :
    opened (ownLines body s depth) = [] := by
  refine List.eq_nil_iff_forall_not_mem.2 fun c hc => ?_
  obtain ⟨d, hline⟩ := mem_opened.1 hc
  obtain ⟨-, ⟨_, _, hentry, -⟩ | ⟨_, _, hentry, -⟩⟩ := mem_ownLines.1 hline <;> cases hentry

@[simp] theorem opened_blockLines (body : Body) (s depth : Nat) (inner : List ScopeLine) :
    opened (blockLines body s depth inner) = s :: opened inner := by
  have hcons : opened (blockLines body s depth inner) =
      s :: opened (ownLines body s (depth + 1) ++ inner ++ [⟨depth, .closing s⟩]) := rfl
  rw [hcons, opened_append, opened_append, opened_ownLines]
  exact congrArg (s :: ·) (List.append_nil _)

/-- Where no entry stands twice no scope is opened twice. -/
theorem nodup_opened {lines : List ScopeLine} (h : (lines.map ScopeLine.entry).Nodup) :
    (opened lines).Nodup := by
  have hopened : opened lines = (lines.map ScopeLine.entry).filterMap ScopeEntry.opened? := by
    rw [List.filterMap_map]
    rfl
  rw [hopened]
  refine List.Pairwise.filterMap _ (fun a b hne s ha t hb heq => hne ?_) h
  subst heq
  cases a with
  | opening scope =>
    cases b with
    | opening scope' =>
      exact congrArg _ ((Option.some.inj ha).trans (Option.some.inj hb).symm)
    | debug _ | declaration _ | closing _ => cases hb
  | debug _ | declaration _ | closing _ => cases ha

/-- The lines of scopes are determined by them. -/
theorem Blocks.unique {body : Body} {depth : Nat} {scopes : List Nat}
    {lines lines' : List ScopeLine} (h : Blocks body depth scopes lines)
    (h' : Blocks body depth scopes lines') : lines = lines' := by
  induction h generalizing lines' with
  | nil =>
    cases h'
    rfl
  | cons _ _ ih ihmore =>
    cases h' with
    | cons hinner hmore => rw [ih hinner, ihmore hmore]

/-! ## Calls for the tree of a body -/

/-- The result of a call that writes some lines. -/
def callResult (m : SourceMap) (body : Body) (entered : List Nat) (lines : List ScopeLine) :
    List Int × Listing :=
  (entered.map Int.ofNat, .concat (lines.map (ScopeLine.listing m body)))

/-- If each child comes to its block, the children come to blocks one after another. -/
theorem exists_results (m : SourceMap) (body : Body) {depth : Nat}
    {child : Nat → Outcome (List Int × Listing)} :
    ∀ scopes : List Nat, (∀ c ∈ scopes, ∃ inner,
        Blocks body (depth + 1) (childScopes body.scopes c) inner ∧
        child c = .ok (callResult m body (c :: opened inner) (blockLines body c depth inner))) →
      ∃ lines, ∃ results : List (List Int × Listing),
        Blocks body depth scopes lines ∧ scopes.map child = results.map .ok ∧
        (results.flatMap Prod.fst, Listing.concat (results.map Prod.snd)) =
          callResult m body (opened lines) lines := by
  intro scopes hscopes
  induction scopes with
  | nil => exact ⟨[], [], .nil, rfl, rfl⟩
  | cons c rest ih =>
    obtain ⟨inner, hinner, hchild⟩ := hscopes c List.mem_cons_self
    obtain ⟨more, results, hmore, hrest, hresults⟩ := ih fun c hc =>
      hscopes c (List.mem_cons_of_mem _ hc)
    obtain ⟨hentered, hlisting⟩ := Prod.mk.inj hresults
    refine ⟨_, _ :: results, .cons hinner hmore, by rw [List.map_cons, hchild, hrest]; rfl, ?_⟩
    rw [List.flatMap_cons, List.map_cons, Listing.concat_cons, hentered, hlisting, callResult,
      callResult, opened_append, opened_blockLines, List.map_append, List.map_append,
      Listing.concat_append]

/-- A child that states the scope as its parent comes to its block. -/
theorem enterChild_of_link (m : SourceMap) {body : Body} {s c depth : Nat}
    {inner : List ScopeLine} {call : Int → Outcome (List Int × Listing)}
    (hlink : parentLink? body.scopes c = some (s : Int))
    (hcall : call c = .ok (callResult m body (c :: opened inner)
      (ownLines body c (depth + 1) ++ inner))) :
    enterChild body s depth call c =
      .ok (callResult m body (c :: opened inner) (blockLines body c depth inner)) := by
  rw [enterChild, checkChild_of_link hlink, callResult, listing_blockLines]
  simp only [hcall]
  rfl

/-- A call for a scope of the tree writes its own lines and the blocks of its children, and enters
the scopes that are opened there.  There are fewer scopes left than calls that may be opened, so the
calls do not run out. -/
theorem enterScopes_eq (m : SourceMap) {body : Body} {tree : ScopeTree}
    (h : ScopeTree.ofScopes body.scopes = .ok tree) (calls : Nat) {unentered : List Int} {s n : Nat}
    (hdepth : Depth body.scopes s n) (hentered : EnteredWithin body.scopes unentered n)
    (hcalls : unentered.length < calls) :
    ∃ inner, Blocks body (n + 1) (childScopes body.scopes s) inner ∧
      enterScopes m body tree calls s (n + 1 : Nat) =
        .ok (callResult m body (s :: opened inner) (ownLines body s (n + 1) ++ inner)) := by
  induction calls generalizing unentered s n with
  | zero => omega
  | succ calls ih =>
    have hroot := (ScopeTree.onlyRoot_of_ofScopes h).parentLink?_zero
    have hchild : ∀ c ∈ childScopes body.scopes s, ∃ inner,
        Blocks body (n + 1 + 1) (childScopes body.scopes c) inner ∧
        enterChild body s (n + 1 : Nat)
            (fun child => enterScopes m body tree calls child ((n + 1 : Nat) + 1)) c =
          .ok (callResult m body (c :: opened inner) (blockLines body c (n + 1) inner)) := by
      intro c hc
      have hlink := mem_childScopes.1 hc
      -- a child is deeper than whatever has been entered, so it is one of the scopes that are left
      have hbelow : Depth body.scopes c (n + 1) := .link hlink hdepth
      have hnew := hentered.mem_unentered hroot hbelow (lt_length_of_parentLink? hlink)
      have hfewer : (unentered.erase (c : Int)).length < calls := by
        have := List.length_pos_of_mem hnew
        rw [List.length_erase_of_mem hnew]
        omega
      obtain ⟨inner, hinner, hcall⟩ := ih hbelow (hentered.enter hbelow) hfewer
      exact ⟨inner, hinner, enterChild_of_link m hlink hcall⟩
    obtain ⟨inner, results, hinner, hresults, hwhole⟩ := exists_results m body _ hchild
    obtain ⟨hopened, hlisting⟩ := Prod.mk.inj hwhole
    refine ⟨inner, hinner, ?_⟩
    have hmap : (tree.childrenOf s).mapM (enterChild body s (n + 1 : Nat)
        fun child => enterScopes m body tree calls child ((n + 1 : Nat) + 1)) = .ok results := by
      rw [mapM_eq_ok_iff, ScopeTree.childrenOf_ofScopes h, List.map_map]
      exact hresults
    rw [enterScopes, hmap, callResult, List.map_append, Listing.concat_append, listing_ownLines,
      List.map_cons, ← hopened, ← hlisting]
    rfl

/-- A call for scope 0 with as many open calls as there are scopes comes to its end. -/
theorem enterScopes_root (m : SourceMap) {body : Body} {tree : ScopeTree}
    (h : ScopeTree.ofScopes body.scopes = .ok tree) {calls : Nat}
    (hcalls : max 1 body.scopes.length ≤ calls) :
    ∃ blocks, Blocks body 1 (childScopes body.scopes 0) blocks ∧
      enterScopes m body tree calls 0 1 =
        .ok (callResult m body (0 :: opened blocks) (ownLines body 0 1 ++ blocks)) := by
  -- at first the scopes behind the first one are left
  have hstart : EnteredWithin body.scopes
      ((List.range' 1 (body.scopes.length - 1)).map Int.ofNat) 0 := by
    intro c hlt hnone
    obtain rfl : c = 0 := Decidable.byContradiction fun hne =>
      hnone (List.mem_map_of_mem (List.mem_range'_1.2 (by omega)))
    exact ⟨0, Nat.le_refl 0, .root⟩
  refine enterScopes_eq m h calls .root hstart ?_
  rw [List.length_map, List.length_range']
  omega

/-- The calls for the scopes of a body that are accepted come to an end, with no more open at once
than there are scopes, and write the listing.  Entered is each scope whose parents lead to scope 0,
and none of them twice; every child that a call comes to is a scope of the body, which states the
scope of the call as its parent. -/
theorem scopes_entered_once (m : SourceMap) {body : Body} {tree : ScopeTree}
    (h : ScopeTree.ofScopes body.scopes = .ok tree) :
    ∃ entered : List Nat,
      (∀ calls, max 1 body.scopes.length ≤ calls →
        enterScopes m body tree calls 0 1 = .ok (entered.map Int.ofNat, scopesListing m body)) ∧
      entered.Nodup ∧
      (∀ s, s ∈ entered ↔ ∃ n, Depth body.scopes s n) ∧
      ∀ s ∈ entered, ∀ child ∈ tree.childrenOf s,
        body.checkChild s child = .ok () ∧
          ∃ c ∈ entered, child = (c : Int) ∧ c < body.scopes.length := by
  have hroot := (ScopeTree.onlyRoot_of_ofScopes h).parentLink?_zero
  obtain ⟨blocks, hblocks, hlisting⟩ := exists_lines m h
  have hentered : ∀ s, s ∈ 0 :: opened blocks ↔ ∃ n, Depth body.scopes s n := by
    intro s
    have hopened : opened blocks = opened (ownLines body 0 1 ++ blocks) := by simp
    rw [List.mem_cons, hopened, mem_opened]
    simp only [hblocks.mem_lines_iff hroot]
    constructor
    · rintro (rfl | ⟨depth, hline⟩)
      · exact ⟨0, .root⟩
      · cases hline with
        | opening _ hs => exact ⟨depth, hs⟩
    · rintro ⟨n, hs⟩
      by_cases hzero : s = 0
      · exact .inl hzero
      · exact .inr ⟨n, .opening hzero hs⟩
  refine ⟨0 :: opened blocks, fun calls hcalls => ?_, ?_, hentered, fun s hs child hchild => ?_⟩
  · obtain ⟨blocks', hblocks', hcall⟩ := enterScopes_root m h hcalls
    rw [hcall, callResult, hblocks'.unique hblocks, ← hlisting]
  · refine List.nodup_cons.2 ⟨fun hmem => ?_, ?_⟩
    · obtain ⟨depth, hline⟩ := mem_opened.1 hmem
      cases (hblocks.mem_lines_iff hroot).1 (List.mem_append_right _ hline) with
      | opening hne _ => exact hne rfl
    · have hnodup := nodup_opened (hblocks.nodup_lines hroot)
      rwa [opened_append, opened_ownLines, List.nil_append] at hnodup
  · rw [ScopeTree.childrenOf_ofScopes h] at hchild
    obtain ⟨c, hc, rfl⟩ := List.mem_map.1 hchild
    have hlink := mem_childScopes.1 hc
    obtain ⟨n, hn⟩ := (hentered s).1 hs
    exact ⟨checkChild_of_link hlink, c, (hentered c).2 ⟨n + 1, .link hlink hn⟩, rfl,
      lt_length_of_parentLink? hlink⟩

theorem scopes_entered_once_knottedBody :
    ∃ (tree : ScopeTree) (entered : List Nat), ScopeTree.ofScopes knottedBody.scopes = .ok tree ∧
      enterScopes {} knottedBody tree 6 0 1 =
        .ok (entered.map Int.ofNat, scopesListing {} knottedBody) ∧
      entered.Nodup ∧ 1 ∈ entered ∧ 4 ∉ entered ∧
      ∀ child ∈ tree.childrenOf 3, knottedBody.checkChild 3 child = .ok () := by
  have htree : ScopeTree.ofScopes knottedBody.scopes = .ok _ := rfl
  obtain ⟨entered, hcalls, hnodup, hmem, hchildren⟩ := scopes_entered_once {} htree
  have hthree : Depth knottedBody.scopes 3 1 := .link rfl .root
  refine ⟨_, entered, htree, hcalls 6 (by decide), hnodup, (hmem 1).2 ⟨2, .link rfl hthree⟩, ?_, ?_⟩
  · intro hfour
    obtain ⟨n, hn⟩ := (hmem 4).1 hfour
    exact not_depth_knottedBody n hn
  · intro child hchild
    exact (hchildren 3 ((hmem 3).2 ⟨1, hthree⟩) child hchild).1

end MirListing
