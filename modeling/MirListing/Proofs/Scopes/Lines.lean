import MirListing.Proofs.Listing.Render
import MirListing.Proofs.Lists
import MirListing.Proofs.Scopes.Links

/-!
# The lines of a tree of scopes

The locals of a body are listed line by line: debug records, locals, and the braces of scopes, each
behind a number of indentations.  `Blocks` says without a text how lines nest: the lines of a scope
stand between its braces, those of its children behind its own, one link deeper.

`exists_lines` reads the listing as the lines of scope 0 with such blocks behind them.  The listing
keeps the scopes it has not entered and stops at one it would enter again; `EnteredWithin` is the
invariant that keeps it from ever stopping there.

Which lines there are does not depend on how they were found.  `Blocks.mem_lines_iff` names them:
the lines of scope 0 and of the scopes whose parents lead to it, at the depth that the number of
links gives.  `Blocks.nodup_lines` says that none stands there twice, because the lines of a block
are about scopes below its own and no scope is below two siblings.
-/

namespace MirListing

/-! ## Lines -/

/-- What a line is about. -/
inductive ScopeEntry
  /-- A debug record. -/
  | debug (index : Nat)
  /-- A local that is no argument. -/
  | declaration (index : Nat)
  /-- The opening brace of a scope. -/
  | opening (scope : Nat)
  /-- The closing brace of a scope. -/
  | closing (scope : Nat)
deriving DecidableEq

/-- A line and the number of its indentations. -/
structure ScopeLine where
  depth : Nat
  entry : ScopeEntry

/-- How a line is listed. -/
def ScopeLine.listing (m : SourceMap) (body : Body) (line : ScopeLine) : Listing :=
  match line.entry with
  | .debug index =>
      ((body.debugRecords[index]?).map fun record =>
        .ofOutcome (debugLine m line.depth record)).getD .empty
  | .declaration index =>
      ((body.locals[index]?).map fun decl =>
        .ofOutcome (localLine m line.depth index decl)).getD .empty
  | .opening scope =>
      .text (indentation line.depth ++ "scope " ++ Text.decimal scope ++ " \x7b\n")
  | .closing _ => .text (indentation line.depth ++ "\x7d\n")

/-- The lines of the debug records and the locals of a scope, each in the order of their numbers. -/
def ownLines (body : Body) (scope depth : Nat) : List ScopeLine :=
  ((body.debugRecords.zipIdx.filter fun (record, _) => record.sourceInfo.scope = scope).map
    fun (_, index) => ⟨depth, .debug index⟩) ++
  (scopeLocals body scope).map fun (_, index) => ⟨depth, .declaration index⟩

/-- The lines of a scope between its braces, and the braces. -/
def blockLines (body : Body) (scope depth : Nat) (inner : List ScopeLine) : List ScopeLine :=
  ⟨depth, .opening scope⟩ :: (ownLines body scope (depth + 1) ++ inner ++ [⟨depth, .closing scope⟩])

/-- Lines are those of scopes at a depth one after another, each with all its children inside. -/
inductive Blocks (body : Body) : Nat → List Nat → List ScopeLine → Prop
  | nil {depth : Nat} : Blocks body depth [] []
  | cons {depth scope : Nat} {rest : List Nat} {inner more : List ScopeLine} :
      Blocks body (depth + 1) (childScopes body.scopes scope) inner →
      Blocks body depth rest more →
      Blocks body depth (scope :: rest) (blockLines body scope depth inner ++ more)

/-! ## The listing of a tree -/

theorem listing_debugLines (m : SourceMap) (body : Body) (scope depth : Nat) :
    ((body.debugRecords.zipIdx.filter fun (record, _) => record.sourceInfo.scope = scope).map
        fun (_, index) => (⟨depth, .debug index⟩ : ScopeLine)).map (ScopeLine.listing m body) =
      (debugLines m body scope depth).map .ofOutcome := by
  have hrecords : body.debugRecords.filter (fun record => record.sourceInfo.scope = (scope : Int)) =
      (body.debugRecords.zipIdx.filter fun (record, _) =>
        record.sourceInfo.scope = (scope : Int)).map Prod.fst := by
    calc
      _ = (body.debugRecords.zipIdx.map Prod.fst).filter
          (fun record => record.sourceInfo.scope = (scope : Int)) := by rw [List.zipIdx_map_fst]
      _ = _ := List.filter_map
  rw [debugLines, hrecords, List.map_map, List.map_map, List.map_map]
  apply List.map_congr_left
  intro (record, index) hmem
  have hrecord := List.mem_zipIdx_iff_getElem?.1 (List.mem_filter.1 hmem).1
  simp only [Function.comp, ScopeLine.listing] at hrecord ⊢
  rw [hrecord]
  rfl

theorem listing_localLines (m : SourceMap) (body : Body) (scope depth : Nat) :
    ((scopeLocals body scope).map
        fun (_, index) => (⟨depth, .declaration index⟩ : ScopeLine)).map
          (ScopeLine.listing m body) =
      (localLines m body scope depth).map .ofOutcome := by
  rw [localLines, List.map_map, List.map_map]
  apply List.map_congr_left
  intro (decl, index) hmem
  have hdecl := List.mem_zipIdx_iff_getElem?.1 (List.mem_filter.1 hmem).1
  simp only [Function.comp, ScopeLine.listing] at hdecl ⊢
  rw [hdecl]
  rfl

theorem listing_ownLines (m : SourceMap) (body : Body) (scope depth : Nat) :
    Listing.concat ((ownLines body scope depth).map (ScopeLine.listing m body)) =
      .concat ((debugLines m body scope depth).map .ofOutcome) ++
        .concat ((localLines m body scope depth).map .ofOutcome) := by
  rw [ownLines, List.map_append, listing_debugLines, listing_localLines, Listing.concat_append]

/-- The listing of a block. -/
theorem listing_blockLines (m : SourceMap) (body : Body) (s depth : Nat) (inner : List ScopeLine) :
    Listing.concat ((blockLines body s depth inner).map (ScopeLine.listing m body)) =
      .text (indentation depth ++ "scope " ++ Text.decimal s ++ " \x7b\n") ++
        .concat ((ownLines body s (depth + 1) ++ inner).map (ScopeLine.listing m body)) ++
        .text (indentation depth ++ "\x7d\n") := by
  rw [blockLines, List.map_cons, List.map_append, Listing.concat_cons, Listing.concat_append,
    Listing.append_assoc]
  rfl

/-- The listing of a scope under its parent. -/
def childListing (m : SourceMap) (body : Body) (tree : ScopeTree) (unentered : List Int)
    (scope depth child : Int) : Listing :=
  match body.checkChild scope child with
  | .error failure => .fail failure
  | .ok _ =>
      .text (indentation depth ++ "scope " ++ Text.decimal child ++ " \x7b\n") ++
      (if child ∈ unentered then scopeListing m body tree (unentered.erase child) child (depth + 1)
      else .fail .endless) ++
      .text (indentation depth ++ "\x7d\n")

theorem scopeListing_eq (m : SourceMap) (body : Body) (tree : ScopeTree) (unentered : List Int)
    (scope depth : Int) :
    scopeListing m body tree unentered scope depth =
      .concat ((debugLines m body scope depth).map .ofOutcome) ++
      .concat ((localLines m body scope depth).map .ofOutcome) ++
      .concat ((tree.childrenOf scope).map (childListing m body tree unentered scope depth)) := by
  rw [scopeListing]
  rfl

theorem checkChild_of_link {body : Body} {s c : Nat} (h : parentLink? body.scopes c = some s) :
    body.checkChild s c = .ok () := by
  obtain ⟨scope, hscope, hparent⟩ := Option.bind_eq_some_iff.1 h
  have hfound : elementAt .noScope body.scopes (c : Int) = .ok scope := by
    rw [elementAt_eq_ok_iff, elementAt?_natCast, hscope]
  rw [Body.checkChild, hfound]
  exact if_pos hparent

/-- A child that can be entered is listed between its braces. -/
theorem childListing_of_link (m : SourceMap) {body : Body} (tree : ScopeTree)
    {unentered : List Int} {s c depth : Nat} {inner : List ScopeLine}
    (hlink : parentLink? body.scopes c = some s) (hnew : (c : Int) ∈ unentered)
    (hlisting : scopeListing m body tree (unentered.erase c) c (depth + 1 : Nat) =
      .concat ((ownLines body c (depth + 1) ++ inner).map (ScopeLine.listing m body))) :
    childListing m body tree unentered s depth c =
      .concat ((blockLines body c depth inner).map (ScopeLine.listing m body)) := by
  rw [childListing, checkChild_of_link hlink, listing_blockLines, ← hlisting]
  simp only [if_pos hnew]
  rfl

/-- If the children of a scope are listed as blocks, they are blocks one after another. -/
theorem exists_blocks_children (m : SourceMap) (body : Body) {depth : Nat} {child : Nat → Listing} :
    ∀ scopes : List Nat, (∀ c ∈ scopes, ∃ inner,
        Blocks body (depth + 1) (childScopes body.scopes c) inner ∧
        child c = .concat ((blockLines body c depth inner).map (ScopeLine.listing m body))) →
      ∃ lines, Blocks body depth scopes lines ∧
        Listing.concat (scopes.map child) = .concat (lines.map (ScopeLine.listing m body)) := by
  intro scopes hscopes
  induction scopes with
  | nil => exact ⟨[], .nil, rfl⟩
  | cons c rest ih =>
    obtain ⟨inner, hinner, hchild⟩ := hscopes c List.mem_cons_self
    obtain ⟨more, hmore, hrest⟩ := ih fun c hc => hscopes c (List.mem_cons_of_mem _ hc)
    refine ⟨_, .cons hinner hmore, ?_⟩
    rw [List.map_cons, Listing.concat_cons, hchild, hrest, List.map_append, Listing.concat_append]

/-! ## Entered scopes -/

/-- The scopes that have been entered are no deeper than a bound. -/
def EnteredWithin (scopes : List Scope) (unentered : List Int) (n : Nat) : Prop :=
  ∀ c < scopes.length, (c : Int) ∉ unentered → ∃ k ≤ n, Depth scopes c k

namespace EnteredWithin

variable {scopes : List Scope} {unentered : List Int} {s c n : Nat}

/-- A scope under the deepest entered ones has not been entered. -/
theorem mem_unentered (h : EnteredWithin scopes unentered n)
    (hroot : parentLink? scopes 0 = none) (hc : Depth scopes c (n + 1))
    (hlt : c < scopes.length) : (c : Int) ∈ unentered := by
  by_cases hmem : (c : Int) ∈ unentered
  · exact hmem
  · obtain ⟨k, hle, hk⟩ := h c hlt hmem
    have := Depth.unique hroot hk hc
    omega

/-- It may be entered next. -/
theorem enter (h : EnteredWithin scopes unentered n) (hc : Depth scopes c (n + 1)) :
    EnteredWithin scopes (unentered.erase c) (n + 1) := by
  intro other hlt hentered
  by_cases heq : other = c
  · exact ⟨n + 1, Nat.le_refl _, heq ▸ hc⟩
  · have hne : (other : Int) ≠ c := fun h => heq (Int.ofNat.inj h)
    have hbefore : (other : Int) ∉ unentered := fun hmem =>
      hentered ((List.mem_erase_of_ne hne).2 hmem)
    obtain ⟨k, hle, hk⟩ := h other hlt hbefore
    exact ⟨k, Nat.le_succ_of_le hle, hk⟩

/-- At first only scope 0 has been entered. -/
theorem root (body : Body) : EnteredWithin body.scopes (body.scopeNumbers.erase 0) 0 := by
  intro c hlt hentered
  by_cases hzero : c = 0
  · subst hzero
    exact ⟨0, Nat.le_refl 0, .root⟩
  · have hne : (c : Int) ≠ 0 := by omega
    have hmem : (c : Int) ∈ body.scopeNumbers := by
      refine List.mem_map.2 ⟨c + body.scopes.length, List.mem_range.2 ?_, ?_⟩
      · omega
      · omega
    exact absurd ((List.mem_erase_of_ne hne).2 hmem) hentered

end EnteredWithin

/-! ## The listing of a tree -/

/-- A scope of the tree that the scopes state is listed as its own lines and the blocks of its
children.  The induction is on the scopes that have not been entered. -/
theorem exists_blocks (m : SourceMap) {body : Body} {tree : ScopeTree}
    (h : ScopeTree.ofScopes body.scopes = .ok tree) (unentered : List Int) {s n : Nat}
    (hdepth : Depth body.scopes s n) (hentered : EnteredWithin body.scopes unentered n) :
    ∃ inner, Blocks body (n + 1) (childScopes body.scopes s) inner ∧
      scopeListing m body tree unentered s (n + 1 : Nat) =
        .concat ((ownLines body s (n + 1) ++ inner).map (ScopeLine.listing m body)) := by
  induction hlength : unentered.length using Nat.strongRecOn generalizing unentered s n with
  | ind length ih =>
    have hroot := (ScopeTree.onlyRoot_of_ofScopes h).parentLink?_zero
    have hchild : ∀ c ∈ childScopes body.scopes s, ∃ inner,
        Blocks body (n + 1 + 1) (childScopes body.scopes c) inner ∧
        childListing m body tree unentered s (n + 1 : Nat) c =
          .concat ((blockLines body c (n + 1) inner).map (ScopeLine.listing m body)) := by
      intro c hc
      have hlink := mem_childScopes.1 hc
      -- a child is deeper than whatever has been entered, so it is new
      have hbelow : Depth body.scopes c (n + 1) := .link hlink hdepth
      have hnew := hentered.mem_unentered hroot hbelow (lt_length_of_parentLink? hlink)
      have hshorter : (unentered.erase (c : Int)).length < length := by
        have := List.length_pos_of_mem hnew
        rw [List.length_erase_of_mem hnew]
        omega
      obtain ⟨inner, hinner, hlisting⟩ := ih _ hshorter _ hbelow (hentered.enter hbelow) rfl
      exact ⟨inner, hinner, childListing_of_link m tree hlink hnew hlisting⟩
    obtain ⟨inner, hinner, hchildren⟩ := exists_blocks_children m body _ hchild
    refine ⟨inner, hinner, ?_⟩
    rw [scopeListing_eq, ScopeTree.childrenOf_ofScopes h, List.map_map, List.map_append,
      Listing.concat_append, listing_ownLines]
    exact congrArg _ hchildren

/-- The lines of the tree that the scopes of a body state. -/
theorem exists_lines (m : SourceMap) {body : Body} {tree : ScopeTree}
    (h : ScopeTree.ofScopes body.scopes = .ok tree) :
    ∃ blocks, Blocks body 1 (childScopes body.scopes 0) blocks ∧
      scopesListing m body =
        .concat ((ownLines body 0 1 ++ blocks).map (ScopeLine.listing m body)) := by
  obtain ⟨blocks, hblocks, hlisting⟩ := exists_blocks m h _ .root (EnteredWithin.root body)
  refine ⟨blocks, hblocks, ?_⟩
  rw [scopesListing, h]
  change scopeTreeListing m body tree 0 1 = _
  rw [scopeTreeListing, if_neg (by decide)]
  exact hlisting

/-! ## Which lines there are -/

/-- A line that belongs to the listing of the scopes of a body. -/
inductive Belongs (body : Body) : ScopeLine → Prop
  | debug {index s n : Nat} {record : DebugRecord} : body.debugRecords[index]? = some record →
      record.sourceInfo.scope = s → Depth body.scopes s n → Belongs body ⟨n + 1, .debug index⟩
  | declaration {index s n : Nat} {decl : LocalDecl} : body.locals[index]? = some decl →
      body.isArgument index = false → decl.sourceInfo.scope = s → Depth body.scopes s n →
      Belongs body ⟨n + 1, .declaration index⟩
  | opening {s n : Nat} : s ≠ 0 → Depth body.scopes s n → Belongs body ⟨n, .opening s⟩
  | closing {s n : Nat} : s ≠ 0 → Depth body.scopes s n → Belongs body ⟨n, .closing s⟩

theorem mem_ownLines {body : Body} {s depth : Nat} {line : ScopeLine} :
    line ∈ ownLines body s depth ↔ line.depth = depth ∧
      ((∃ index record, line.entry = .debug index ∧ body.debugRecords[index]? = some record ∧
          record.sourceInfo.scope = s) ∨
        ∃ index decl, line.entry = .declaration index ∧ body.locals[index]? = some decl ∧
          body.isArgument index = false ∧ decl.sourceInfo.scope = s) := by
  obtain ⟨d, entry⟩ := line
  simp only [ownLines, scopeLocals, List.mem_append, List.mem_map, List.mem_filter,
    List.mem_zipIdx_iff_getElem?, Prod.exists, ScopeLine.mk.injEq]
  constructor
  · rintro (⟨record, index, ⟨hrecord, hscope⟩, rfl, rfl⟩ | ⟨decl, index, ⟨hdecl, hkeep⟩, rfl, rfl⟩)
    · exact ⟨rfl, .inl ⟨index, record, rfl, hrecord, by simpa using hscope⟩⟩
    · simp only [Bool.and_eq_true, Bool.not_eq_true', decide_eq_true_eq] at hkeep
      exact ⟨rfl, .inr ⟨index, decl, rfl, hdecl, hkeep⟩⟩
  · rintro ⟨rfl, ⟨index, record, rfl, hrecord, hscope⟩ | ⟨index, decl, rfl, hdecl, hkeep⟩⟩
    · exact .inl ⟨record, index, ⟨hrecord, by simpa using hscope⟩, rfl, rfl⟩
    · refine .inr ⟨decl, index, ⟨hdecl, ?_⟩, rfl, rfl⟩
      simpa using hkeep

theorem belongs_of_mem_ownLines {body : Body} {s n : Nat} (hs : Depth body.scopes s n)
    {line : ScopeLine} (h : line ∈ ownLines body s (n + 1)) : Belongs body line := by
  obtain ⟨d, entry⟩ := line
  obtain ⟨rfl, ⟨index, record, rfl, hrecord, hscope⟩ |
    ⟨index, decl, rfl, hdecl, hno, hscope⟩⟩ := mem_ownLines.1 h
  · exact .debug hrecord hscope hs
  · exact .declaration hdecl hno hscope hs

/-- Blocks of scopes at their depth hold lines that belong there. -/
theorem Blocks.belongs {body : Body} (hroot : parentLink? body.scopes 0 = none) {depth : Nat}
    {scopes : List Nat} {lines : List ScopeLine} (h : Blocks body (depth + 1) scopes lines)
    (hscopes : ∀ s ∈ scopes, Depth body.scopes s (depth + 1)) :
    ∀ line ∈ lines, Belongs body line := by
  generalize hd : depth + 1 = d at h hscopes
  induction h generalizing depth with
  | nil => simp
  | @cons d scope rest inner more hinner _ ih ihmore =>
    subst hd
    have hscope := hscopes scope List.mem_cons_self
    have hne := Depth.ne_zero hroot hscope
    have hinside := ih rfl fun c hc => .link (mem_childScopes.1 hc) hscope
    have hrest := ihmore rfl fun c hc => hscopes c (List.mem_cons_of_mem _ hc)
    simp only [blockLines, List.mem_append, List.mem_cons, List.not_mem_nil, or_false]
    rintro line ((rfl | (hown | hin) | rfl) | hmore)
    · exact .opening hne hscope
    · exact belongs_of_mem_ownLines hscope hown
    · exact hinside line hin
    · exact .closing hne hscope
    · exact hrest line hmore

/-- The block of each scope is there. -/
theorem Blocks.exists_block {body : Body} {depth : Nat} {scopes : List Nat}
    {lines : List ScopeLine} (h : Blocks body depth scopes lines) {s : Nat} (hs : s ∈ scopes) :
    ∃ inner, Blocks body (depth + 1) (childScopes body.scopes s) inner ∧
      blockLines body s depth inner <:+: lines := by
  induction h with
  | nil => cases hs
  | cons hinner _ _ ih =>
    cases hs with
    | head => exact ⟨_, hinner, (List.prefix_append _ _).isInfix⟩
    | tail _ hs =>
      obtain ⟨inner, hblocks, hpiece⟩ := ih hs
      exact ⟨inner, hblocks, hpiece.trans (List.suffix_append _ _).isInfix⟩

/-- What stands inside a scope stands in the lines of the whole tree in one piece, and so does the
scope with its braces. -/
theorem Blocks.exists_contents {body : Body} {blocks : List ScopeLine}
    (h : Blocks body 1 (childScopes body.scopes 0) blocks) {s n : Nat}
    (hs : Depth body.scopes s n) :
    ∃ inner, Blocks body (n + 1) (childScopes body.scopes s) inner ∧
      ownLines body s (n + 1) ++ inner <:+: ownLines body 0 1 ++ blocks ∧
      (s ≠ 0 → blockLines body s n inner <:+: ownLines body 0 1 ++ blocks) := by
  induction hs with
  | root => exact ⟨blocks, h, List.infix_refl _, fun hne => absurd rfl hne⟩
  | @link s p n hlink _ ih =>
    obtain ⟨inside, hinside, hpiece, -⟩ := ih
    obtain ⟨inner, hinner, hblock⟩ := hinside.exists_block (mem_childScopes.2 hlink)
    have hwhole : blockLines body s (n + 1) inner <:+: ownLines body 0 1 ++ blocks :=
      hblock.trans ((List.suffix_append _ _).isInfix.trans hpiece)
    have hcontents : ownLines body s (n + 1 + 1) ++ inner <:+: blockLines body s (n + 1) inner :=
      ⟨[⟨n + 1, .opening s⟩], [⟨n + 1, .closing s⟩], rfl⟩
    exact ⟨inner, hinner, hcontents.trans hwhole, fun _ => hwhole⟩

/-- The lines of the whole tree are those that belong there. -/
theorem Blocks.mem_lines_iff {body : Body} (hroot : parentLink? body.scopes 0 = none)
    {blocks : List ScopeLine} (h : Blocks body 1 (childScopes body.scopes 0) blocks)
    {line : ScopeLine} : line ∈ ownLines body 0 1 ++ blocks ↔ Belongs body line := by
  constructor
  · intro hmem
    rcases List.mem_append.1 hmem with hown | hblock
    · exact belongs_of_mem_ownLines .root hown
    · exact h.belongs hroot (fun c hc => .link (mem_childScopes.1 hc) .root) line hblock
  · intro hline
    cases hline with
    | @debug index s n _ hrecord hscope hs =>
      obtain ⟨inner, -, hpiece, -⟩ := h.exists_contents hs
      have hown : (⟨n + 1, .debug index⟩ : ScopeLine) ∈ ownLines body s (n + 1) :=
        mem_ownLines.2 ⟨rfl, .inl ⟨_, _, rfl, hrecord, hscope⟩⟩
      exact hpiece.subset (List.mem_append_left _ hown)
    | @declaration index s n _ hdecl hno hscope hs =>
      obtain ⟨inner, -, hpiece, -⟩ := h.exists_contents hs
      have hown : (⟨n + 1, .declaration index⟩ : ScopeLine) ∈ ownLines body s (n + 1) :=
        mem_ownLines.2 ⟨rfl, .inr ⟨_, _, rfl, hdecl, hno, hscope⟩⟩
      exact hpiece.subset (List.mem_append_left _ hown)
    | opening hne hs =>
      obtain ⟨inner, -, -, hpiece⟩ := h.exists_contents hs
      exact (hpiece hne).subset List.mem_cons_self
    | closing hne hs =>
      obtain ⟨inner, -, -, hpiece⟩ := h.exists_contents hs
      exact (hpiece hne).subset (List.mem_cons_of_mem _ (List.mem_append_right _ (.head _)))

/-! ## No line twice -/

/-- The scope that an entry is about. -/
def ScopeEntry.scope? (body : Body) : ScopeEntry → Option Int
  | .debug index => body.debugRecords[index]?.map fun record => record.sourceInfo.scope
  | .declaration index => body.locals[index]?.map fun decl => decl.sourceInfo.scope
  | .opening scope | .closing scope => some scope

theorem scope?_of_mem_ownLines {body : Body} {s depth : Nat} {line : ScopeLine}
    (h : line ∈ ownLines body s depth) : line.entry.scope? body = some (s : Int) := by
  obtain ⟨-, ⟨index, record, hentry, hrecord, hscope⟩ | ⟨index, decl, hentry, hdecl, -, hscope⟩⟩ :=
    mem_ownLines.1 h
  · simp [hentry, ScopeEntry.scope?, hrecord, hscope]
  · simp [hentry, ScopeEntry.scope?, hdecl, hscope]

/-- The lines of blocks are about scopes below those of the blocks. -/
theorem Blocks.exists_scope {body : Body} {depth : Nat} {scopes : List Nat}
    {lines : List ScopeLine} (h : Blocks body depth scopes lines) :
    ∀ line ∈ lines, ∃ s ∈ scopes, ∃ x : Nat, line.entry.scope? body = some (x : Int) ∧
      Below body.scopes x s := by
  induction h with
  | nil => simp
  | @cons _ scope rest inner more _ _ ih ihmore =>
    simp only [blockLines, List.mem_append, List.mem_cons, List.not_mem_nil, or_false]
    rintro line ((rfl | (hown | hin) | rfl) | hmore)
    · exact ⟨scope, .inl rfl, scope, rfl, .refl⟩
    · exact ⟨scope, .inl rfl, scope, scope?_of_mem_ownLines hown, .refl⟩
    · obtain ⟨c, hc, x, hx, hbelow⟩ := ih line hin
      exact ⟨scope, .inl rfl, x, hx, hbelow.trans (.link (mem_childScopes.1 hc) .refl)⟩
    · exact ⟨scope, .inl rfl, scope, rfl, .refl⟩
    · obtain ⟨c, hc, x, hx, hbelow⟩ := ihmore line hmore
      exact ⟨c, .inr hc, x, hx, hbelow⟩

theorem nodup_ownLines (body : Body) (s depth : Nat) :
    ((ownLines body s depth).map ScopeLine.entry).Nodup := by
  rw [ownLines, List.map_append, List.map_map, List.map_map]
  refine List.nodup_append.2 ⟨?_, ?_, ?_⟩
  · refine List.pairwise_map.2 (((pairwise_zipIdx _).filter _).imp fun hlt heq => ?_)
    exact Nat.ne_of_lt hlt (ScopeEntry.debug.inj heq)
  · refine List.pairwise_map.2 (((pairwise_zipIdx _).filter _).imp fun hlt heq => ?_)
    exact Nat.ne_of_lt hlt (ScopeEntry.declaration.inj heq)
  · intro a ha b hb heq
    obtain ⟨_, -, rfl⟩ := List.mem_map.1 ha
    obtain ⟨_, -, rfl⟩ := List.mem_map.1 hb
    cases heq

/-- A block holds no entry twice if none inside is about its scope. -/
theorem nodup_blockLines {body : Body} {s depth : Nat} {inner : List ScopeLine}
    (hinner : (inner.map ScopeLine.entry).Nodup)
    (hother : ∀ line ∈ inner, line.entry.scope? body ≠ some (s : Int)) :
    ((blockLines body s depth inner).map ScopeLine.entry).Nodup := by
  have hbrace : ∀ entry ∈ (ownLines body s (depth + 1) ++ inner).map ScopeLine.entry,
      entry ≠ .opening s ∧ entry ≠ .closing s := by
    intro entry hentry
    obtain ⟨line, hline, rfl⟩ := List.mem_map.1 hentry
    rcases List.mem_append.1 hline with hown | hin
    · obtain ⟨-, ⟨_, _, heq, -⟩ | ⟨_, _, heq, -⟩⟩ := mem_ownLines.1 hown <;> simp [heq]
    · have hscope := hother line hin
      constructor <;> rintro heq <;> simp [heq, ScopeEntry.scope?] at hscope
  have hinside : ((ownLines body s (depth + 1) ++ inner).map ScopeLine.entry).Nodup := by
    rw [List.map_append]
    refine List.nodup_append.2 ⟨nodup_ownLines body s _, hinner, ?_⟩
    intro a ha b hb heq
    obtain ⟨own, hown, rfl⟩ := List.mem_map.1 ha
    obtain ⟨line, hline, rfl⟩ := List.mem_map.1 hb
    exact hother line hline (heq ▸ scope?_of_mem_ownLines hown)
  rw [blockLines, List.map_cons, List.map_append, List.nodup_cons]
  constructor
  · rw [List.mem_append]
    rintro (hopening | hclosing)
    · exact (hbrace _ hopening).1 rfl
    · simp at hclosing
  · refine List.nodup_append.2 ⟨hinside, List.pairwise_singleton _ _, ?_⟩
    intro a ha b hb heq
    obtain rfl := List.mem_singleton.1 hb
    exact (hbrace a ha).2 heq

/-- No line inside a scope is about the scope itself. -/
theorem Blocks.scope?_ne {body : Body} (hroot : parentLink? body.scopes 0 = none) {s n depth : Nat}
    {inner : List ScopeLine} (h : Blocks body depth (childScopes body.scopes s) inner)
    (hs : Depth body.scopes s n) :
    ∀ line ∈ inner, line.entry.scope? body ≠ some (s : Int) := by
  intro line hline heq
  obtain ⟨c, hc, x, hx, hbelow⟩ := h.exists_scope line hline
  rw [hx] at heq
  obtain rfl := Int.ofNat.inj (Option.some.inj heq)
  obtain ⟨e, he, hle, -⟩ := hbelow.depth (.link (mem_childScopes.1 hc) hs)
  have := Depth.unique hroot he hs
  omega

/-- Blocks of different scopes at one depth hold no entry twice. -/
theorem Blocks.nodup {body : Body} (hroot : parentLink? body.scopes 0 = none) {depth : Nat}
    {scopes : List Nat} {lines : List ScopeLine} (h : Blocks body depth scopes lines)
    (hscopes : ∀ s ∈ scopes, Depth body.scopes s depth) (hnodup : scopes.Nodup) :
    (lines.map ScopeLine.entry).Nodup := by
  induction h with
  | nil => exact List.nodup_nil
  | @cons depth scope rest inner more hinner hmore ih ihmore =>
    have hscope := hscopes scope List.mem_cons_self
    obtain ⟨hfirst, hlater⟩ := List.nodup_cons.1 hnodup
    have hinside := ih (fun c hc => .link (mem_childScopes.1 hc) hscope)
      ((pairwise_childScopes body.scopes scope).imp Nat.ne_of_lt)
    have hrest := ihmore (fun c hc => hscopes c (List.mem_cons_of_mem _ hc)) hlater
    rw [List.map_append]
    refine List.nodup_append.2
      ⟨nodup_blockLines hinside (hinner.scope?_ne hroot hscope), hrest, ?_⟩
    intro a ha b hb heq
    obtain ⟨line, hline, rfl⟩ := List.mem_map.1 ha
    obtain ⟨line', hline', rfl⟩ := List.mem_map.1 hb
    have hblock : Blocks body depth [scope] (blockLines body scope depth inner ++ []) :=
      .cons hinner .nil
    obtain ⟨t, ht, x, hx, hbelow⟩ := hblock.exists_scope line (List.mem_append_left _ hline)
    obtain ⟨u, hu, y, hy, hbelow'⟩ := hmore.exists_scope line' hline'
    obtain rfl := List.mem_singleton.1 ht
    rw [heq, hy] at hx
    obtain rfl := Int.ofNat.inj (Option.some.inj hx)
    obtain rfl := hbelow.unique hroot hbelow' hscope (hscopes u (List.mem_cons_of_mem _ hu))
    exact hfirst hu

/-- The lines of the whole tree hold no entry twice. -/
theorem Blocks.nodup_lines {body : Body} (hroot : parentLink? body.scopes 0 = none)
    {blocks : List ScopeLine} (h : Blocks body 1 (childScopes body.scopes 0) blocks) :
    ((ownLines body 0 1 ++ blocks).map ScopeLine.entry).Nodup := by
  have hblocks := h.nodup hroot (fun c hc => .link (mem_childScopes.1 hc) .root)
    ((pairwise_childScopes body.scopes 0).imp Nat.ne_of_lt)
  -- what is listed is the inside of a block of scope 0, whose braces are not written
  have hwhole := @nodup_blockLines body 0 0 blocks hblocks (h.scope?_ne hroot .root)
  refine hwhole.sublist (List.Sublist.map _ ?_)
  exact ((List.sublist_append_left _ _).cons _)

end MirListing
