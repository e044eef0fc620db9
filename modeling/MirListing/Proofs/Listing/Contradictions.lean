import MirListing.Listing.Body
import MirListing.Proofs.Listing.Reachable
import MirListing.Proofs.Memory.Overrun
import MirListing.Proofs.Scopes.Lines
import MirListing.Proofs.Source.Rules

/-!
# Bodies that contradict themselves

A body whose statements and terminators can be written is listed, unless its parts contradict each
other.  `Contradiction` has a rule for each way in which they can: the item's kind and the arguments
in the signature, the parents of the scopes, and statics and pointers in the appendix.

Whatever makes a listing fail is `Explained`: it is a body fault and there is a contradiction, or a
value has not the type it is declared with, and the listing fails where it is written.  A listing
that succeeds has no contradiction (`not_contradiction`), so for values of the right types the two
come to the same (`listing_fails_iff_contradiction`).
-/

namespace MirListing

/-- The parts of a body, or of what it refers to, contradict each other. -/
inductive Contradiction (ctx : Context) (source : BodySource) (body : Body) : Prop
  /-- The item is of a kind that has no body. -/
  | kind {kind : ItemKind} : source.promoted = none →
      ctx.items.kind? source.item = some kind →
      kind ∈ [ItemKind.struct, .enum, .trait, .mod] → Contradiction ctx source body
  /-- What is no function has arguments. -/
  | arguments : (source.promoted ≠ none ∨
        ∀ kind, ctx.items.kind? source.item = some kind → kind.isFunctionLike = false) →
      body.argCount ≠ 0 → Contradiction ctx source body
  /-- Scope 0 has a parent or another scope has none. -/
  | scopes : ¬OnlyRoot body.scopes → Contradiction ctx source body
  /-- The value of a static is no memory. -/
  | static {id : AllocId} {item : ItemId} {value : ConstValue} :
      Reachable ctx.items ctx.directory body id → ctx.directory.get? id = some (.static item) →
      ctx.items.isForeign item = false → ctx.items.evaluate item = .ok value →
      (∀ a offset, value ≠ .byRef a offset) → Contradiction ctx source body
  /-- A pointer in listed memory runs past the end. -/
  | pointer {id : AllocId} {a : Allocation} : Reachable ctx.items ctx.directory body id →
      Lists ctx.items ctx.directory id a → HexDump.Overruns ctx.layout a →
      Contradiction ctx source body

/-- A label is a text. -/
def Value.IsText (label : Label) : Prop := ∃ s, label = .spelled s

/-- What is written or looked up besides statements and terminators has the type it is declared
with. -/
structure WellTyped (ctx : Context) (body : Body) : Prop where
  pointerSize : ctx.layout.sizeIsInteger = true
  beginnings : ctx.sourceMap.isUsable = true
  replacements : ∀ rule ∈ ctx.sourceMap.rules.entries, rule.2.IsText
  statics : ∀ id item, ctx.directory.get? id = some (.static item) → item.key?.isSome = true
  locals : ∀ decl ∈ body.locals, decl.ty.name.IsText
  fields : ∀ record ∈ body.debugRecords, ∀ number ty,
    Projection.field number ty ∈ record.place.projection → ty.name.IsText
  yielded : ∀ ty, body.yieldType? = some ty → ty.name.IsText

/-- All statements and terminators, and the comments below them, can be written. -/
def NodesWritten (ctx : Context) (body : Body) : Prop :=
  ∀ block ∈ body.blocks, ∀ node ∈ block.nodes ctx.sourceMap,
    (∃ text, node.text = .ok text) ∧ ∀ comment ∈ node.comments, ∃ text, comment = .ok text

/-- Why the listing of a body may fail. -/
def Explained (ctx : Context) (source : BodySource) (body : Body) (failure : Failure) : Prop :=
  (∃ fault, failure = .body fault ∧ Contradiction ctx source body) ∨
    failure = .wrongShape ∧ ¬WellTyped ctx body

section

variable {ctx : Context} {source : BodySource} {body : Body}

/-! ## Values of the wrong type -/

theorem failsOnly_typeText {ty : Ty} (h : WellTyped ctx body → ty.name.IsText) :
    FailsOnly (Explained ctx source body) ty.text := by
  intro failure hfailure
  unfold Ty.text at hfailure
  split at hfailure
  · cases hfailure
  · rename_i hname
    obtain rfl := Except.error.inj hfailure
    refine .inr ⟨rfl, fun htyped => ?_⟩
    obtain ⟨s, hs⟩ := h htyped
    exact hname s hs

theorem failsOnly_fileName (span : Span) :
    FailsOnly (Explained ctx source body) (ctx.sourceMap.fileName span) := by
  unfold SourceMap.fileName
  split
  · rename_i hunusable
    refine failsOnly_error (.inr ⟨rfl, fun htyped => ?_⟩)
    rw [htyped.beginnings] at hunusable
    cases hunusable
  · split
    · exact failsOnly_ok _
    · exact failsOnly_ok _
    · rename_i rule hnotText hrule
      refine failsOnly_error (.inr ⟨rfl, fun htyped => ?_⟩)
      obtain ⟨s, hs⟩ := htyped.replacements rule (SourceMap.mem_of_longestRule? hrule)
      exact hnotText rule.1 s (Prod.ext rfl hs)

theorem failsOnly_spanText (span : Span) :
    FailsOnly (Explained ctx source body) (ctx.sourceMap.spanText span) := by
  unfold SourceMap.spanText
  split
  · exact failsOnly_ok _
  · exact (failsOnly_fileName span).bind fun _ => failsOnly_ok _

theorem failsOnly_comment (info : SourceInfo) :
    FailsOnly (Explained ctx source body) (ctx.sourceMap.comment info) :=
  (failsOnly_spanText info.span).bind fun _ => failsOnly_ok _

theorem failsOnly_wrapAll {steps : List Projection}
    (h : ∀ number ty, .field number ty ∈ steps → WellTyped ctx body → ty.name.IsText)
    (inner : String) : FailsOnly (Explained ctx source body) (Place.wrapAll inner steps) := by
  induction steps generalizing inner with
  | nil => exact failsOnly_ok _
  | cons step rest ih =>
    have hstep : FailsOnly (Explained ctx source body) (step.wrap inner) := by
      cases step with
      | field number ty =>
        exact (failsOnly_typeText (h number ty List.mem_cons_self)).bind fun _ => failsOnly_ok _
      | downcast _ name => cases name <;> exact failsOnly_ok _
      | _ => exact failsOnly_ok _
    exact hstep.bind fun text =>
      ih (fun number ty hmem => h number ty (List.mem_cons_of_mem _ hmem)) text

/-! ## The types that have been written down, and the signature -/

theorem failsOnly_userTypesListing :
    Listing.FailsOnly (Explained ctx source body)
      (userTypesListing ctx.sourceMap body.userTypes) := by
  unfold userTypesListing
  split
  · exact Listing.failsOnly_empty
  · refine (Listing.failsOnly_text _).append ((Listing.failsOnly_concat ?_).append
      ((Listing.failsOnly_text _).append Listing.failsOnly_empty))
    intro l hl
    obtain ⟨index, hindex, rfl⟩ := List.mem_mapIdx.1 hl
    exact Listing.failsOnly_ofOutcome ((failsOnly_spanText _).bind fun _ => failsOnly_ok _)

theorem failsOnly_signatureWords :
    FailsOnly (Explained ctx source body) (signatureWords ctx.items source) := by
  unfold signatureWords BodySource.promotedText?
  cases hpromoted : source.promoted with
  | some number => exact failsOnly_ok _
  | none =>
    cases hkind : ctx.items.kind? source.item with
    | none => exact failsOnly_ok _
    | some kind =>
      have hbad : kind ∈ [ItemKind.struct, .enum, .trait, .mod] →
          FailsOnly (Explained ctx source body)
            (.error (.body (.unexpectedKind kind.name source.item.pathText)) : Outcome String) :=
        fun hmem => failsOnly_error (.inl ⟨_, rfl, .kind hpromoted hkind hmem⟩)
      cases kind with
      | struct | enum | trait | mod => exact hbad (by decide)
      | _ => exact failsOnly_ok _

theorem failsOnly_returnType : FailsOnly (Explained ctx source body) body.returnType.text := by
  refine failsOnly_typeText fun htyped => ?_
  unfold Body.returnType
  cases hlocals : body.locals with
  | nil => exact ⟨_, rfl⟩
  | cons result rest => exact htyped.locals result (hlocals ▸ List.mem_cons_self)

theorem failsOnly_functionText : FailsOnly (Explained ctx source body) (functionText body) := by
  have harguments : FailsOnly (Explained ctx source body) (argumentsText body) := by
    refine (FailsOnly.mapM fun argument hmem => ?_).bind fun _ => failsOnly_ok _
    have hlocal : argument.1 ∈ body.locals :=
      List.mem_of_mem_drop (List.mem_of_mem_take (List.fst_mem_of_mem_zipIdx hmem))
    exact (failsOnly_typeText fun htyped => htyped.locals _ hlocal).bind fun _ => failsOnly_ok _
  exact harguments.bind fun _ => failsOnly_returnType.bind fun _ => failsOnly_ok _

theorem isFunction_eq_false_iff {kind? : Option ItemKind} :
    source.isFunction kind? = false ↔
      (source.promoted ≠ none ∨ ∀ kind, kind? = some kind → kind.isFunctionLike = false) := by
  unfold BodySource.isFunction
  cases source.promoted <;> cases kind? <;> simp

theorem failsOnly_valueText (h : source.isFunction (ctx.items.kind? source.item) = false) :
    FailsOnly (Explained ctx source body) (valueText source.item.pathText body) := by
  unfold valueText
  split
  · exact failsOnly_returnType.bind fun _ => failsOnly_ok _
  · rename_i hcount
    exact failsOnly_error (.inl ⟨_, rfl, .arguments (isFunction_eq_false_iff.1 h) hcount⟩)

theorem failsOnly_signature :
    Listing.FailsOnly (Explained ctx source body) (signature ctx.items source body) := by
  have htypes : FailsOnly (Explained ctx source body)
      (if source.isFunction (ctx.items.kind? source.item) then functionText body
        else valueText source.item.pathText body) := by
    split
    · exact failsOnly_functionText
    · rename_i hfunction
      exact failsOnly_valueText (Bool.not_eq_true _ ▸ hfunction)
  have hyields : Listing.FailsOnly (Explained ctx source body) (yieldListing body.yieldType?) := by
    cases hyield : body.yieldType? with
    | none => exact Listing.failsOnly_empty
    | some ty =>
      refine (Listing.failsOnly_text _).append (Listing.failsOnly_ofOutcome ?_)
      exact (failsOnly_typeText fun htyped => htyped.yielded ty hyield).bind fun _ => failsOnly_ok _
  refine Listing.failsOnly_concat ?_
  simp only [List.mem_cons, List.not_mem_nil, or_false]
  rintro l (rfl | rfl | rfl | rfl | rfl)
  · exact Listing.failsOnly_ofOutcome failsOnly_signatureWords
  · exact Listing.failsOnly_text _
  · exact Listing.failsOnly_ofOutcome htypes
  · exact hyields
  · exact Listing.failsOnly_text _

/-! ## Scopes -/

theorem failsOnly_debugLine {record : DebugRecord} (h : record ∈ body.debugRecords) (depth : Int) :
    FailsOnly (Explained ctx source body) (debugLine ctx.sourceMap depth record) :=
  (failsOnly_wrapAll (fun number ty hmem htyped => htyped.fields record h number ty hmem) _).bind
    fun _ => (failsOnly_comment _).bind fun _ => failsOnly_ok _

theorem failsOnly_localLine {decl : LocalDecl} (h : decl ∈ body.locals) (depth : Int)
    (index : Nat) :
    FailsOnly (Explained ctx source body) (localLine ctx.sourceMap depth index decl) :=
  (failsOnly_typeText fun htyped => htyped.locals decl h).bind
    fun _ => (failsOnly_comment _).bind fun _ => failsOnly_ok _

theorem failsOnly_scopeLine (line : ScopeLine) :
    Listing.FailsOnly (Explained ctx source body) (line.listing ctx.sourceMap body) := by
  obtain ⟨depth, entry⟩ := line
  cases entry with
  | debug index =>
    simp only [ScopeLine.listing]
    cases hrecord : body.debugRecords[index]? with
    | none => exact Listing.failsOnly_empty
    | some record =>
      exact Listing.failsOnly_ofOutcome (failsOnly_debugLine (List.mem_of_getElem? hrecord) _)
  | declaration index =>
    simp only [ScopeLine.listing]
    cases hdecl : body.locals[index]? with
    | none => exact Listing.failsOnly_empty
    | some decl =>
      exact Listing.failsOnly_ofOutcome (failsOnly_localLine (List.mem_of_getElem? hdecl) _ _)
  | opening _ | closing _ => exact Listing.failsOnly_text _

/-- Once scopes are accepted, no more than a line of theirs can fail: the walk over their tree never
meets a scope that it would enter again, or that states another parent. -/
theorem failsOnly_scopesListing :
    Listing.FailsOnly (Explained ctx source body) (scopesListing ctx.sourceMap body) := by
  cases hscopes : ScopeTree.ofScopes body.scopes with
  | error fault =>
    rw [scopesListing, hscopes]
    refine Listing.failsOnly_fail (.inl ⟨fault, rfl, .scopes fun hroot => ?_⟩)
    obtain ⟨tree, htree⟩ := (ScopeTree.ofScopes_eq_ok_iff _).2 hroot
    rw [hscopes] at htree
    cases htree
  | ok tree =>
    obtain ⟨blocks, -, hlisting⟩ := exists_lines ctx.sourceMap hscopes
    rw [hlisting]
    refine Listing.failsOnly_concat fun l hl => ?_
    obtain ⟨line, -, rfl⟩ := List.mem_map.1 hl
    exact failsOnly_scopeLine line

/-! ## Blocks -/

theorem failsOnly_nodeListing {P : Failure → Prop} {m : SourceMap} {node : Node}
    (hcomment : FailsOnly P (m.comment node.sourceInfo)) (htext : FailsOnly P node.text)
    (hcomments : ∀ comment ∈ node.comments, FailsOnly P comment) (location : Location) :
    Listing.FailsOnly P (nodeListing m location node) := by
  have hline : FailsOnly P (node.line m location) :=
    htext.bind fun _ => hcomment.bind fun _ => failsOnly_ok _
  refine Listing.failsOnly_concat ?_
  simp only [List.mem_cons, List.not_mem_nil, or_false]
  rintro l (rfl | rfl | rfl | rfl)
  · exact Listing.failsOnly_point _
  · exact Listing.failsOnly_ofOutcome hline
  · refine Listing.failsOnly_concat fun l hl => ?_
    obtain ⟨comment, hmem, rfl⟩ := List.mem_map.1 hl
    refine Listing.failsOnly_ofOutcome fun failure hfailure => ?_
    cases comment with
    | ok text => cases hfailure
    | error first => exact hcomments _ hmem failure hfailure
  · exact Listing.failsOnly_point _

/-- Blocks fail only where one of their statements and terminators does. -/
theorem failsOnly_blocksFrom {P : Failure → Prop} {m : SourceMap} {blocks : List BasicBlock}
    (h : ∀ block ∈ blocks, ∀ node ∈ block.nodes m, FailsOnly P (m.comment node.sourceInfo) ∧
      FailsOnly P node.text ∧ ∀ comment ∈ node.comments, FailsOnly P comment) (number : Nat) :
    Listing.FailsOnly P (blocksFrom m number blocks) := by
  have hblock : ∀ block ∈ blocks, ∀ number, Listing.FailsOnly P
      (.point (.beforeBlock number) ++ blockListing m number block) := by
    intro block hmem number
    refine (Listing.failsOnly_point _).append (Listing.failsOnly_concat ?_)
    simp only [List.mem_cons, List.not_mem_nil, or_false]
    rintro l (rfl | rfl | rfl | rfl)
    · exact Listing.failsOnly_text _
    · refine Listing.failsOnly_concat fun l hl => ?_
      obtain ⟨index, hindex, rfl⟩ := List.mem_mapIdx.1 hl
      obtain ⟨hcomment, htext, hcomments⟩ := h block hmem _ (List.getElem_mem hindex)
      exact failsOnly_nodeListing hcomment htext hcomments _
    · exact Listing.failsOnly_point _
    · exact Listing.failsOnly_text _
  induction blocks generalizing number with
  | nil => exact Listing.failsOnly_empty
  | cons block rest ih =>
    have hfirst := hblock block List.mem_cons_self number
    have hrest := ih (fun b hb => h b (List.mem_cons_of_mem _ hb)) (number + 1)
      fun b hb => hblock b (List.mem_cons_of_mem _ hb)
    cases rest with
    | nil => exact hfirst
    | cons next rest => exact (hfirst.append (Listing.failsOnly_text _)).append hrest

/-! ## The appendix -/

/-- A dump in the appendix fails at a pointer that is a contradiction. -/
theorem failsOnly_listedBlock {id : AllocId} {a : Allocation}
    (hid : Reachable ctx.items ctx.directory body id)
    (hlists : Lists ctx.items ctx.directory id a) :
    Listing.FailsOnly (Explained ctx source body) (HexDump.block ctx.layout a) := by
  refine (HexDump.failsOnly_block ctx.layout a).mono ?_
  rintro failure (⟨i, rfl, hpast⟩ | ⟨rfl, hsize⟩)
  · exact .inl ⟨_, rfl, .pointer hid hlists hpast⟩
  · refine .inr ⟨rfl, fun htyped => ?_⟩
    rw [htyped.pointerSize] at hsize
    cases hsize

theorem failsOnly_staticListing {id : AllocId} {item : ItemId}
    (hid : Reachable ctx.items ctx.directory body id)
    (hentry : ctx.directory.get? id = some (.static item)) :
    Listing.FailsOnly (Explained ctx source body) (staticListing ctx.items ctx.layout item) := by
  unfold staticListing
  split
  · rename_i hkey
    refine Listing.failsOnly_fail (.inr ⟨rfl, fun htyped => ?_⟩)
    have hsome := htyped.statics id item hentry
    rw [Option.isNone_iff_eq_none.1 hkey] at hsome
    cases hsome
  · split
    · exact Listing.failsOnly_text _
    · rename_i hforeign
      have hhere : ctx.items.isForeign item = false := Bool.eq_false_iff.2 hforeign
      split
      · exact Listing.failsOnly_text _
      · rename_i a offset hvalue
        exact (Listing.failsOnly_text _).append
          (failsOnly_listedBlock hid (.static hentry hhere hvalue))
      · rename_i value hother hvalue
        exact Listing.failsOnly_fail (.inl ⟨_, rfl, .static hid hentry hhere hvalue
          hother⟩)

theorem failsOnly_appendix :
    Listing.FailsOnly (Explained ctx source body) (appendix ctx body) := by
  refine Listing.failsOnly_concat fun l hl => ?_
  obtain ⟨id, hmem, rfl⟩ := List.mem_map.1 hl
  have hid := ((nodup_and_mem_appendixOrder ctx.items ctx.directory body).2 id).1 hmem
  refine ((Listing.failsOnly_text _).append ?_).append (Listing.failsOnly_text _)
  cases hentry : ctx.directory.get? id with
  | none => exact Listing.failsOnly_text _
  | some entry =>
    cases entry with
    | function _ => exact Listing.failsOnly_text _
    | static item => exact failsOnly_staticListing hid hentry
    | memory a =>
      exact (Listing.failsOnly_text _).append (failsOnly_listedBlock hid (.memory hentry))

/-- A handle without an entry is listed as such. -/
theorem render_appendixEntry_none {id : AllocId} (hid : ctx.directory.get? id = none) :
    (appendixEntry ctx id).render = .ok ("\n" ++ id.text ++ " (deallocated)" ++ "\n") := by
  rw [appendixEntry, hid]
  have hhead : (Listing.text ("\n" ++ id.text) ++ Listing.text " (deallocated)").render = .ok _ :=
    Listing.render_append_eq_ok.2 ⟨_, _, Listing.render_text _, Listing.render_text _, rfl⟩
  exact Listing.render_append_eq_ok.2 ⟨_, _, hhead, Listing.render_text _, rfl⟩

/-! ## The whole listing -/

theorem failsOnly_bodyListing (h : NodesWritten ctx body) :
    Listing.FailsOnly (Explained ctx source body) (bodyListing ctx source body) := by
  have hfunction : Listing.FailsOnly (Explained ctx source body)
      (functionListing ctx source body) := by
    refine Listing.failsOnly_concat ?_
    simp only [List.mem_cons, List.not_mem_nil, or_false]
    rintro l (rfl | rfl | rfl | rfl | rfl | rfl | rfl)
    · exact failsOnly_signature
    · exact Listing.failsOnly_text _
    · exact failsOnly_scopesListing
    · exact Listing.failsOnly_text _
    · refine failsOnly_blocksFrom (fun block hblock node hnode => ?_) 0
      obtain ⟨htext, hcomments⟩ := h block hblock node hnode
      exact ⟨failsOnly_comment _, failsOnly_of_ok htext,
        fun comment hcomment => failsOnly_of_ok (hcomments comment hcomment)⟩
    · exact Listing.failsOnly_text _
    · exact failsOnly_appendix
  refine Listing.failsOnly_concat ?_
  simp only [List.mem_cons, List.not_mem_nil, or_false]
  rintro l (rfl | rfl | rfl | rfl)
  · exact Listing.failsOnly_point _
  · exact failsOnly_userTypesListing
  · exact hfunction
  · exact Listing.failsOnly_point _

/-! ## What succeeds -/

theorem signature_fails_of_kind {kind : ItemKind} (hmain : source.promoted = none)
    (hkind : ctx.items.kind? source.item = some kind)
    (hmem : kind ∈ [ItemKind.struct, .enum, .trait, .mod]) :
    (signature ctx.items source body).failure? ≠ none := by
  intro h
  have hwords := Listing.failure?_concat.1 h _ List.mem_cons_self
  rw [signatureWords, BodySource.promotedText?, hmain, hkind] at hwords
  cases kind with
  | struct | enum | trait | mod => cases hwords
  | _ => exact absurd hmem (by decide)

theorem signature_fails_of_arguments
    (hfunction : source.isFunction (ctx.items.kind? source.item) = false)
    (hcount : body.argCount ≠ 0) : (signature ctx.items source body).failure? ≠ none := by
  intro h
  have htypes := Listing.failure?_concat.1 h _
    (List.mem_cons_of_mem _ (List.mem_cons_of_mem _ List.mem_cons_self))
  rw [hfunction, if_neg Bool.false_ne_true, valueText, if_neg hcount] at htypes
  cases htypes

theorem scopesListing_fails (hroot : ¬OnlyRoot body.scopes) :
    (scopesListing ctx.sourceMap body).failure? ≠ none := by
  intro h
  cases hscopes : ScopeTree.ofScopes body.scopes with
  | ok tree => exact hroot (ScopeTree.onlyRoot_of_ofScopes hscopes)
  | error fault =>
    rw [scopesListing, hscopes] at h
    cases h

theorem entryListing_of_appendix (h : (appendix ctx body).failure? = none) {id : AllocId}
    (hid : Reachable ctx.items ctx.directory body id) :
    (entryListing ctx.items ctx.layout (ctx.directory.get? id)).failure? = none := by
  have hmem := ((nodup_and_mem_appendixOrder ctx.items ctx.directory body).2 id).2 hid
  have hentry := Listing.failure?_concat.1 h _ (List.mem_map_of_mem hmem)
  exact (Listing.failure?_append.1 (Listing.failure?_append.1 hentry).1).2

theorem staticListing_fails {item : ItemId} {value : ConstValue}
    (hhere : ctx.items.isForeign item = false) (hvalue : ctx.items.evaluate item = .ok value)
    (hother : ∀ a offset, value ≠ .byRef a offset) :
    (staticListing ctx.items ctx.layout item).failure? ≠ none := by
  intro h
  rw [staticListing, hhere, hvalue] at h
  split at h
  · cases h
  · cases value with
    | byRef a offset => exact hother a offset rfl
    | _ => cases h

/-- What is listed does not contradict itself. -/
theorem not_contradiction (h : (bodyListing ctx source body).failure? = none) :
    ¬Contradiction ctx source body := by
  have hfunction : (functionListing ctx source body).failure? = none :=
    Listing.failure?_concat.1 h _ (.tail _ (.tail _ (.head _)))
  have hpart := Listing.failure?_concat.1 hfunction
  have hsignature : (signature ctx.items source body).failure? = none := hpart _ (.head _)
  have hscopes : (scopesListing ctx.sourceMap body).failure? = none :=
    hpart _ (.tail _ (.tail _ (.head _)))
  have happendix : (appendix ctx body).failure? = none :=
    hpart _ (.tail _ (.tail _ (.tail _ (.tail _ (.tail _ (.tail _ (.head _)))))))
  intro hcontradiction
  cases hcontradiction with
  | kind hmain hkind hmem => exact signature_fails_of_kind hmain hkind hmem hsignature
  | arguments hfunction hcount =>
    exact signature_fails_of_arguments (isFunction_eq_false_iff.2 hfunction) hcount hsignature
  | scopes hroot => exact scopesListing_fails hroot hscopes
  | static hid hentry hhere hvalue hother =>
    have hlisted := entryListing_of_appendix happendix hid
    rw [hentry] at hlisted
    exact staticListing_fails hhere hvalue hother hlisted
  | @pointer id a hid hlists hpast =>
    have hlisted := entryListing_of_appendix happendix hid
    -- the entry is listed, so the dump at its end is
    obtain ⟨-, dump, hdump, -⟩ := hlists.exists_block (Listing.render_eq_ok.2 ⟨hlisted, rfl⟩)
    exact HexDump.not_overruns_of_block (Listing.render_eq_ok.1 hdump).1 hpast

end

/-! ## Whether a body is listed -/

/-- A body whose nodes can be written, plainly or with its points marked, is listed just if nothing
in it contradicts anything else, and otherwise fails for a fault of the body.  This is so for values
of the right types; for others it may fail for that reason as well, and for no further one.

In particular no fault in the evaluation of a static makes a listing fail, and no handle without an
entry does. -/
theorem listing_fails_iff_contradiction (ctx : Context) (source : BodySource) (body : Body)
    (mark : Point → String) (hnodes : NodesWritten ctx body) :
    (WellTyped ctx body →
      ((∃ text, (bodyListing ctx source body).renderWith mark = .ok text) ↔
        ¬Contradiction ctx source body) ∧
      ((∃ fault, (bodyListing ctx source body).renderWith mark = .error (.body fault)) ↔
        Contradiction ctx source body)) ∧
    (∀ text, (bodyListing ctx source body).renderWith mark = .ok text →
      ¬Contradiction ctx source body) ∧
    (∀ failure, (bodyListing ctx source body).renderWith mark = .error failure →
      Explained ctx source body failure) ∧
    (∀ fault, (bodyListing ctx source body).renderWith mark ≠ .error (.evaluation fault)) ∧
    ∀ id, ctx.directory.get? id = none →
      (appendixEntry ctx id).render = .ok ("\n" ++ id.text ++ " (deallocated)" ++ "\n") := by
  have hexplained : ∀ failure, (bodyListing ctx source body).renderWith mark = .error failure →
      Explained ctx source body failure := fun failure hfailure =>
    failsOnly_bodyListing hnodes failure (Listing.renderWith_eq_error.1 hfailure)
  have hlisted : ∀ text, (bodyListing ctx source body).renderWith mark = .ok text →
      ¬Contradiction ctx source body := fun text htext =>
    not_contradiction (Listing.renderWith_eq_ok.1 ⟨text, htext⟩)
  refine ⟨fun htyped => ?_, hlisted, hexplained, fun fault hfault => ?_,
    fun id hid => render_appendixEntry_none hid⟩
  · cases hrender : (bodyListing ctx source body).renderWith mark with
    | ok text =>
      have hnone := hlisted text hrender
      simp [hnone]
    | error failure =>
      obtain ⟨fault, rfl, hcontradiction⟩ | ⟨-, hill⟩ := hexplained failure hrender
      · simp [hcontradiction]
      · exact absurd htyped hill
  · obtain ⟨_, heq, -⟩ | ⟨heq, -⟩ := hexplained _ hfault <;> cases heq

/-- Memory with a pointer that hides another and with one that runs past the end. -/
def overrunMemory : Allocation where
  cells := [{ byte := 0, target? := some ⟨0⟩ }, { byte := 0, target? := some ⟨9⟩ },
    { byte := 0, target? := some ⟨0⟩ }]

/-- What is known besides the memory is nothing. -/
def overrunContext : Context where
  directory := Directory.set {} ⟨0⟩ (.memory overrunMemory)
  layout := { pointerSize := .two }

/-- A body that mentions the memory and returns. -/
def overrunBody : Body where
  blocks := [⟨[], ⟨{}, .return⟩, false⟩]
  locals := [{ ty := .mk (.string "T") [.mk (.named "&T") (.pointer ⟨0⟩ 0)] }]

theorem wellTyped_overrunBody : WellTyped overrunContext overrunBody where
  pointerSize := rfl
  beginnings := rfl
  replacements := fun _ hmem => by cases hmem
  statics := by
    intro id item hentry
    rw [overrunContext, Directory.get?_set] at hentry
    split at hentry <;> cases hentry
  locals := by
    intro decl hmem
    obtain rfl := List.mem_singleton.1 hmem
    exact ⟨_, rfl⟩
  fields := fun _ hmem => by cases hmem
  yielded := fun _ hyield => by cases hyield

theorem listing_fails_iff_contradiction_overrunBody :
    NodesWritten overrunContext overrunBody ∧ WellTyped overrunContext overrunBody ∧
      ∃ fault,
        (bodyListing overrunContext { item := ⟨.string "crate", [⟨"f", 0⟩], .bool true⟩ }
          overrunBody).renderWith Point.line = .error (.body fault) := by
  have hnodes : NodesWritten overrunContext overrunBody := by
    intro block hblock node hnode
    obtain rfl := List.mem_singleton.1 hblock
    obtain rfl := List.mem_singleton.1 hnode
    exact ⟨⟨_, rfl⟩, fun _ hmem => by cases hmem⟩
  have hid : Reachable overrunContext.items overrunContext.directory overrunBody ⟨0⟩ :=
    .mentioned (by decide +kernel)
  have hsecond : HexDump.Meets overrunContext.layout overrunMemory 2 :=
    .pointer (t := ⟨0⟩) .start (by decide)
  have hpast : HexDump.Overruns overrunContext.layout overrunMemory :=
    ⟨2, ⟨0⟩, ⟨hsecond, by decide⟩, by decide⟩
  refine ⟨hnodes, wellTyped_overrunBody, ?_⟩
  exact ((listing_fails_iff_contradiction _ _ _ Point.line hnodes).1 wellTyped_overrunBody).2.2
    (.pointer hid (.memory rfl) hpast)

end MirListing
