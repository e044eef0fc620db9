import Mathlib.Data.List.Forall2
import MirListing.Listing.Body
import MirListing.Proofs.Listing.Failing
import MirListing.Proofs.Scopes.Lines

/-!
# The intro of a body

What stands before the first block of a body is its intro: the signature, an opening brace and the
lines of the scopes.  A local is declared in one of the two.  The signature of a function lists the
locals that are arguments (`arguments_eq_filter`, `signature_text`), the scopes list the others.

The lines of the scopes are known by their depths and what they are about.  `ScopeLine.Shows` says
which text such a line has, character by character, and the intro renders to just these texts
(`introListing_text`).
-/

namespace MirListing

/-- The listing of a body up to its first block. -/
def introListing (ctx : Context) (source : BodySource) (body : Body) : Listing :=
  .concat [
    signature ctx.items source body,
    .text "\x7b\n",
    scopesListing ctx.sourceMap body,
    .text "\n"]

theorem functionListing_eq (ctx : Context) (source : BodySource) (body : Body) :
    functionListing ctx source body = introListing ctx source body ++
      .concat [blocksFrom ctx.sourceMap 0 body.blocks, .text "\x7d\n", appendix ctx body] := by
  simp only [functionListing, introListing, Listing.concat_cons, Listing.concat_nil,
    Listing.append_empty, Listing.append_assoc]

/-! ## Texts of lines -/

/-- A number of blanks. -/
def blanks (n : Nat) : String := String.ofList (List.replicate n ' ')

theorem indentation_natCast (depth : Nat) : indentation depth = blanks (4 * depth) := rfl

theorem commentedLine_eq (code words source : String) :
    commentedLine code words source =
      code ++ blanks (40 - code.length) ++ (" //" ++ words ++ " in ") ++ source ++ "\n" := by
  simp only [commentedLine, Text.padRight, blanks, commentColumn, String.append_assoc]

/-- The text of a line: four blanks for each indentation, and behind them what the entry is about.
Debug records and locals are filled up with blanks to 40 columns, and a comment follows that says
where they come from. -/
inductive ScopeLine.Shows (m : SourceMap) (body : Body) : ScopeLine → String → Prop
  | debug {depth index : Nat} {record : DebugRecord} {place source code : String} :
      body.debugRecords[index]? = some record → record.place.describe = .ok place →
      m.comment record.sourceInfo = .ok source →
      code = blanks (4 * depth) ++ "debug " ++ record.name.shown ++ " => " ++ place ++ ";" →
      Shows m body ⟨depth, .debug index⟩
        (code ++ blanks (40 - code.length) ++ " // in " ++ source ++ "\n")
  | declaration {depth index : Nat} {decl : LocalDecl} {type source code : String} :
      body.locals[index]? = some decl → decl.ty.text = .ok type →
      m.comment decl.sourceInfo = .ok source →
      code = blanks (4 * depth) ++ "let " ++ (if decl.isMutable then "mut " else "") ++ "_" ++
        index.repr ++ ": " ++ type ++
        String.join (decl.userTypes.map fun part => " as " ++ part.describe) ++ ";" →
      Shows m body ⟨depth, .declaration index⟩
        (code ++ blanks (40 - code.length) ++
          (if index = 0 then " // return place in " else " // in ") ++ source ++ "\n")
  | opening {depth scope : Nat} : Shows m body ⟨depth, .opening scope⟩
      (blanks (4 * depth) ++ "scope " ++ scope.repr ++ " \x7b\n")
  | closing {depth scope : Nat} : Shows m body ⟨depth, .closing scope⟩
      (blanks (4 * depth) ++ "\x7d\n")

namespace ScopeLine

variable {m : SourceMap} {body : Body} {depth index : Nat} {text : String}

theorem shows_of_debugLine {record : DebugRecord}
    (hrecord : body.debugRecords[index]? = some record)
    (h : debugLine m depth record = .ok text) : Shows m body ⟨depth, .debug index⟩ text := by
  simp only [debugLine, bind_eq_ok_iff] at h
  obtain ⟨place, hplace, source, hsource, heq⟩ := h
  obtain rfl := Except.ok.inj heq
  rw [indentation_natCast, commentedLine_eq]
  exact .debug hrecord hplace hsource rfl

theorem shows_of_localLine {decl : LocalDecl} (hdecl : body.locals[index]? = some decl)
    (h : localLine m depth index decl = .ok text) :
    Shows m body ⟨depth, .declaration index⟩ text := by
  simp only [localLine, bind_eq_ok_iff] at h
  obtain ⟨type, htype, source, hsource, heq⟩ := h
  obtain rfl := Except.ok.inj heq
  have hwords : " //" ++ (if index = 0 then " return place" else "") ++ " in " =
      if index = 0 then " // return place in " else " // in " := by
    split <;> rfl
  rw [indentation_natCast, commentedLine_eq, hwords]
  exact .declaration hdecl htype hsource rfl

/-- A line that belongs to the listing has its text in it.  Of a local or a debug record that there
is not, nothing would be listed. -/
theorem shows_of_render {line : ScopeLine} (hline : Belongs body line)
    (h : (line.listing m body).render = .ok text) : line.Shows m body text := by
  cases hline with
  | debug hrecord _ _ =>
    simp only [listing, hrecord, Option.map_some, Option.getD_some, Listing.render_ofOutcome] at h
    exact shows_of_debugLine hrecord h
  | declaration hdecl _ _ _ =>
    simp only [listing, hdecl, Option.map_some, Option.getD_some, Listing.render_ofOutcome] at h
    exact shows_of_localLine hdecl h
  | opening _ _ =>
    simp only [listing, Listing.render_text, indentation_natCast] at h
    obtain rfl := Except.ok.inj h
    exact .opening
  | closing _ _ =>
    simp only [listing, Listing.render_text, indentation_natCast] at h
    obtain rfl := Except.ok.inj h
    exact .closing

/-- Where lines have their texts, each of them has its own. -/
theorem exists_text {lines : List ScopeLine} {texts : List String}
    (h : List.Forall₂ (Shows m body) lines texts) {line : ScopeLine} (hline : line ∈ lines) :
    ∃ text ∈ texts, line.Shows m body text := by
  obtain ⟨i, hi, rfl⟩ := List.mem_iff_getElem.1 hline
  have htexts := h.length_eq ▸ hi
  exact ⟨texts[i], List.getElem_mem htexts, h.get hi htexts⟩

end ScopeLine

/-- The intro renders to the signature and the texts of the lines. -/
theorem introListing_text {ctx : Context} {source : BodySource} {body : Body}
    {lines : List ScopeLine}
    (hlisting : scopesListing ctx.sourceMap body =
      .concat (lines.map (ScopeLine.listing ctx.sourceMap body)))
    (hlines : ∀ line ∈ lines, Belongs body line)
    {text : String} (h : (introListing ctx source body).render = .ok text) :
    ∃ head texts, (signature ctx.items source body).render = .ok head ∧
      (lines.map fun line => (line.listing ctx.sourceMap body).render) = texts.map .ok ∧
      List.Forall₂ (ScopeLine.Shows ctx.sourceMap body) lines texts ∧
      text = head ++ "\x7b\n" ++ String.join texts ++ "\n" := by
  simp only [introListing, hlisting, Listing.concat_cons, Listing.concat_nil, Listing.append_empty,
    Listing.render_append_eq_ok, Listing.render_text, Except.ok.injEq] at h
  obtain ⟨head, _, hhead, ⟨_, _, rfl, ⟨middle, _, hmiddle, rfl, rfl⟩, rfl⟩, rfl⟩ := h
  obtain ⟨hall, rfl⟩ := Listing.render_concat_eq_ok.1 hmiddle
  have hrender : ∀ line ∈ lines, (line.listing ctx.sourceMap body).render =
      .ok (line.listing ctx.sourceMap body).written :=
    fun line hline => hall _ (List.mem_map_of_mem hline)
  refine ⟨head, lines.map fun line => (line.listing ctx.sourceMap body).written, hhead, ?_, ?_, ?_⟩
  · rw [List.map_map]
    exact List.map_congr_left hrender
  · rw [List.forall₂_map_right_iff, List.forall₂_same]
    exact fun line hline => ScopeLine.shows_of_render (hlines line hline) (hrender line hline)
  · simp only [List.map_map, Function.comp_def, String.append_assoc]

/-! ## Arguments -/

/-- The arguments are the locals that count as such. -/
theorem arguments_eq_filter (body : Body) :
    body.arguments = body.locals.zipIdx.filter fun (_, index) => body.isArgument index := by
  rw [Body.arguments, zipIdx_take]
  cases body.locals with
  | nil => rfl
  | cons result rest =>
    rw [List.zipIdx_cons, List.filter_cons_of_neg (by simp [Body.isArgument])]
    refine List.filter_congr ?_
    rintro ⟨decl, index⟩ hmem
    have := (List.mk_mem_zipIdx_iff_le_and_getElem?_sub.1 hmem).1
    show decide (index < 1 + body.argCount.toNat) = body.isArgument index
    rw [Bool.eq_iff_iff, Body.isArgument, Bool.and_eq_true, decide_eq_true_eq, decide_eq_true_eq,
      decide_eq_true_eq]
    omega

/-- An argument as the signature lists it. -/
def argumentText (argument : LocalDecl × Nat) : Outcome String := do
  return "_" ++ argument.2.repr ++ ": " ++ (← argument.1.ty.text)

theorem functionText_eq_ok {body : Body} {text : String} (h : functionText body = .ok text) :
    ∃ arguments result, body.arguments.map argumentText = arguments.map .ok ∧
      body.returnType.text = .ok result ∧
      text = "(" ++ ", ".intercalate arguments ++ ") -> " ++ result := by
  have hmapM : argumentsText body =
      (body.arguments.mapM argumentText).map fun arguments => ", ".intercalate arguments := rfl
  rw [functionText, hmapM] at h
  cases harguments : body.arguments.mapM argumentText with
  | error failure => rw [harguments] at h; cases h
  | ok arguments =>
    cases hresult : body.returnType.text with
    | error failure => rw [harguments, hresult] at h; cases h
    | ok result =>
      rw [harguments, hresult] at h
      exact ⟨arguments, result, mapM_eq_ok_iff.1 harguments, rfl, (Except.ok.inj h).symm⟩

theorem signatureWords_of_isFunction {items : ItemTable} {source : BodySource}
    (h : source.isFunction (items.kind? source.item)) :
    signatureWords items source = .ok "fn " := by
  obtain ⟨hmain, hkind⟩ := (Bool.and_eq_true _ _).mp h
  rw [Option.isNone_iff_eq_none] at hmain
  cases hfound : items.kind? source.item with
  | none => rw [hfound] at hkind; cases hkind
  | some kind =>
    rw [hfound] at hkind
    rw [signatureWords, BodySource.promotedText?, hmain, hfound]
    cases kind <;> first | rfl | cases hkind

/-- The signature of a function lists its arguments. -/
theorem signature_text {items : ItemTable} {source : BodySource} {body : Body}
    (hfunction : source.isFunction (items.kind? source.item)) {text : String}
    (h : (signature items source body).render = .ok text) :
    ∃ arguments result yields, body.arguments.map argumentText = arguments.map .ok ∧
      body.returnType.text = .ok result ∧ (yieldListing body.yieldType?).render = .ok yields ∧
      text = "fn " ++ source.item.pathText ++ "(" ++ ", ".intercalate arguments ++ ") -> " ++
        result ++ yields ++ " " := by
  simp only [signature, signatureWords_of_isFunction hfunction, hfunction, if_true,
    Listing.concat_cons, Listing.concat_nil, Listing.append_empty, Listing.render_append_eq_ok,
    Listing.render_text, Listing.render_ofOutcome, Except.ok.injEq] at h
  obtain ⟨_, _, rfl, ⟨_, _, rfl, ⟨types, _, htypes, ⟨yields, _, hyields, rfl, rfl⟩, rfl⟩, rfl⟩,
    rfl⟩ := h
  obtain ⟨arguments, result, harguments, hresult, rfl⟩ := functionText_eq_ok htypes
  refine ⟨arguments, result, yields, harguments, hresult, hyields, ?_⟩
  simp only [String.append_assoc]

/-! ## The intro -/

/-- The intro of a body whose scopes are accepted: its signature and the lines of its scopes.

The lines are those of scope 0 and, inside one another, the blocks of the scopes whose parents lead
to it.  They hold what belongs there and nothing else, none of it twice, and each local that they
declare is none of the arguments, which the signature of a function lists.  The text of each begins
with four blanks for each link of its depth. -/
theorem intro_nests_scopes (ctx : Context) (source : BodySource) (body : Body) {tree : ScopeTree}
    (h : ScopeTree.ofScopes body.scopes = .ok tree) :
    ∃ lines blocks,
      introListing ctx source body = .concat [signature ctx.items source body, .text "\x7b\n",
        .concat (lines.map (ScopeLine.listing ctx.sourceMap body)), .text "\n"] ∧
      functionListing ctx source body = introListing ctx source body ++
        .concat [blocksFrom ctx.sourceMap 0 body.blocks, .text "\x7d\n", appendix ctx body] ∧
      (∀ text, (introListing ctx source body).render = .ok text → ∃ head texts,
        (signature ctx.items source body).render = .ok head ∧
        (lines.map fun line => (line.listing ctx.sourceMap body).render) = texts.map .ok ∧
        List.Forall₂ (ScopeLine.Shows ctx.sourceMap body) lines texts ∧
        text = head ++ "\x7b\n" ++ String.join texts ++ "\n") ∧
      lines = ownLines body 0 1 ++ blocks ∧
      Blocks body 1 (childScopes body.scopes 0) blocks ∧
      (∀ parent, (childScopes body.scopes parent).Pairwise (· < ·) ∧
        ∀ s, s ∈ childScopes body.scopes parent ↔ parentLink? body.scopes s = some parent) ∧
      (lines.map ScopeLine.entry).Nodup ∧
      (∀ line, line ∈ lines ↔ Belongs body line) ∧
      (source.isFunction (ctx.items.kind? source.item) →
        ∀ text, (signature ctx.items source body).render = .ok text →
          ∃ arguments result yields, body.arguments.map argumentText = arguments.map .ok ∧
            body.returnType.text = .ok result ∧
            (yieldListing body.yieldType?).render = .ok yields ∧
            text = "fn " ++ source.item.pathText ++ "(" ++ ", ".intercalate arguments ++ ") -> " ++
              result ++ yields ++ " ") ∧
      body.arguments = body.locals.zipIdx.filter (fun (_, index) => body.isArgument index) ∧
      ∀ depth index, ⟨depth, .declaration index⟩ ∈ lines →
        ∀ decl, (decl, index) ∉ body.arguments := by
  have hroot := (ScopeTree.onlyRoot_of_ofScopes h).parentLink?_zero
  obtain ⟨blocks, hblocks, hlisting⟩ := exists_lines ctx.sourceMap h
  have hmem : ∀ line ∈ ownLines body 0 1 ++ blocks, Belongs body line :=
    fun _ => (hblocks.mem_lines_iff hroot).1
  refine ⟨ownLines body 0 1 ++ blocks, blocks, ?_, functionListing_eq ctx source body,
    fun text htext => introListing_text hlisting hmem htext, rfl, hblocks,
    fun parent => ⟨pairwise_childScopes body.scopes parent, fun s => mem_childScopes⟩,
    hblocks.nodup_lines hroot, fun line => hblocks.mem_lines_iff hroot,
    fun hfunction text htext => signature_text hfunction htext, arguments_eq_filter body, ?_⟩
  · rw [introListing, hlisting]
  · intro depth index hline decl hargument
    rw [arguments_eq_filter] at hargument
    have hyes := (List.mem_filter.1 hargument).2
    cases (hblocks.mem_lines_iff hroot).1 hline with
    | declaration _ hno _ _ =>
      rw [show body.isArgument index = true from hyes] at hno
      cases hno

/-- A function of one argument whose scope 1 stands under a later one, and whose scopes 4 and 5
state each other. -/
def knottedBody : Body where
  blocks := []
  locals := [⟨.named "()", {}, true, []⟩, ⟨.named "i32", {}, true, []⟩,
    ⟨.named "u8", { scope := 1 }, false, []⟩, ⟨.named "u16", { scope := 4 }, true, []⟩]
  scopes := [{}, { parent? := some 3 }, { parent? := some 0 }, { parent? := some 0 },
    { parent? := some 5 }, { parent? := some 4 }]
  argCount := 1

/-- The item of the function. -/
def knottedSource : BodySource := { item := ⟨.string "crate", [⟨"f", 0⟩], .bool true⟩ }

/-- What is known about it. -/
def knottedContext : Context :=
  { items := ({} : ItemTable).register { id := knottedSource.item, kind? := some .fn } }

theorem not_depth_knottedBody (n : Nat) : ¬Depth knottedBody.scopes 4 n := by
  refine not_depth_of_closed (fun s => s = 4 ∨ s = 5) (by omega) ?_ (.inl rfl)
  rintro s p (rfl | rfl) hlink
  · exact .inr (Int.ofNat.inj (Option.some.inj hlink)).symm
  · exact .inl (Int.ofNat.inj (Option.some.inj hlink)).symm

/-- Its intro. -/
def knottedIntro : String :=
  "fn f(_1: i32) -> () \x7b\n" ++
  "    let mut _0: ();                      // return place in scope 0 at no-location\n" ++
  "    scope 2 \x7b\n" ++
  "    \x7d\n" ++
  "    scope 3 \x7b\n" ++
  "        scope 1 \x7b\n" ++
  "            let _2: u8;                  // in scope 1 at no-location\n" ++
  "        \x7d\n" ++
  "    \x7d\n" ++
  "\n"

theorem render_knottedBody :
    (introListing knottedContext knottedSource knottedBody).render = .ok knottedIntro :=
  Listing.render_eq_ok.2 ⟨by decide +kernel, by decide +kernel⟩

/-- The scopes stand inside one another as their parents say, and what belongs to scope 4 is not
listed. -/
theorem intro_nests_scopes_knottedBody :
    (∃ tree, ScopeTree.ofScopes knottedBody.scopes = .ok tree) ∧
    ∃ lines : List ScopeLine, introListing knottedContext knottedSource knottedBody =
        .concat [.concat [.text "fn ", .text "f", .text "(_1: i32) -> ()", .empty, .text " "],
          .text "\x7b\n", .concat (lines.map (ScopeLine.listing {} knottedBody)), .text "\n"] ∧
      ⟨2, .opening 1⟩ ∈ lines ∧ ⟨3, .declaration 2⟩ ∈ lines ∧ ⟨1, .opening 2⟩ ∈ lines ∧
      (∀ depth, ⟨depth, .declaration 1⟩ ∉ lines) ∧ (∀ depth, ⟨depth, .opening 4⟩ ∉ lines) ∧
      (∀ depth, ⟨depth, .declaration 3⟩ ∉ lines) ∧
      ∃ texts, List.Forall₂ (ScopeLine.Shows {} knottedBody) lines texts ∧
        "        scope 1 \x7b\n" ∈ texts ∧
        "            let _2: u8;                  // in scope 1 at no-location\n" ∈ texts ∧
        knottedIntro = "fn f(_1: i32) -> () " ++ "\x7b\n" ++ String.join texts ++ "\n" := by
  have htree : ScopeTree.ofScopes knottedBody.scopes = .ok _ := rfl
  obtain ⟨lines, _, hintro, -, htext, -, -, -, -, hmem, -⟩ :=
    intro_nests_scopes knottedContext knottedSource knottedBody htree
  have hthree : Depth knottedBody.scopes 3 1 := .link rfl .root
  have hone : Depth knottedBody.scopes 1 2 := .link rfl hthree
  have hopening : ⟨2, .opening 1⟩ ∈ lines := (hmem _).2 (.opening Nat.one_ne_zero hone)
  have hlocal : ⟨3, .declaration 2⟩ ∈ lines := (hmem _).2 (.declaration rfl rfl rfl hone)
  refine ⟨⟨_, htree⟩, lines, hintro, hopening, hlocal,
    (hmem _).2 (.opening (Nat.succ_ne_zero 1) (.link rfl .root)),
    fun depth hline => ?_, fun depth hline => ?_, fun depth hline => ?_, ?_⟩
  · cases (hmem _).1 hline with
    | declaration _ hno _ _ => cases hno
  · cases (hmem _).1 hline with
    | opening _ hfour => exact not_depth_knottedBody depth hfour
  · cases (hmem _).1 hline with
    | declaration hdecl _ hscope hfour =>
      obtain rfl := Option.some.inj hdecl
      obtain rfl := Int.ofNat.inj hscope
      exact not_depth_knottedBody _ hfour
  · obtain ⟨head, texts, hhead, -, hshows, htext⟩ := htext knottedIntro render_knottedBody
    have hsignature : (signature knottedContext.items knottedSource knottedBody).render =
        .ok "fn f(_1: i32) -> () " := Listing.render_eq_ok.2 ⟨by decide +kernel, by decide +kernel⟩
    obtain rfl := Except.ok.inj (hsignature.symm.trans hhead)
    refine ⟨texts, hshows, ?_, ?_, htext⟩
    · obtain ⟨text, hmemText, hshown⟩ := ScopeLine.exists_text hshows hopening
      cases hshown
      exact hmemText
    · obtain ⟨text, hmemText, hshown⟩ := ScopeLine.exists_text hshows hlocal
      cases hshown with
      | declaration hdecl htype hsource hcode =>
        cases hdecl
        cases htype
        cases hsource
        subst hcode
        exact hmemText

end MirListing
