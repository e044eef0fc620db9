import Mathlib.Data.List.Nodup
import MirListing.Proofs.Memory.Lines
import MirListing.Proofs.Scopes.Intro

/-!
# Points between lines

An annotated listing has a line at each of its points, and between them the lines of the plain
listing in their order.  `Lined l points` says that a listing `l`, unless it fails, is made of whole
lines with its points between them.  That holds for whatever has no point and ends a line
(`lined_of_pointFree`), for a point alone, and for one listing after another (`Lined.append`).  So
it is carried from the lines of a node to those of a block, of all blocks and of a body.

Nothing that is written depends on what stands at the points, and no failure does.  So a body is
listed with annotations just if it is listed without them, and where the lines at the points are
taken out the plain listing is left (`annotated_lines`).  No point comes twice
(`Body.nodup_points`), which is why it is enough that an annotation is a function of its point.
-/

namespace MirListing

/-! ## The points of a body -/

/-- The points of the statement or terminator at a location. -/
def Location.points (l : Location) : List Point := [.beforeLocation l, .afterLocation l]

/-- The points of a block: in front of it, around each statement and the terminator, and before its
closing brace. -/
def BasicBlock.points (number : Nat) (b : BasicBlock) : List Point :=
  .beforeBlock number ::
    (List.range (b.statements.length + 1)).flatMap (fun index => Location.points ⟨number, index⟩) ++
    [.afterTerminator number]

/-- The points of a body in order. -/
def Body.points (body : Body) : List Point :=
  .beforeBody ::
    body.blocks.zipIdx.flatMap (fun (b, number) => b.points number) ++ [.afterBody]

theorem BasicBlock.mem_points {number : Nat} {b : BasicBlock} {p : Point} :
    p ∈ b.points number ↔ p = .beforeBlock number ∨
      (∃ index ≤ b.statements.length,
        p = .beforeLocation ⟨number, index⟩ ∨ p = .afterLocation ⟨number, index⟩) ∨
      p = .afterTerminator number := by
  simp only [BasicBlock.points, Location.points, List.cons_append, List.mem_cons, List.mem_append,
    List.mem_flatMap, List.mem_range, Nat.lt_succ_iff, List.not_mem_nil, or_false]

theorem BasicBlock.nodup_points (number : Nat) (b : BasicBlock) : (b.points number).Nodup := by
  have hnodes : ((List.range (b.statements.length + 1)).flatMap fun index =>
      Location.points ⟨number, index⟩).Nodup := by
    refine List.nodup_flatMap.2 ⟨fun index _ => by simp [Location.points], ?_⟩
    refine List.nodup_range.imp fun {i j} hne => ?_
    simp [Function.onFun, Location.points, Ne.symm hne]
  rw [BasicBlock.points, List.cons_append, List.nodup_cons, List.nodup_append]
  refine ⟨by simp [Location.points], hnodes, by simp, ?_⟩
  intro p hp q hq
  obtain rfl := List.mem_singleton.1 hq
  obtain ⟨index, -, hp⟩ := List.mem_flatMap.1 hp
  rintro rfl
  simp [Location.points] at hp

/-- No point comes twice. -/
theorem Body.nodup_points (body : Body) : body.points.Nodup := by
  have hblocks : (body.blocks.zipIdx.flatMap fun (b, number) => b.points number).Nodup := by
    refine List.nodup_flatMap.2 ⟨fun (b, number) _ => b.nodup_points number, ?_⟩
    refine (pairwise_zipIdx body.blocks).imp fun {a b} hlt p ha hb => ?_
    -- the number of the block can be read off each of its points
    have hne : a.2 ≠ b.2 := Nat.ne_of_lt hlt
    rcases BasicBlock.mem_points.1 ha with rfl | ⟨_, -, rfl | rfl⟩ | rfl <;>
      simp [BasicBlock.mem_points, hne] at hb
  rw [Body.points, List.cons_append, List.nodup_cons, List.nodup_append]
  refine ⟨by simp [BasicBlock.mem_points], hblocks, by simp, ?_⟩
  intro p hp q hq
  obtain rfl := List.mem_singleton.1 hq
  obtain ⟨numbered, -, hp⟩ := List.mem_flatMap.1 hp
  rintro rfl
  simp [BasicBlock.mem_points] at hp

/-! ## Lines -/

/-- A line of an annotated listing. -/
inductive AnnotatedLine
  /-- A line of the plain listing. -/
  | own (text : String)
  /-- The line at a point. -/
  | mark (p : Point)

namespace AnnotatedLine

/-- What a line writes, where a function gives the lines at points. -/
def text (mark : Point → String) : AnnotatedLine → String
  | .own text => text ++ "\n"
  | .mark p => mark p

/-- The text of a line of the plain listing. -/
def own? : AnnotatedLine → Option String
  | .own text => some text
  | .mark _ => none

/-- The point that a line stands at. -/
def point? : AnnotatedLine → Option Point
  | .own _ => none
  | .mark p => some p

end AnnotatedLine

/-- The lines of the plain listing alone. -/
def plainText (lines : List AnnotatedLine) : String :=
  String.join ((lines.filterMap AnnotatedLine.own?).map (· ++ "\n"))

/-- All lines. -/
def annotatedText (mark : Point → String) (lines : List AnnotatedLine) : String :=
  String.join (lines.map (AnnotatedLine.text mark))

/-- Where a line begins. -/
def AtLineStart (s : String) : Prop := s = "" ∨ ∃ t, s = t ++ "\n"

theorem annotatedText_append (mark : Point → String) (lines more : List AnnotatedLine) :
    annotatedText mark (lines ++ more) = annotatedText mark lines ++ annotatedText mark more := by
  simp [annotatedText]

/-- Without annotations only the lines of the plain listing are left. -/
theorem annotatedText_plain (lines : List AnnotatedLine) :
    annotatedText (fun _ => "") lines = plainText lines := by
  induction lines with
  | nil => rfl
  | cons line rest ih =>
    cases line with
    | own text =>
      have hcons : plainText (.own text :: rest) = text ++ "\n" ++ plainText rest := by
        simp [plainText, AnnotatedLine.own?]
      rw [hcons, ← ih]
      simp [annotatedText, AnnotatedLine.text]
    | mark p =>
      have hcons : plainText (.mark p :: rest) = plainText rest := rfl
      rw [hcons, ← ih]
      simp [annotatedText, AnnotatedLine.text]

theorem atLineStart_plainText (lines : List AnnotatedLine) : AtLineStart (plainText lines) := by
  rw [plainText]
  cases List.eq_nil_or_concat (lines.filterMap AnnotatedLine.own?) with
  | inl hnil => exact .inl (by rw [hnil]; rfl)
  | inr hlast =>
    obtain ⟨texts, last, hlast⟩ := hlast
    refine .inr ⟨String.join (texts.map (· ++ "\n")) ++ last, ?_⟩
    simp [hlast, String.append_assoc]

/-- A text that ends a line is cut into lines. -/
theorem exists_lines_of_ends (t : String) :
    ∃ ls : List String, (∀ s ∈ ls, '\n' ∉ s.toList) ∧
      t ++ "\n" = String.join (ls.map (· ++ "\n")) := by
  have hcut : ∀ cs : List Char, ∃ ls : List (List Char),
      (∀ l ∈ ls, '\n' ∉ l) ∧ cs ++ ['\n'] = ls.flatMap (· ++ ['\n']) := by
    intro cs
    induction cs with
    | nil => exact ⟨[[]], by simp, rfl⟩
    | cons c rest ih =>
      obtain ⟨ls, hfree, heq⟩ := ih
      by_cases hc : c = '\n'
      · subst hc
        exact ⟨[] :: ls, by simpa using hfree, by simp [heq]⟩
      · -- the character joins the first line of the rest
        cases ls with
        | nil => simp at heq
        | cons l more =>
          refine ⟨(c :: l) :: more, ?_, by simp [heq]⟩
          simpa [Ne.symm hc] using hfree
  obtain ⟨ls, hfree, heq⟩ := hcut t.toList
  refine ⟨ls.map String.ofList, ?_, ?_⟩
  · intro s hs
    obtain ⟨l, hl, rfl⟩ := List.mem_map.1 hs
    rw [String.toList_ofList]
    exact hfree l hl
  · apply String.toList_injective
    rw [String.toList_join, String.toList_append]
    simpa [List.flatMap_map] using heq

/-- The line at a point is a single line. -/
theorem Point.exists_line (p : Point) : ∃ s, '\n' ∉ s.toList ∧ p.line = s ++ "\n" := by
  have hdigits : ∀ n, '\n' ∉ Nat.toDigits 10 n := HexDump.newline_notMem_toDigits (by decide)
  have hlocation : ∀ l : Location, '\n' ∉ l.text.toList := by
    intro l
    simp [Location.text, hdigits]
  cases p with
  | beforeBody => exact ⟨"@BeforeCFG", by decide, rfl⟩
  | afterBody => exact ⟨"@AfterCFG", by decide, rfl⟩
  | beforeBlock block => exact ⟨"@BeforeBlock " ++ block.repr, by simp [hdigits], rfl⟩
  | afterTerminator block => exact ⟨"@AfterTerminator " ++ block.repr, by simp [hdigits], rfl⟩
  | beforeLocation l => exact ⟨"@BeforeLocation " ++ l.text, by simp [hlocation], rfl⟩
  | afterLocation l => exact ⟨"@AfterLocation " ++ l.text, by simp [hlocation], rfl⟩

namespace Listing

/-! ## Listings without points -/

/-- A listing has no points. -/
def PointFree (l : Listing) : Prop := ∀ p, Piece.point p ∉ l.pieces

theorem pointFree_empty : PointFree empty := by
  intro p hp
  cases hp

theorem pointFree_text (s : String) : PointFree (text s) := by
  intro p hp
  simp [text] at hp

theorem pointFree_fail (failure : Failure) : PointFree (fail failure) := by
  intro p hp
  cases hp

theorem pointFree_ofOutcome (o : Outcome String) : PointFree (ofOutcome o) := by
  cases o with
  | ok s => exact pointFree_text s
  | error failure => exact pointFree_fail failure

theorem PointFree.append {a b : Listing} (ha : PointFree a) (hb : PointFree b) :
    PointFree (a ++ b) := by
  intro p hp
  rw [append_def, Listing.append] at hp
  cases hfailure : a.failure? with
  | none =>
    rw [hfailure] at hp
    rcases List.mem_append.1 hp with hfirst | hsecond
    · exact ha p hfirst
    · exact hb p hsecond
  | some failure =>
    rw [hfailure] at hp
    exact ha p hp

theorem pointFree_concat {ls : List Listing} (h : ∀ l ∈ ls, PointFree l) :
    PointFree (concat ls) := by
  induction ls with
  | nil => exact pointFree_empty
  | cons l rest ih =>
    exact (h l List.mem_cons_self).append (ih fun l hl => h l (List.mem_cons_of_mem _ hl))

/-- Without points an annotated listing is the plain one. -/
theorem PointFree.writtenWith {l : Listing} (h : PointFree l) (mark : Point → String) :
    l.writtenWith mark = l.written := by
  obtain ⟨pieces, failure?⟩ := l
  change ∀ p, Piece.point p ∉ pieces at h
  change textWith mark pieces = textWith _ pieces
  induction pieces with
  | nil => rfl
  | cons piece rest ih =>
    have hrest := ih fun p hp => h p (List.mem_cons_of_mem _ hp)
    cases piece with
    | text s => rw [textWith, textWith, hrest]
    | point p => exact absurd List.mem_cons_self (h p)

/-! ## Listings in lines -/

/-- A listing that does not fail is made of whole lines, with points between them. -/
def Lined (l : Listing) (points : List Point) : Prop :=
  l.failure? = none → ∃ lines : List AnnotatedLine,
    (∀ s, .own s ∈ lines → '\n' ∉ s.toList) ∧
    lines.filterMap AnnotatedLine.point? = points ∧
    ∀ mark, l.writtenWith mark = annotatedText mark lines

theorem lined_empty : Lined empty [] := fun _ => ⟨[], by simp, rfl, fun _ => rfl⟩

theorem lined_point (p : Point) : Lined (point p) [p] :=
  fun _ => ⟨[.mark p], by simp, rfl, fun _ => by
    simp [writtenWith, point, textWith, annotatedText, AnnotatedLine.text]⟩

theorem Lined.append {a b : Listing} {points more : List Point} (ha : Lined a points)
    (hb : Lined b more) : Lined (a ++ b) (points ++ more) := by
  intro h
  obtain ⟨hafails, hbfails⟩ := failure?_append.1 h
  obtain ⟨lines, hfree, hpoints, hwritten⟩ := ha hafails
  obtain ⟨lines', hfree', hpoints', hwritten'⟩ := hb hbfails
  refine ⟨lines ++ lines', ?_, ?_, fun mark => ?_⟩
  · intro s hs
    rcases List.mem_append.1 hs with hs | hs
    · exact hfree s hs
    · exact hfree' s hs
  · rw [List.filterMap_append, hpoints, hpoints']
  · rw [annotatedText_append, ← hwritten mark, ← hwritten' mark, append_def, Listing.append,
      hafails]
    exact textWith_append mark _ _

/-- What has no points and ends a line is made of whole lines. -/
theorem lined_of_pointFree {l : Listing} (hfree : PointFree l)
    (hends : l.failure? = none → ∃ t, l.written = t ++ "\n") : Lined l [] := by
  intro h
  obtain ⟨t, ht⟩ := hends h
  obtain ⟨ls, hlines, heq⟩ := exists_lines_of_ends t
  refine ⟨ls.map .own, ?_, ?_, fun mark => ?_⟩
  · intro s hs
    obtain ⟨s', hs', heq⟩ := List.mem_map.1 hs
    cases heq
    exact hlines _ hs'
  · rw [List.filterMap_map]
    exact List.filterMap_eq_nil_iff.2 fun _ _ => rfl
  · rw [hfree.writtenWith, ht, heq, annotatedText, List.map_map]
    rfl

theorem lined_text (t : String) : Lined (text (t ++ "\n")) [] :=
  lined_of_pointFree (pointFree_text _) fun _ =>
    ⟨t, (render_eq_ok.1 (render_text (t ++ "\n"))).2⟩

/-- A listing without points whose last line is ended behind it. -/
theorem lined_append_text {l : Listing} (hfree : PointFree l) (t : String) :
    Lined (l ++ text (t ++ "\n")) [] := by
  refine lined_of_pointFree (hfree.append (pointFree_text _)) fun h => ?_
  refine ⟨l.written ++ t, ?_⟩
  rw [written_append (failure?_append.1 h).1, String.append_assoc]
  exact congrArg _ (render_eq_ok.1 (render_text (t ++ "\n"))).2

theorem lined_ofOutcome {o : Outcome String} (h : ∀ s, o = .ok s → ∃ t, s = t ++ "\n") :
    Lined (ofOutcome o) [] := by
  cases o with
  | error failure => exact fun hfails => by cases hfails
  | ok s =>
    obtain ⟨t, rfl⟩ := h s rfl
    exact lined_text t

theorem lined_concat {ls : List Listing} (h : ∀ l ∈ ls, Lined l []) : Lined (concat ls) [] := by
  induction ls with
  | nil => exact lined_empty
  | cons l rest ih =>
    exact (h l List.mem_cons_self).append (ih fun l hl => h l (List.mem_cons_of_mem _ hl))

theorem lined_concat_mapIdx {α : Type} {f : Nat → α → Listing} {points : Nat → List Point}
    (h : ∀ index a, Lined (f index a) (points index)) (items : List α) :
    Lined (concat (items.mapIdx f)) ((List.range items.length).flatMap points) := by
  induction items generalizing f points with
  | nil => exact lined_empty
  | cons a rest ih =>
    rw [List.mapIdx_cons, List.length_cons, List.range_succ_eq_map, List.flatMap_cons,
      List.flatMap_map]
    exact (h 0 a).append (ih fun index b => h (index + 1) b)

end Listing

/-! ## Bodies in lines -/

section

variable (m : SourceMap)

theorem lined_nodeListing (location : Location) (node : Node) :
    (nodeListing m location node).Lined location.points := by
  have hline : (Listing.ofOutcome (node.line m location)).Lined [] := by
    refine Listing.lined_ofOutcome fun s hs => ?_
    obtain ⟨text, -, hs⟩ := bind_eq_ok_iff.1 hs
    obtain ⟨comment, -, hs⟩ := bind_eq_ok_iff.1 hs
    exact ⟨_, (Except.ok.inj hs).symm⟩
  have hcomments : (Listing.concat (node.comments.map fun comment =>
      .ofOutcome (comment.map commentLine))).Lined [] := by
    refine Listing.lined_concat fun l hl => ?_
    obtain ⟨comment, -, rfl⟩ := List.mem_map.1 hl
    refine Listing.lined_ofOutcome fun s hs => ?_
    cases comment with
    | error failure => cases hs
    | ok comment => exact ⟨_, (Except.ok.inj hs).symm⟩
  exact (Listing.lined_point _).append (hline.append (hcomments.append
    ((Listing.lined_point _).append Listing.lined_empty)))

theorem lined_blockListing (number : Nat) (b : BasicBlock) :
    (Listing.point (.beforeBlock number) ++ blockListing m number b).Lined (b.points number) := by
  have hnodes := Listing.lined_concat_mapIdx
    (fun index node => lined_nodeListing m ⟨number, index⟩ node) (b.nodes m)
  rw [show (b.nodes m).length = b.statements.length + 1 by simp [BasicBlock.nodes]] at hnodes
  have hhead := Listing.lined_text
    ("    bb" ++ number.repr ++ (if b.isCleanup then " (cleanup)" else "") ++ ": \x7b")
  rw [String.append_assoc] at hhead
  exact (Listing.lined_point _).append (hhead.append (hnodes.append
    ((Listing.lined_point _).append ((Listing.lined_text "    \x7d").append Listing.lined_empty))))

theorem lined_blocksFrom (number : Nat) (blocks : List BasicBlock) :
    (blocksFrom m number blocks).Lined
      ((blocks.zipIdx number).flatMap fun (b, number) => b.points number) := by
  induction blocks generalizing number with
  | nil => exact Listing.lined_empty
  | cons b rest ih =>
    rw [List.zipIdx_cons, List.flatMap_cons]
    cases rest with
    | nil =>
      simp only [List.zipIdx_nil, List.flatMap_nil, List.append_nil]
      exact lined_blockListing m number b
    | cons next rest =>
      have hempty : (Listing.text "\n").Lined [] := Listing.lined_text ""
      have hblock := ((lined_blockListing m number b).append hempty).append (ih (number + 1))
      rwa [List.append_nil] at hblock

theorem lined_userTypesListing (userTypes : List UserType) :
    (userTypesListing m userTypes).Lined [] := by
  rw [userTypesListing]
  split
  · exact Listing.lined_empty
  · have hlines : (Listing.concat (userTypes.mapIdx fun index userType =>
        .ofOutcome (userTypeLine m index userType))).Lined [] := by
      refine Listing.lined_concat fun l hl => ?_
      obtain ⟨index, hindex, rfl⟩ := List.mem_mapIdx.1 hl
      refine Listing.lined_ofOutcome fun s hs => ?_
      obtain ⟨text, -, hs⟩ := bind_eq_ok_iff.1 hs
      exact ⟨_, (Except.ok.inj hs).symm⟩
    exact (Listing.lined_text "| User Type Annotations").append (hlines.append
      ((Listing.lined_text "|").append Listing.lined_empty))

end

section

variable (ctx : Context) (source : BodySource) (body : Body)

theorem pointFree_scopesListing : (scopesListing ctx.sourceMap body).PointFree := by
  cases htree : ScopeTree.ofScopes body.scopes with
  | error fault =>
    rw [scopesListing, htree]
    exact Listing.pointFree_fail _
  | ok tree =>
    obtain ⟨blocks, -, hlisting⟩ := exists_lines ctx.sourceMap htree
    rw [hlisting]
    refine Listing.pointFree_concat fun l hl => ?_
    obtain ⟨⟨depth, entry⟩, -, rfl⟩ := List.mem_map.1 hl
    have hgetD : ∀ l? : Option Listing, (∀ l ∈ l?, l.PointFree) → (l?.getD .empty).PointFree := by
      intro l? h
      cases l? with
      | none => exact Listing.pointFree_empty
      | some l => exact h l rfl
    cases entry with
    | debug index =>
      refine hgetD _ fun l hl => ?_
      obtain ⟨record, -, rfl⟩ := Option.map_eq_some_iff.1 hl
      exact Listing.pointFree_ofOutcome _
    | declaration index =>
      refine hgetD _ fun l hl => ?_
      obtain ⟨decl, -, rfl⟩ := Option.map_eq_some_iff.1 hl
      exact Listing.pointFree_ofOutcome _
    | opening scope => exact Listing.pointFree_text _
    | closing scope => exact Listing.pointFree_text _

theorem pointFree_signature : (signature ctx.items source body).PointFree := by
  have hyields : (yieldListing body.yieldType?).PointFree := by
    cases body.yieldType? with
    | none => exact Listing.pointFree_empty
    | some ty => exact (Listing.pointFree_text _).append (Listing.pointFree_ofOutcome _)
  refine Listing.pointFree_concat ?_
  simp only [List.mem_cons, List.not_mem_nil, or_false]
  rintro l (rfl | rfl | rfl | rfl | rfl)
  · exact Listing.pointFree_ofOutcome _
  · exact Listing.pointFree_text _
  · exact Listing.pointFree_ofOutcome _
  · exact hyields
  · exact Listing.pointFree_text _

theorem lined_introListing : (introListing ctx source body).Lined [] := by
  have hfront : (signature ctx.items source body ++ .text "\x7b\n" ++
      scopesListing ctx.sourceMap body).PointFree :=
    ((pointFree_signature ctx source body).append (Listing.pointFree_text _)).append
      (pointFree_scopesListing ctx body)
  have hintro := Listing.lined_append_text hfront ""
  rwa [Listing.append_assoc, Listing.append_assoc] at hintro

theorem pointFree_block (layout : Layout) (a : Allocation) :
    (HexDump.block layout a).PointFree := by
  have hlisting : ∀ start, (HexDump.listing layout start a).PointFree := by
    intro start
    rw [HexDump.listing]
    split
    · exact Listing.pointFree_text _
    · exact (Listing.pointFree_text _).append (Listing.pointFree_fail _)
  rw [HexDump.block]
  refine (Listing.pointFree_text _).append ?_
  split
  · exact Listing.pointFree_text _
  · exact ((Listing.pointFree_text _).append (hlisting _)).append (Listing.pointFree_text _)

theorem pointFree_entryListing (items : ItemTable) (layout : Layout) (found? : Option GlobalAlloc) :
    (entryListing items layout found?).PointFree := by
  cases found? with
  | none => exact Listing.pointFree_text _
  | some entry =>
    cases entry with
    | function instanceText => exact Listing.pointFree_text _
    | memory a => exact (Listing.pointFree_text _).append (pointFree_block layout a)
    | static item =>
      rw [entryListing, staticListing]
      split
      · exact Listing.pointFree_fail _
      · split
        · exact Listing.pointFree_text _
        · split
          · exact Listing.pointFree_text _
          · exact (Listing.pointFree_text _).append (pointFree_block layout _)
          · exact Listing.pointFree_fail _

theorem lined_appendix : (appendix ctx body).Lined [] := by
  refine Listing.lined_concat fun l hl => ?_
  obtain ⟨id, -, rfl⟩ := List.mem_map.1 hl
  exact Listing.lined_append_text
    ((Listing.pointFree_text _).append (pointFree_entryListing _ _ _)) ""

/-- A body is listed in lines with its points between them. -/
theorem lined_bodyListing : (bodyListing ctx source body).Lined body.points := by
  have hfunction : (functionListing ctx source body).Lined
      (body.blocks.zipIdx.flatMap fun (b, number) => b.points number) := by
    rw [functionListing_eq]
    have hrest := (lined_blocksFrom ctx.sourceMap 0 body.blocks).append
      ((Listing.lined_text "\x7d").append ((lined_appendix ctx body).append Listing.lined_empty))
    have hall := (lined_introListing ctx source body).append hrest
    simpa using hall
  have hall := (Listing.lined_point .beforeBody).append
    ((lined_userTypesListing ctx.sourceMap body.userTypes).append
      (hfunction.append ((Listing.lined_point .afterBody).append Listing.lined_empty)))
  simpa [bodyListing, Body.points] using hall

end

/-! ## Annotated listings -/

/-- A body is listed in the same way with and without annotations, except for the annotations
themselves.  Either both listings fail for the same reason, whatever stands at the points; or the
annotated one is made of lines, of which those of the plain listing are left where the lines at
points are taken out.  The points come in the order of the body's parts and no point twice, and each
stands where a line of the plain listing begins or where the last one has ended. -/
theorem annotated_lines (ctx : Context) (source : BodySource) (body : Body) :
    body.points.Nodup ∧ (∀ p : Point, ∃ s, '\n' ∉ s.toList ∧ p.line = s ++ "\n") ∧
    ((∃ failure, (bodyListing ctx source body).render = .error failure ∧
        ∀ mark, (bodyListing ctx source body).renderWith mark = .error failure) ∨
      ∃ lines : List AnnotatedLine,
        (bodyListing ctx source body).render = .ok (plainText lines) ∧
        (∀ mark, (bodyListing ctx source body).renderWith mark = .ok (annotatedText mark lines)) ∧
        lines.filterMap AnnotatedLine.point? = body.points ∧
        (∀ s, .own s ∈ lines → '\n' ∉ s.toList) ∧
        ∀ before p after, lines = before ++ .mark p :: after → AtLineStart (plainText before)) := by
  refine ⟨body.nodup_points, Point.exists_line, ?_⟩
  cases hfailure : (bodyListing ctx source body).failure? with
  | some failure =>
    refine .inl ⟨failure, ?_, fun mark => Listing.renderWith_eq_error.2 hfailure⟩
    rw [Listing.render, hfailure]
  | none =>
    obtain ⟨lines, hfree, hpoints, hwritten⟩ := lined_bodyListing ctx source body hfailure
    refine .inr ⟨lines, ?_, fun mark => ?_, hpoints, hfree, fun before _ _ _ =>
      atLineStart_plainText before⟩
    · rw [Listing.render, hfailure, ← annotatedText_plain, ← hwritten]
      rfl
    · rw [Listing.renderWith, hfailure, ← hwritten]

end MirListing
