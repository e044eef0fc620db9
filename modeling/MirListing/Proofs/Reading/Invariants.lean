import MirListing.Proofs.Listing.LookUps
import MirListing.Proofs.Memory.Parts
import MirListing.Proofs.Reading.Programs

/-!
# What holds of every program

A document can state what no program may hold: a pointer outside its memory, a body without a place
for its result, a switch with too many targets.  A program that has been read holds none of it,
wherever it might stand (`Program.WellFormed`).

This is what a listing relies on.  It looks up locals, scopes, bytes, flags and targets by their
positions, and of a program that has been read it finds all of them, whatever the layout
(`Program.wellFormed_of_read`).
-/

namespace MirListing

open Value

/-! ## Pointer sizes -/

/-- The size of a pointer that a document states, eight bytes if it states none. -/
def statedPointerSize (document : Value) : Outcome Int := do
  let layout := (← document.asObject).field "data_layout"
  if layout.isGiven then (← layout.asObject).integerOr "pointer_size" 8 else return 8

theorem Layout.eq_bytes_of_ofSize {size : Int} {endian : Endian} {layout : Layout}
    (h : ofSize size endian = .ok layout) : size = layout.pointerSize.bytes := by
  unfold ofSize at h
  split at h
  · rename_i pointerSize hsize
    cases h
    unfold PointerSize.ofInt? at hsize
    split at hsize <;> cases hsize <;> rfl
  · cases h

theorem statedPointerSize_eq {fields : Fields} {layout : Layout}
    (h : Program.readLayout fields = .ok layout) :
    statedPointerSize (.object fields) = .ok layout.pointerSize.bytes := by
  show (if _ then _ else _) = _
  unfold Program.readLayout at h
  simp only at h
  split at h
  · rename_i hgiven
    rw [if_pos hgiven]
    obtain ⟨entries, hentries, h⟩ := bind_eq_ok_iff.1 h
    simp only at h
    split at h
    · obtain ⟨size, hsize, h⟩ := bind_eq_ok_iff.1 h
      rw [hentries, ← Layout.eq_bytes_of_ofSize h]
      exact hsize
    · cases h
  · rename_i habsent
    cases h
    rw [if_neg habsent]
    rfl

/-! ## Switches -/

theorem elementAt_neg_one {α : Type} (absent : Failure) {items : List α} {a : α}
    (h : items.getLast? = some a) : elementAt absent items (-1) = .ok a := by
  have hpos : 0 < items.length := List.length_pos_iff.2 fun hnil => by
    rw [hnil] at h
    cases h
  rw [elementAt_eq_ok_iff, elementAt?, if_neg (by decide), if_pos (by omega), ← h,
    List.getLast?_eq_getElem?]
  congr 1
  omega

/-- Branches are paired if there is one target more than there are numbers. -/
theorem pairBranches_eq_ok {values targets : List Int} {branches : List (Int × Int)}
    {otherwise : Int} (h : pairBranches values targets = .ok (branches, otherwise)) :
    targets.length = values.length + 1 ∧ branches = values.zip targets ∧
      targets.getLast? = some otherwise := by
  induction values generalizing targets branches with
  | nil =>
    match targets, h with
    | [target], h =>
      cases h
      exact ⟨rfl, rfl, rfl⟩
  | cons value values ih =>
    cases targets with
    | nil => cases h
    | cons target targets =>
      obtain ⟨⟨rest, last⟩, hrest, h⟩ := bind_eq_ok_iff.1 h
      cases h
      obtain ⟨hlength, rfl, hlast⟩ := ih hrest
      refine ⟨congrArg (· + 1) hlength, rfl, ?_⟩
      rw [List.getLast?_cons, hlast]
      rfl

/-! ## Bodies -/

/-- A body has a place for its result, a local for each argument, and an outermost scope. -/
structure Body.Valid (body : Body) : Prop where
  /-- The place for the result. -/
  locals : body.locals ≠ []
  /-- The locals are more than the arguments. -/
  arguments : body.argCount < body.locals.length
  /-- The outermost scope. -/
  scopes : body.scopes ≠ []

namespace Body

variable {body : Body}

theorem ReadIn.valid {names : Names} {v : Value} (h : body.ReadIn names v) : body.Valid := by
  have hchecked := h.checked
  unfold check at hchecked
  split at hchecked
  · cases hchecked
  · rename_i hlocals
    split at hchecked
    · cases hchecked
    · rename_i hcount
      exact ⟨fun hnil => hlocals (List.isEmpty_iff.2 hnil), Int.not_le.1 hcount, h.scopes⟩

namespace Valid

/-- The type of the result is that of local 0. -/
theorem result (h : body.Valid) :
    (elementAt .outOfRange body.locals 0).map LocalDecl.ty = .ok body.returnType := by
  rw [show (0 : Int) = (0 : Nat) from rfl,
    elementAt_natCast .outOfRange (List.length_pos_iff.2 h.locals), returnType,
    List.head?_eq_getElem?, List.getElem?_eq_getElem (List.length_pos_iff.2 h.locals)]
  rfl

/-- The arguments are the locals from 1 on. -/
theorem lookUp_arguments (h : body.Valid) :
    (List.range' 1 body.argCount.toNat).mapM (fun n : Nat => elementAt .outOfRange body.locals n) =
      .ok (body.arguments.map Prod.fst) := by
  have hcount := h.arguments
  have hlocals := List.length_pos_iff.2 h.locals
  rw [mapM_elementAt _ (by omega), Body.arguments, List.zipIdx_map_fst]

end Valid

end Body

/-! ## Programs -/

namespace Program

variable {document : Value} {p : Program}

/-- What holds of every program that has been read. -/
structure WellFormed (document : Value) (p : Program) : Prop where
  /-- Pointers have the size that the document states, which is one that a target has. -/
  pointerSize : ∃ size, statedPointerSize document = .ok size ∧
    size = p.layout.pointerSize.bytes ∧ (size = 2 ∨ size = 4 ∨ size = 8)
  /-- All memory is made of parts in the document that fit each other. -/
  memory : ∀ a, p.HasMemory a →
    ∃ parts, document.Yields MemoryParts.read parts ∧ parts.Valid ∧ a.HasParts parts
  /-- All bodies have enough locals and a scope. -/
  bodies : ∀ body, p.HasBody body → body.Valid
  /-- All switches have a branch for each number that the document states, and one target more. -/
  switches : ∀ body, p.HasBody body → ∀ block ∈ body.blocks, ∀ scrutinee ty branches otherwise,
    block.terminator.kind = .switchInt scrutinee ty branches otherwise →
      ∃ values targets, document.Yields readSwitch (values, targets) ∧
        targets.length = values.length + 1 ∧ branches = values.zip targets ∧
        targets.getLast? = some otherwise

theorem ReadIn.wellFormed {names : Names} {fields : Fields} (h : p.ReadIn names (.object fields))
    (hlayout : readLayout fields = .ok p.layout) : p.WellFormed (.object fields) := by
  refine ⟨⟨_, statedPointerSize_eq hlayout, rfl, ?_⟩, ?_, ?_, ?_⟩
  · cases p.layout.pointerSize with
    | two => exact .inl rfl
    | four => exact .inr (.inl rfl)
    | eight => exact .inr (.inr rfl)
  · intro a ha
    obtain ⟨v, hv, hread⟩ := h.memory ha
    obtain ⟨parts, hparts, hvalid, hholds⟩ := Allocation.exists_parts_of_read hread
    exact ⟨parts, hv.yields hparts, hvalid, hholds⟩
  · intro body hbody
    obtain ⟨v, -, hread⟩ := h.body hbody
    exact (Body.readIn_of_read hread).valid
  · intro body hbody block hblock scrutinee ty branches otherwise hkind
    obtain ⟨v, hv, hread⟩ :=
      (h.body hbody).bind fun w hw => (Body.readIn_of_read hw).terminator hblock
    obtain ⟨values, targets, hswitch, hpairs⟩ :=
      (Terminator.readIn_of_read hread).switch (branches, otherwise) (by rw [hkind]; rfl)
    exact ⟨values, targets, hv.yields hswitch, pairBranches_eq_ok hpairs⟩

/-- The memory that is listed for a handle is memory of the program. -/
theorem hasMemory_of_lists {id : AllocId} {a : Allocation} (h : Lists p.table p.directory id a) :
    p.HasMemory a := by
  cases h with
  | memory hget => exact .stored hget
  | static hget hlocal hvalue =>
    unfold ItemTable.evaluate at hvalue
    split at hvalue
    · cases hvalue
    · rename_i item hitem
      split at hvalue
      · cases hvalue
      · cases hvalue
      · cases hvalue
        exact .held (.initializer (mem_of_get?_table hitem) (by assumption)) rfl

/-- What a listing of a program looks up by its position is there, whatever the layout. -/
structure LooksUpInRange (document : Value) (p : Program) : Prop where
  /-- Local 0, which has the type of the result. -/
  result : ∀ body, p.HasBody body →
    (elementAt .outOfRange body.locals 0).map LocalDecl.ty = .ok body.returnType
  /-- The locals from 1 on, which are the arguments. -/
  arguments : ∀ body, p.HasBody body →
    (List.range' 1 body.argCount.toNat).mapM (fun n : Nat => elementAt .outOfRange body.locals n) =
      .ok (body.arguments.map Prod.fst)
  /-- The bytes and the flags of the memory that is listed behind a body. -/
  memory : ∀ id a, Lists p.table p.directory id a →
    ∃ parts, document.Yields MemoryParts.read parts ∧
      ∀ layout, parts.scan layout 0 = .ok (HexDump.scan layout a.size 0 a.cells)
  /-- The last target of a switch, which is the one that is left over. -/
  otherwise : ∀ body, p.HasBody body → ∀ block ∈ body.blocks, ∀ scrutinee ty branches otherwise,
    block.terminator.kind = .switchInt scrutinee ty branches otherwise →
      ∃ values targets, document.Yields readSwitch (values, targets) ∧
        elementAt .outOfRange targets (-1) = .ok otherwise
  /-- The scopes, and whatever else stands in a listing. -/
  listing : ∀ body, p.HasBody body → ∀ (ctx : Context) (source : BodySource),
    Listing.FailsOnly Failure.NoLookUp (bodyListing ctx source body)

theorem WellFormed.looksUpInRange (h : p.WellFormed document) : p.LooksUpInRange document := by
  refine ⟨fun body hbody => (h.bodies body hbody).result,
    fun body hbody => (h.bodies body hbody).lookUp_arguments, ?_, ?_,
    fun body _ ctx source => noLookUp_bodyListing ctx source body⟩
  · intro id a hlists
    obtain ⟨parts, hparts, -, hholds⟩ := h.memory a (hasMemory_of_lists hlists)
    exact ⟨parts, hparts, fun layout => MemoryParts.scan_eq hholds layout 0⟩
  · intro body hbody block hblock scrutinee ty branches otherwise hkind
    obtain ⟨values, targets, hswitch, -, -, hlast⟩ :=
      h.switches body hbody block hblock scrutinee ty branches otherwise hkind
    exact ⟨values, targets, hswitch, elementAt_neg_one .outOfRange hlast⟩

/-- Every program that has been read is well-formed, and so nothing is looked up in it that is not
there. -/
theorem wellFormed_of_read (h : read document = .ok p) :
    p.WellFormed document ∧ p.LooksUpInRange document := by
  obtain ⟨fields, _, names, _, rfl, hlayout, -⟩ := exists_of_read h
  obtain ⟨_, _, _, names, hfields, -, -, -, -, -, hread⟩ := exists_readIn h
  cases hfields
  have hwell := hread.wellFormed hlayout
  exact ⟨hwell, hwell.looksUpInRange⟩

end Program

/-- A document of five bytes, the last undefined and a pointer stored in the others, and of a body
that ends in a switch. -/
def switchDocument : Value :=
  .object [
    (.text "data_layout", .object [(.text "pointer_size", .integer 4)]),
    (.text "allocations", .array [.object [
      (.text "id", .integer 0), (.text "kind", .string "memory"),
      (.text "bytes", .string "00000000ff"), (.text "undefined", .array [.integer 4]),
      (.text "relocations", .object [(.text "0", .integer 0)])]]),
    (.text "items", .array [.object [
      (.text "path", .string "f"), (.text "kind", .string "fn"),
      (.text "body", .object [
        (.text "locals", .array [
          .object [(.text "ty", .string "()")], .object [(.text "ty", .string "u8")]]),
        (.text "arg_count", .integer 1),
        (.text "blocks", .array [.object [(.text "terminator", .object [
          (.text "kind", .string "switch_int"),
          (.text "discr", .object [
            (.text "kind", .string "copy"), (.text "place", .string "_1")]),
          (.text "values", .array [.integer 0]),
          (.text "targets", .array [.integer 1, .integer 0])])]])])]])]

/-- That memory. -/
def switchMemory : Allocation :=
  { cells := [{ byte := 0, target? := some ⟨0⟩ }, { byte := 0 }, { byte := 0 }, { byte := 0 },
      { byte := 255, isDefined := false }] }

/-- That body. -/
def switchBody : Body :=
  { blocks := [{
      statements := []
      terminator := {
        sourceInfo := {}
        kind := .switchInt (.copy { slot := 1, projection := [] }) (.named "usize") [(0, 1)] 0 } }]
    locals := [{ ty := .named "()" }, { ty := .named "u8" }]
    argCount := 1 }

/-- That program. -/
def switchProgram : Program :=
  { layout := { pointerSize := .four }
    directory := ({} : Directory).set ⟨0⟩ (.memory switchMemory)
    items := [{
      id := { crate := .string "crate", path := [⟨"f", 0⟩] }
      kind? := some .fn
      body? := some switchBody }] }

theorem read_switchDocument : Program.read switchDocument = .ok switchProgram := by
  with_unfolding_all rfl

theorem wellFormed_switchProgram :
    Program.read switchDocument = .ok switchProgram ∧
      switchProgram.HasMemory switchMemory ∧ switchProgram.HasBody switchBody ∧
      switchProgram.WellFormed switchDocument ∧ switchProgram.LooksUpInRange switchDocument := by
  refine ⟨read_switchDocument, ?_, ?_, Program.wellFormed_of_read read_switchDocument⟩
  · exact @Program.HasMemory.stored _ ⟨0⟩ _ rfl
  · exact ⟨_, List.mem_singleton_self _, .inl rfl⟩

end MirListing
