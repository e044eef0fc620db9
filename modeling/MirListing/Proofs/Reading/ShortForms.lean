import MirListing.Proofs.Reading.Forms

/-!
# Reading long forms

Every reader reads a node with its short forms written out as it reads the node itself
(`ReadsLong`).  There is one statement for each kind of node, in the order of the readers, and each
follows from those for the parts of the node and from the fields in which nothing is written out.
Types and constants are inside each other, so theirs is an induction on the size of what is read.

For a whole document this says that its short forms mean what their long forms mean: with any of
them written out it is read as the same program (`Program.read_of_writesOut`).
-/

namespace MirListing

/-- A reader reads long forms as it reads short ones. -/
def ReadsLong {α : Type} (f : Form) (read : Value → Outcome α) : Prop :=
  ∀ ⦃v w⦄, WritesOut f v w → SucceedsAs (read v) (read w)

/-- A node of a kind that has no short form of its own is an object or is written out nowhere. -/
theorem readsLong_of_fields {α : Type} {read : Value → Outcome α} {n : DocumentNode}
    (hn : n ≠ .place ∧ n ≠ .ty ∧ n ≠ .sourceInfo)
    (hread : ∀ fields long, FieldsWriteOut n fields long →
      SucceedsAs (read (.object fields)) (read (.object long))) : ReadsLong (.node n) read := by
  intro v w h
  cases h with
  | same => exact .refl _
  | short hshort =>
    cases hshort with
    | place => exact absurd rfl hn.1
    | ty | tyConsts => exact absurd rfl hn.2.1
    | sourceInfo => exact absurd rfl hn.2.2
  | node h => exact hread _ _ h

variable {names : Names}

/-! ## Spans and sources -/

theorem Span.readsLong : ReadsLong .span Span.read := by
  intro v w h
  cases h with
  | same => exact .refl _
  | short hshort =>
    cases hshort
    exact .of_eq rfl

theorem FieldsWriteOut.span {n : DocumentNode} {fields long : Fields}
    (h : FieldsWriteOut n fields long) (hform : n.form (.text "span") = .span) :
    SucceedsAs (Span.read (fields.field "span")) (Span.read (long.field "span")) :=
  Span.readsLong (hform ▸ h.field "span")

theorem SourceInfo.readsLong : ReadsLong (.node .sourceInfo) SourceInfo.read := by
  intro v w h
  cases h with
  | same => exact .refl _
  | short hshort =>
    cases hshort
    exact .of_eq rfl
  | node h =>
    refine (h.span rfl).bind fun _ => ?_
    rw [h.integerOr_eq "scope" rfl]
    exact .refl _

theorem FieldsWriteOut.sourceInfo {n : DocumentNode} {fields long : Fields}
    (h : FieldsWriteOut n fields long)
    (hform : n.form (.text "source_info") = .node .sourceInfo) :
    SucceedsAs (SourceInfo.read (fields.field "source_info"))
      (SourceInfo.read (long.field "source_info")) :=
  SourceInfo.readsLong (hform ▸ h.field "source_info")

/-! ## Types and constants -/

/-- A type is read from its name and its constants. -/
theorem Ty.read_object (fields : Fields) :
    Ty.read names (.object fields) =
      Value.require "type" "name" (.object fields) >>= fun name =>
        match Fields.field? "consts" fields with
        | some (.array entries) => do return .mk name (← entries.mapM (Const.read names))
        | some other => do return .mk name (← Const.refuseElements other)
        | none => .ok (.mk name []) := by
  rw [Ty.read, Value.require]
  cases hname : Fields.field? "name" fields with
  | none => rfl
  | some name =>
    simp only [bind, Except.bind]
    split
    · rename_i entries hentries
      have hattach := List.mapM_map (f := Subtype.val) (g := Const.read names) (l := entries.attach)
      rw [List.attach_map_subtype_val] at hattach
      rw [hentries]
      simp only [hattach]
      rfl
    · rename_i other hnot hother
      rw [hother]
      cases other with
      | array entries => exact absurd rfl (hnot entries)
      | null | bool | integer | number | spelled | object => rfl
    · rename_i hnone
      rw [hnone]

/-- A constant is read from its type and its value. -/
theorem Const.read_object (fields : Fields) :
    Const.read names (.object fields) =
      Value.require "constant" "ty" (.object fields) >>= fun ty => do
        let ty ← Ty.read names ty
        let value ← Value.require "constant" "val" (.object fields)
        return .mk ty (← ConstValue.read names value) := by
  rw [Const.read]
  cases hty : Fields.field? "ty" fields with
  | none => simp only [Value.require, hty]; rfl
  | some ty => simp only [Value.require, hty]; rfl

mutual

theorem Ty.read_writesOut : ∀ {v w : Value}, WritesOut (.node .ty) v w →
    SucceedsAs (Ty.read names v) (Ty.read names w)
  | _, _, .same => .refl _
  | _, _, .short hshort => by
    cases hshort with
    | ty name | tyConsts name => exact .of_eq (by rw [Ty.read, Ty.read_object]; rfl)
  | .object fields, .object long, .node h => by
    rw [Ty.read_object, Ty.read_object, h.require_eq "name" rfl]
    refine .bind_right _ fun name => ?_
    rcases h.field?_cases "consts" with ⟨hv, hw⟩ | ⟨v, w, hv, hw, hout⟩ | ⟨w, hv, hw, hshort⟩
    · rw [hv, hw]
      exact .refl _
    · rw [hv, hw]
      rcases WritesOut.nodes_cases (n := .const) hout with rfl | ⟨entries, rest, rfl, rfl, hall⟩
      · exact .refl _
      · refine (hall.mapM fun entry hentry w hout => ?_).bind_left _
        have hsmaller : sizeOf entry < sizeOf (Value.object fields) :=
          Nat.lt_trans (Value.sizeOf_mem_array hentry) (Fields.sizeOf_field hv)
        exact Const.read_writesOut hout
    · cases hshort
termination_by v => sizeOf v
decreasing_by exact hsmaller

theorem Const.read_writesOut : ∀ {v w : Value}, WritesOut (.node .const) v w →
    SucceedsAs (Const.read names v) (Const.read names w)
  | _, _, .same => .refl _
  | .object fields, .object long, .node h => by
    rw [Const.read_object, Const.read_object, h.require_eq "val" rfl]
    rcases h.field?_cases "ty" with ⟨hv, hw⟩ | ⟨v, w, hv, hw, hout⟩ | ⟨w, hv, hw, hshort⟩
    · simp only [Value.require, hv]
      exact .error _ _
    · have hsmaller : sizeOf v < sizeOf (Value.object fields) := Fields.sizeOf_field hv
      rw [Value.require_object hv, Value.require_object hw]
      exact (Ty.read_writesOut hout).bind_left _
    · cases hshort
termination_by v => sizeOf v
decreasing_by exact hsmaller

end

theorem Ty.readsLong : ReadsLong (.node .ty) (Ty.read names) := fun _ _ h => Ty.read_writesOut h

theorem Const.readsLong : ReadsLong (.node .const) (Const.read names) :=
  fun _ _ h => Const.read_writesOut h

/-! ## Places and operands -/

theorem Projection.readsLong : ReadsLong (.node .projection) (Projection.read names) := by
  refine readsLong_of_fields (by decide) fun fields long h => ?_
  refine h.tagged_bind _ rfl fun kind => ?_
  simp only [h.integer_eq "index" rfl, h.integer_eq "local" rfl, h.integer_eq "offset" rfl,
    h.integer_eq "min_length" rfl, h.integer_eq "from" rfl, h.integer_eq "to" rfl,
    h.integer_eq "variant" rfl, h.flag_eq "from_end" rfl, h.label?_eq "name" rfl]
  split
  · exact .refl _
  · refine .bind_right _ fun _ => ?_
    exact h.member_bind "ty" rfl nofun fun _ _ hty => (Ty.readsLong hty).bind_left _
  all_goals exact .refl _

/-- The digits of a place in short are the local of the place in long. -/
theorem Place.read_short (slot : String) :
    SucceedsAs (Place.read names (.string ("_" ++ slot)))
      (Place.read names (.object [(.text "local", .string slot)])) := by
  have hchars : ("_" ++ slot).toList = '_' :: slot.toList := by
    rw [String.toList_append]
    rfl
  intro place h
  rw [Place.read, Place.ofSpelling, Spelling.plain_text, hchars] at h
  simp only at h
  split at h
  · cases h
  · rw [String.ofList_toList] at h
    exact h

theorem Place.readsLong : ReadsLong (.node .place) (Place.read names) := by
  intro v w h
  cases h with
  | same => exact .refl _
  | short hshort =>
    cases hshort with
    | place slot => exact Place.read_short slot
  | node h =>
    unfold Place.read
    refine .asObject_bind ?_
    rw [h.require_eq "local" rfl]
    refine h.elementsIfGiven_bind "projection" rfl fun steps rest hall => ?_
    exact (hall.mapM fun _ _ _ hstep => Projection.readsLong hstep).bind_left _

theorem FieldsWriteOut.place {n : DocumentNode} {fields long : Fields}
    (h : FieldsWriteOut n fields long) (name : String)
    (hform : n.form (.text name) = .node .place) :
    SucceedsAs (readPlace names name fields) (readPlace names name long) :=
  h.member_bind name hform nofun Place.readsLong

theorem Operand.readsLong : ReadsLong (.node .operand) (Operand.read names) := by
  refine readsLong_of_fields (by decide) fun fields long h => ?_
  refine h.tagged_bind _ rfl fun kind => ?_
  simp only
  split
  · exact h.member_bind "place" rfl nofun fun _ _ hplace => (Place.readsLong hplace).bind_left _
  · exact h.member_bind "place" rfl nofun fun _ _ hplace => (Place.readsLong hplace).bind_left _
  · refine SucceedsAs.bind_left ?_ _
    unfold Constant.read
    rw [h.field_eq "user_ty" rfl]
    refine (h.span rfl).bind fun _ => ?_
    refine h.require_bind _ "literal" rfl ⟨nofun, nofun⟩ fun _ _ hliteral => ?_
    exact (Const.readsLong hliteral).bind_left _
  · exact .error _ _

theorem FieldsWriteOut.operand {n : DocumentNode} {fields long : Fields}
    (h : FieldsWriteOut n fields long) (name : String)
    (hform : n.form (.text name) = .node .operand) :
    SucceedsAs (readOperand names name fields) (readOperand names name long) :=
  h.member_bind name hform nofun Operand.readsLong

theorem FieldsWriteOut.operands {n : DocumentNode} {fields long : Fields}
    (h : FieldsWriteOut n fields long) (name : String)
    (hform : n.form (.text name) = .nodes .operand) :
    SucceedsAs (Operand.readAll names (fields.field name))
      (Operand.readAll names (long.field name)) :=
  h.elementsIfGiven_bind name hform fun _ _ hall =>
    hall.mapM fun _ _ _ hoperand => Operand.readsLong hoperand

/-! ## Computed values -/

theorem AggregateKind.readsLong : ReadsLong (.node .aggregate) (AggregateKind.read names) := by
  refine readsLong_of_fields (by decide) fun fields long h => ?_
  refine h.tagged_bind _ rfl fun kind => ?_
  simp only [h.member_eq "path" rfl, h.field_eq "fields" rfl, h.field_eq "variant" rfl,
    h.integer?_eq "user_ty" rfl, h.fieldOr_eq "movability" rfl]
  split
  · exact h.member_bind "ty" rfl nofun fun _ _ hty => (Ty.readsLong hty).bind_left _
  · exact .refl _
  · exact .refl _
  · refine SucceedsAs.bind_left ?_ _
    exact h.elementsIfGiven_bind "substs" rfl fun _ _ hall =>
      hall.mapM fun _ _ _ hty => Ty.readsLong hty

theorem FieldsWriteOut.binary {fields long : Fields} (h : FieldsWriteOut .rvalue fields long) :
    SucceedsAs (readBinary names fields) (readBinary names long) := by
  unfold readBinary
  rw [h.member_eq "op" rfl]
  refine .bind_right _ fun _ => .bind_right _ fun _ => ?_
  refine h.member_bind "lhs" rfl nofun fun _ _ hleft => (Operand.readsLong hleft).bind fun _ => ?_
  exact h.member_bind "rhs" rfl nofun fun _ _ hright => (Operand.readsLong hright).bind_left _

theorem Rvalue.readsLong : ReadsLong (.node .rvalue) (Rvalue.read names) := by
  refine readsLong_of_fields (by decide) fun fields long h => ?_
  refine h.tagged_bind _ rfl fun kind => ?_
  simp only [h.integer_eq "count" rfl, h.fieldOr_eq "borrow" rfl, h.fieldOr_eq "region" rfl,
    h.fieldOr_eq "mutability" rfl, h.fieldOr_eq "cast_kind" rfl, h.member_eq "op" rfl]
  split
  · exact (h.operand "operand" rfl).bind_left _
  · exact (h.operand "operand" rfl).bind_left _
  · exact (h.place "place" rfl).bind_left _
  · exact (h.place "place" rfl).bind_left _
  · exact (h.place "place" rfl).bind_left _
  · refine (h.operand "operand" rfl).bind fun _ => ?_
    exact h.member_bind "ty" rfl nofun fun _ _ hty => (Ty.readsLong hty).bind_left _
  · exact h.binary.bind_left _
  · exact h.binary.bind_left _
  · exact .bind_right _ fun _ => .bind_right _ fun _ => (h.operand "operand" rfl).bind_left _
  · exact (h.place "place" rfl).bind_left _
  · refine .bind_right _ fun _ => .bind_right _ fun _ => ?_
    exact h.member_bind "ty" rfl nofun fun _ _ hty => (Ty.readsLong hty).bind_left _
  · refine h.member_bind "aggregate" rfl nofun fun _ _ hkind => ?_
    refine (AggregateKind.readsLong hkind).bind fun _ => ?_
    exact (h.operands "operands" rfl).bind_left _
  · exact .error _ _

/-! ## Statements and terminators -/

theorem FieldsWriteOut.statementKind {fields long : Fields}
    (h : FieldsWriteOut .statement fields long) (kind : Spelling) :
    SucceedsAs (StatementKind.read names kind fields) (StatementKind.read names kind long) := by
  unfold StatementKind.read
  simp only [h.fieldOr_eq "cause" rfl, h.integer_eq "variant" rfl, h.integer_eq "local" rfl,
    h.fieldOr_eq "retag_kind" rfl, h.member_eq "projection" rfl, h.fieldOr_eq "variance" rfl]
  split
  · refine (h.place "place" rfl).bind fun _ => ?_
    exact h.member_bind "rvalue" rfl nofun fun _ _ hvalue => (Rvalue.readsLong hvalue).bind_left _
  · exact (h.place "place" rfl).bind_left _
  · exact (h.place "place" rfl).bind_left _
  · exact .refl _
  · exact .refl _
  · exact (h.place "place" rfl).bind_left _
  · exact (h.place "place" rfl).bind_left _
  · exact .refl _
  · exact .error _ _

theorem Statement.readsLong : ReadsLong (.node .statement) (Statement.read names) := by
  refine readsLong_of_fields (by decide) fun fields long h => ?_
  refine h.tagged_bind _ rfl fun kind => ?_
  exact (h.sourceInfo rfl).bind fun _ => (h.statementKind kind).bind_left _

theorem FieldsWriteOut.terminatorKind {fields long : Fields}
    (h : FieldsWriteOut .terminator fields long) (kind : Spelling) :
    SucceedsAs (TerminatorKind.read names kind fields) (TerminatorKind.read names kind long) := by
  unfold TerminatorKind.read
  simp only [h.integer_eq "target" rfl, h.member_eq "values" rfl, h.member_eq "targets" rfl,
    h.integer?_eq "unwind" rfl, h.integer?_eq "target" rfl, h.integer?_eq "cleanup" rfl,
    h.flag_eq "expected" rfl, h.fieldOr_eq "msg" rfl, h.integer_eq "resume" rfl,
    h.integer?_eq "drop" rfl, h.integer_eq "real_target" rfl, h.integer_eq "imaginary_target" rfl]
  split
  · exact .refl _
  · exact .refl _
  · exact .refl _
  · exact .refl _
  · exact .refl _
  · exact .refl _
  · refine (h.operand "discr" rfl).bind fun _ => ?_
    exact (Ty.readsLong (h.fieldOr "switch_ty" rfl nofun (.string "usize"))).bind_left _
  · exact (h.place "place" rfl).bind_left _
  · exact (h.place "place" rfl).bind fun _ => (h.operand "value" rfl).bind_left _
  · refine (h.operand "func" rfl).bind fun _ => (h.operands "args" rfl).bind fun _ => ?_
    have hplace : WritesOut (.node .place) _ _ := h.field "destination"
    exact hplace.ifNotNull nofun (.refl _) ((Place.readsLong hplace).bind_left _)
  · exact (h.operand "cond" rfl).bind_left _
  · refine (h.operand "value" rfl).bind fun _ => .bind_right _ fun _ => ?_
    exact (h.place "resume_arg" rfl).bind_left _
  · exact .refl _
  · exact .refl _
  · exact .error _ _

theorem Terminator.readsLong : ReadsLong (.node .terminator) (Terminator.read names) := by
  refine readsLong_of_fields (by decide) fun fields long h => ?_
  refine h.tagged_bind _ rfl fun kind => ?_
  exact (h.sourceInfo rfl).bind fun _ => (h.terminatorKind kind).bind_left _

/-! ## Bodies -/

theorem BasicBlock.readsLong : ReadsLong (.node .block) (BasicBlock.read names) := by
  refine readsLong_of_fields (by decide) fun fields long h => ?_
  refine .asObject_bind ?_
  rw [h.flag_eq "cleanup" rfl]
  refine h.elementsIfGiven_bind "statements" rfl fun _ _ hall => ?_
  refine (hall.mapM fun _ _ _ hstatement => Statement.readsLong hstatement).bind fun _ => ?_
  refine h.require_bind _ "terminator" rfl ⟨nofun, nofun⟩ fun _ _ hterminator => ?_
  exact (Terminator.readsLong hterminator).bind_left _

theorem LocalDecl.readsLong : ReadsLong (.node .localDecl) (LocalDecl.read names) := by
  refine readsLong_of_fields (by decide) fun fields long h => ?_
  unfold LocalDecl.read
  refine h.require_bind _ "ty" rfl ⟨nofun, nofun⟩ fun _ _ hty => ?_
  refine (Ty.readsLong hty).bind fun _ => ?_
  refine .asObject_bind ?_
  rw [h.field_eq "user_ty" rfl, h.flag_eq "mutable" rfl]
  exact (h.sourceInfo rfl).bind_left _

theorem Scope.readsLong : ReadsLong (.node .scope) Scope.read := by
  refine readsLong_of_fields (by decide) fun fields long h => ?_
  refine .asObject_bind ?_
  rw [h.integer?_eq "parent" rfl]
  exact (h.span rfl).bind_left _

theorem DebugRecord.readsLong : ReadsLong (.node .debugRecord) (DebugRecord.read names) := by
  refine readsLong_of_fields (by decide) fun fields long h => ?_
  refine .asObject_bind ?_
  rw [h.member_eq "name" rfl]
  refine .bind_right _ fun _ => ?_
  exact (h.sourceInfo rfl).bind fun _ => (h.place "place" rfl).bind_left _

theorem UserType.readsLong : ReadsLong (.node .userType) (UserType.read names) := by
  refine readsLong_of_fields (by decide) fun fields long h => ?_
  refine .asObject_bind ?_
  rw [h.member_eq "user_ty" rfl]
  refine .bind_right _ fun _ => (h.span rfl).bind fun _ => ?_
  exact h.member_bind "inferred_ty" rfl nofun fun _ _ hty => (Ty.readsLong hty).bind_left _

theorem FieldsWriteOut.scopes {fields long : Fields} (h : FieldsWriteOut .body fields long) :
    SucceedsAs (readScopes (fields.field "scopes")) (readScopes (long.field "scopes")) := by
  have hfield : WritesOut (.nodes .scope) _ _ := h.field "scopes"
  rw [readScopes, readScopes, hfield.isGiven_eq]
  split
  · exact hfield.elements_bind fun _ _ hall => hall.mapM fun _ _ _ hscope => Scope.readsLong hscope
  · exact .refl _

theorem Body.readsLong : ReadsLong (.node .body) (Body.read names) := by
  refine readsLong_of_fields (by decide) fun fields long h => ?_
  unfold Body.read
  refine h.require_bind _ "blocks" rfl ⟨nofun, nofun⟩ fun _ _ hblocks => ?_
  refine hblocks.elements_bind fun _ _ hall => ?_
  refine (hall.mapM fun _ _ _ hblock => BasicBlock.readsLong hblock).bind fun _ => ?_
  refine h.require_bind _ "locals" rfl ⟨nofun, nofun⟩ fun _ _ hlocals => ?_
  refine hlocals.elements_bind fun _ _ hall => ?_
  refine (hall.mapM fun _ _ _ hdecl => LocalDecl.readsLong hdecl).bind fun _ => ?_
  refine .asObject_bind ?_
  rw [h.integerOr_eq "arg_count" rfl, h.label?_eq "generator_layout" rfl]
  refine h.scopes.bind fun _ => ?_
  refine h.elementsIfGiven_bind "var_debug_info" rfl fun _ _ hall => ?_
  refine (hall.mapM fun _ _ _ hrecord => DebugRecord.readsLong hrecord).bind fun _ => ?_
  refine h.elementsIfGiven_bind "user_type_annotations" rfl fun _ _ hall => ?_
  refine (hall.mapM fun _ _ _ htype => UserType.readsLong htype).bind fun _ => ?_
  refine .bind_right _ fun _ => ?_
  have htype : WritesOut (.node .ty) _ _ := h.field "yield_ty"
  dsimp only
  refine htype.ifNotNull nofun ((h.span rfl).bind_left _) ?_
  exact (Ty.readsLong htype).bind fun _ => (h.span rfl).bind_left _

/-! ## Items and programs -/

theorem Body.readsLong? : ReadsLong (.node .body) (Body.read? names) := by
  refine readsLong_of_fields (by decide) fun fields long h => ?_
  exact (Body.readsLong (.node h)).bind_left _

theorem Item.readsLong : ReadsLong (.node .item) (Item.read names) := by
  refine readsLong_of_fields (by decide) fun fields long h => ?_
  refine .asObject_bind ?_
  rw [h.member_eq "path" rfl, h.field_eq "kind" rfl, h.field_eq "initializer" rfl,
    h.flag_eq "mutable" rfl, h.flag_eq "foreign" rfl, h.label?_eq "initializer_error" rfl]
  refine .bind_right _ fun path => .bind_right _ fun id => ?_
  refine .bind_right _ fun kind? => .bind_right _ fun initializer? => ?_
  have hbody : WritesOut (.node .body) _ _ := h.field "body"
  refine (Body.readsLong? hbody).bind fun _ => ?_
  refine h.elementsIfGiven_bind "promoted" rfl fun _ _ hall => ?_
  exact (hall.mapM fun _ _ _ hbody => Body.readsLong hbody).bind_left _

/-- What an entry says about its path text is nothing that has a short form. -/
theorem Names.addEntry_writesOut {entry long : Value} (h : WritesOut (.node .item) entry long) :
    names.addEntry entry = names.addEntry long := by
  cases h with
  | same => rfl
  | short hshort => cases hshort
  | node h =>
    rw [Names.addEntry, Names.addEntry, h.require_eq "path" rfl]
    simp only [Value.asObject, Names.crateOf, bind, Except.bind, h.field_eq "crate" rfl,
      h.fieldOr_eq "local" rfl]

theorem Names.foldlM_addEntry_writesOut : ∀ {entries long : List Value} {names : Names},
    AllWriteOut .item entries long → entries.foldlM addEntry names = long.foldlM addEntry names
  | _, _, _, .nil => rfl
  | _, _, names, .cons hfirst hrest => by
    rw [List.foldlM_cons, List.foldlM_cons, addEntry_writesOut hfirst]
    congr 1
    funext names
    exact foldlM_addEntry_writesOut hrest

/-- A document that is read as a program is read as the same program with any of its short forms
written out. -/
theorem Program.read_of_writesOut {document long : Value} {p : Program}
    (h : WritesOut (.node .program) document long) (hread : Program.read document = .ok p) :
    Program.read long = .ok p := by
  have hlong : ReadsLong (.node .program) Program.read := by
    refine readsLong_of_fields (by decide) fun fields long h => ?_
    simp only [Program.read, Program.readLayout, h.field_eq "data_layout" rfl,
      h.field_eq "allocations" rfl]
    refine .bind_right _ fun _ => ?_
    refine h.elementsIfGiven_bind "items" rfl fun entries rest hall => ?_
    rw [Names.ofEntries, Names.foldlM_addEntry_writesOut hall, Names.ofEntries]
    refine .bind_right _ fun _ => .bind_right _ fun _ => .bind_right _ fun _ => ?_
    exact (hall.mapM fun _ _ _ hitem => Item.readsLong hitem).bind_left _
  exact hlong h p hread

/-- A document of a body that copies from a place to a place; it has one local, of a given type, and
a span. -/
def copyDocument (ty target source span : Value) (info : Fields) : Value :=
  .object [(.text "items", .array [.object [
    (.text "path", .string "f"),
    (.text "body", .object [
      (.text "locals", .array [.object [(.text "ty", ty)]]),
      (.text "blocks", .array [.object [
        (.text "statements", .array [.object ([
          (.text "kind", .string "assign"),
          (.text "place", target),
          (.text "rvalue", .object [
            (.text "kind", .string "use"),
            (.text "operand", .object [
              (.text "kind", .string "copy"), (.text "place", source)])])] ++ info)]),
        (.text "terminator", .object [(.text "kind", .string "return")])]]),
      (.text "span", span)])]])]

/-- A local copied to itself, in short. -/
def shortCopy : Value := copyDocument (.string "u8") (.string "_0") (.string "_0") .null []

/-- The same with all written out but the place that is copied from. -/
def longCopy : Value :=
  copyDocument
    (.object [(.text "name", .string "u8"), (.text "consts", .array [])])
    (.object [(.text "local", .string "0")])
    (.string "_0")
    (.array [.string "no-location", .integer 0, .integer 0, .integer 0, .integer 0])
    [(.text "source_info", .object [(.text "span", .null), (.text "scope", .integer 0)])]

/-- The program that both write. -/
def copyProgram : Program :=
  { items := [{
      id := { crate := .string "crate", path := [⟨"f", 0⟩] }
      body? := some {
        blocks := [{
          statements := [⟨{}, .assign ⟨0, []⟩ (.use (.copy ⟨0, []⟩))⟩]
          terminator := ⟨{}, .return⟩ }]
        locals := [{ ty := .named "u8" }] } }] }

theorem writesOut_copy : WritesOut (.node .program) shortCopy longCopy := by
  refine .node (.given (.nodes (.cons (.node (.given .same (.given ?body .nil))) .nil)) .nil)
  refine .node (.given ?locals (.given ?blocks (.given (.short .span) .nil)))
  case locals => exact .nodes (.cons (.node (.given (.short (.tyConsts (.text "u8"))) .nil)) .nil)
  case blocks =>
    refine .nodes (.cons (.node (.given (.nodes (.cons ?statement .nil)) (.given .same .nil))) .nil)
    exact .node (.given .same (.given (.short (.place "0"))
      (.given .same (.absent rfl .sourceInfo .nil))))

/-- The short and the long document write one program. -/
theorem read_of_writesOut_copy :
    WritesOut (.node .program) shortCopy longCopy ∧
      Program.read shortCopy = .ok copyProgram ∧
      Program.read longCopy = .ok copyProgram := by
  have hread : Program.read shortCopy = .ok copyProgram := by with_unfolding_all rfl
  exact ⟨writesOut_copy, hread, Program.read_of_writesOut writesOut_copy hread⟩

end MirListing
