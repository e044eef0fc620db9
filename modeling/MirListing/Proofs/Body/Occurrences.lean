import MirListing.Proofs.Body.Parts
import MirListing.Proofs.Lists
import MirListing.Proofs.Memory.Scan

/-!
# Where constants occur

A constant occurs in a body as the literal of an operand, or inside a type.  `Body.Occurs` is put
together from the operands, the places and the types that a body has: operands stand in statements
and terminators, places there, in operands and in debug records, and types there, behind the steps
of places, in literals, and in the declarations of a body.  A type holds constants, and these have
types in turn, to any depth (`Embeds`).

The walk over the parts of a body finds just these (`mem_constants_body`).  What a body refers to is
therefore known from its constants alone: `allocIds` lists the handles in the values of those that
occur, each where the walk first comes to it (`allocIds_of_occurring`).
-/

namespace MirListing

/-- A constant stands in a type, or in the type of a constant that does. -/
inductive Embeds : Ty → Const → Prop
  | here {ty : Ty} {c : Const} : c ∈ ty.consts → Embeds ty c
  | deeper {ty : Ty} {outer c : Const} : outer ∈ ty.consts → Embeds outer.ty c → Embeds ty c

/-! ## Operands, places and types -/

/-- The types of what is put together. -/
def AggregateKind.types : AggregateKind → List Ty
  | .array ty => [ty]
  | .closure _ substs | .generator _ substs _ => substs
  | .tuple | .adt _ _ _ _ => []

/-- The places of a computed value outside its operands. -/
def Rvalue.places : Rvalue → List Place
  | .ref place _ _ | .addressOf place _ | .len place | .discriminant place => [place]
  | .use _ | .repeated _ _ | .cast _ _ _ | .binary _ _ _ | .checkedBinary _ _ _ | .unary _ _
  | .nullary _ _ | .aggregate _ _ => []

/-- The types of a computed value outside its operands and places. -/
def Rvalue.types : Rvalue → List Ty
  | .cast _ ty _ | .nullary _ ty => [ty]
  | .aggregate kind _ => kind.types
  | .use _ | .repeated _ _ | .ref _ _ _ | .addressOf _ _ | .len _ | .binary _ _ _
  | .checkedBinary _ _ _ | .unary _ _ | .discriminant _ => []

/-- The value that a statement assigns. -/
def StatementKind.value? : StatementKind → Option Rvalue
  | .assign _ value => some value
  | .fakeRead _ _ | .setDiscriminant _ _ | .storageLive _ | .storageDead _ | .retag _ _
  | .ascribeUserType _ _ _ | .nop => none

/-- The places of a statement outside the value it assigns. -/
def StatementKind.places : StatementKind → List Place
  | .assign place _ | .fakeRead _ place | .setDiscriminant place _ | .retag place _
  | .ascribeUserType place _ _ => [place]
  | .storageLive _ | .storageDead _ | .nop => []

/-- The places of a terminator outside its operands. -/
def TerminatorKind.places : TerminatorKind → List Place
  | .drop place _ _ | .dropAndReplace place _ _ _ | .yield _ _ place _ => [place]
  | .call _ _ destination _ _ => destination.toList
  | .goto _ | .switchInt _ _ _ _ | .resume | .abort | .return | .unreachable | .generatorDrop
  | .assert _ _ _ _ _ | .falseEdges _ _ | .falseUnwind _ _ => []

/-- The types of a terminator outside its operands and places. -/
def TerminatorKind.types : TerminatorKind → List Ty
  | .switchInt _ ty _ _ => [ty]
  | .goto _ | .resume | .abort | .return | .unreachable | .generatorDrop | .drop _ _ _
  | .dropAndReplace _ _ _ _ | .call _ _ _ _ _ | .assert _ _ _ _ _ | .yield _ _ _ _
  | .falseEdges _ _ | .falseUnwind _ _ => []

namespace Body

/-- A value that some statement of a body assigns. -/
def Assigns (body : Body) (value : Rvalue) : Prop :=
  ∃ block ∈ body.blocks, ∃ s ∈ block.statements, s.kind.value? = some value

/-- The operands of a body. -/
inductive HasOperand (body : Body) : Operand → Prop
  | value {value : Rvalue} {o : Operand} : body.Assigns value → o ∈ value.operands →
      HasOperand body o
  | terminator {block : BasicBlock} {o : Operand} : block ∈ body.blocks →
      o ∈ block.terminator.kind.operands → HasOperand body o

/-- The places of a body. -/
inductive HasPlace (body : Body) : Place → Prop
  | statement {block : BasicBlock} {s : Statement} {place : Place} : block ∈ body.blocks →
      s ∈ block.statements → place ∈ s.kind.places → HasPlace body place
  | value {value : Rvalue} {place : Place} : body.Assigns value → place ∈ value.places →
      HasPlace body place
  | terminator {block : BasicBlock} {place : Place} : block ∈ body.blocks →
      place ∈ block.terminator.kind.places → HasPlace body place
  | copy {place : Place} : HasOperand body (.copy place) → HasPlace body place
  | move {place : Place} : HasOperand body (.move place) → HasPlace body place
  | debug {record : DebugRecord} : record ∈ body.debugRecords → HasPlace body record.place

/-- The types of a body. -/
inductive HasType (body : Body) : Ty → Prop
  | slot {decl : LocalDecl} : decl ∈ body.locals → HasType body decl.ty
  | field {place : Place} {number : Int} {ty : Ty} : HasPlace body place →
      .field number ty ∈ place.projection → HasType body ty
  | value {value : Rvalue} {ty : Ty} : body.Assigns value → ty ∈ value.types → HasType body ty
  | terminator {block : BasicBlock} {ty : Ty} : block ∈ body.blocks →
      ty ∈ block.terminator.kind.types → HasType body ty
  | literal {k : Constant} : HasOperand body (.constant k) → HasType body k.literal.ty
  | writtenDown {userType : UserType} : userType ∈ body.userTypes → HasType body userType.inferred
  | yielded {ty : Ty} : body.yieldType? = some ty → HasType body ty

/-- The constants of a body: the literals of its operands and what stands in its types. -/
inductive Occurs (body : Body) : Const → Prop
  | literal {k : Constant} : HasOperand body (.constant k) → Occurs body k.literal
  | embedded {ty : Ty} {c : Const} : HasType body ty → Embeds ty c → Occurs body c

end Body

/-! ## The constants of a part -/

section

variable {c : Const}

theorem mem_fieldConstants {fields : List Part} :
    c ∈ fieldConstants fields ↔ ∃ field ∈ fields, c ∈ field.constants := by
  induction fields with
  | nil => simp [fieldConstants]
  | cons field rest ih => simp [fieldConstants, ih]

@[simp] theorem mem_constants_leaf : c ∈ Part.leaf.constants ↔ False := by simp [Part.constants]

@[simp] theorem mem_constants_node {fields : List Part} :
    c ∈ (Part.node fields).constants ↔ ∃ field ∈ fields, c ∈ field.constants := mem_fieldConstants

@[simp] theorem mem_constants_const {d : Const} {fields : List Part} :
    c ∈ (Part.const d fields).constants ↔ (∃ field ∈ fields, c ∈ field.constants) ∨ c = d := by
  rw [Part.constants, List.mem_append, mem_fieldConstants, List.mem_singleton]

@[simp] theorem mem_constants_list {α : Type} {part : α → Part} {l : List α} :
    c ∈ (Part.list part l).constants ↔ ∃ a ∈ l, c ∈ (part a).constants := by
  rw [Part.list, mem_constants_node]
  constructor
  · rintro ⟨_, hfield, hc⟩
    obtain ⟨a, ha, rfl⟩ := List.mem_map.1 hfield
    exact ⟨a, ha, hc⟩
  · rintro ⟨a, ha, hc⟩
    exact ⟨_, List.mem_map_of_mem ha, hc⟩

@[simp] theorem mem_constants_option {α : Type} {part : α → Part} {o : Option α} :
    c ∈ (Part.option part o).constants ↔ ∃ a, o = some a ∧ c ∈ (part a).constants := by
  cases o <;> simp [Part.option]

theorem node_constParts (consts : List Const) :
    Part.node (constParts consts) = .list Const.part consts := by
  have hmap : constParts consts = consts.map Const.part := by
    induction consts with
    | nil => rfl
    | cons c rest ih => rw [constParts, ih, List.map_cons]
  rw [hmap, Part.list]

theorem mem_constants_constPart {d : Const} :
    c ∈ d.part.constants ↔ c ∈ d.ty.part.constants ∨ c = d := by
  obtain ⟨ty, value⟩ := d
  simp [Const.part, Const.ty]

theorem mem_constants_tyPart {ty : Ty} :
    c ∈ ty.part.constants ↔ ∃ d ∈ ty.consts, c ∈ d.part.constants := by
  obtain ⟨name, consts⟩ := ty
  simp [Ty.part, Ty.consts, node_constParts]

-- the recursion goes down from a type to its constants and from a constant to its type
mutual

theorem Ty.embeds_of_mem : ∀ ty : Ty, c ∈ ty.part.constants → Embeds ty c
  | .mk name consts, h => by
      obtain ⟨d, hd, hc⟩ := mem_constants_tyPart.1 h
      rcases embeds_of_mem_consts consts d hd hc with hinner | rfl
      · exact .deeper hd hinner
      · exact .here hd

theorem Const.embeds_of_mem : ∀ d : Const, c ∈ d.part.constants → Embeds d.ty c ∨ c = d
  | .mk ty value, h => by
      rcases mem_constants_constPart.1 h with hty | heq
      · exact .inl (Ty.embeds_of_mem ty hty)
      · exact .inr heq

theorem embeds_of_mem_consts : ∀ (consts : List Const) (d : Const), d ∈ consts →
    c ∈ d.part.constants → Embeds d.ty c ∨ c = d
  | [], _, hd, _ => by cases hd
  | first :: rest, d, hd, h => by
      rcases List.mem_cons.1 hd with heq | hrest
      · exact heq ▸ Const.embeds_of_mem first (heq ▸ h)
      · exact embeds_of_mem_consts rest d hrest h

end

/-- A type holds the constants that are embedded in it. -/
theorem mem_constants_ty {ty : Ty} : c ∈ ty.part.constants ↔ Embeds ty c := by
  constructor
  · exact Ty.embeds_of_mem ty
  · intro h
    induction h with
    | here hc => exact mem_constants_tyPart.2 ⟨_, hc, mem_constants_constPart.2 (.inr rfl)⟩
    | deeper houter _ ih =>
      exact mem_constants_tyPart.2 ⟨_, houter, mem_constants_constPart.2 (.inl ih)⟩

theorem mem_constants_place {place : Place} :
    c ∈ place.part.constants ↔
      ∃ number ty, .field number ty ∈ place.projection ∧ Embeds ty c := by
  have hstep : ∀ step : Projection, c ∈ step.part.constants ↔
      ∃ number ty, step = .field number ty ∧ Embeds ty c := by
    intro step
    cases step with
    | field number ty =>
      have hpart : c ∈ (Projection.field number ty).part.constants ↔ Embeds ty c := by
        simp [Projection.part, mem_constants_ty]
      rw [hpart]
      constructor
      · intro hc
        exact ⟨number, ty, rfl, hc⟩
      · rintro ⟨_, _, heq, hc⟩
        cases heq
        exact hc
    | _ => simp [Projection.part]
  simp only [Place.part, mem_constants_node, List.mem_cons, List.not_mem_nil, or_false,
    exists_eq_or_imp, exists_eq_left, mem_constants_leaf, mem_constants_list, false_or, hstep]
  constructor
  · rintro ⟨_, hmem, number, ty, rfl, hc⟩
    exact ⟨number, ty, hmem, hc⟩
  · rintro ⟨number, ty, hmem, hc⟩
    exact ⟨_, hmem, number, ty, rfl, hc⟩

theorem mem_constants_operand {o : Operand} :
    c ∈ o.part.constants ↔
      (∃ place, (o = .copy place ∨ o = .move place) ∧ c ∈ place.part.constants) ∨
        ∃ k, o = .constant k ∧ (Embeds k.literal.ty c ∨ c = k.literal) := by
  cases o with
  | copy place => simp [Operand.part]
  | move place => simp [Operand.part]
  | constant k =>
    simp [Operand.part, Constant.part, mem_constants_constPart, mem_constants_ty]

theorem mem_constants_aggregateKind {kind : AggregateKind} :
    c ∈ kind.part.constants ↔ ∃ ty ∈ kind.types, c ∈ ty.part.constants := by
  cases kind <;> simp [AggregateKind.part, AggregateKind.types]

theorem mem_constants_rvalue {value : Rvalue} :
    c ∈ value.part.constants ↔ (∃ o ∈ value.operands, c ∈ o.part.constants) ∨
      (∃ place ∈ value.places, c ∈ place.part.constants) ∨
        ∃ ty ∈ value.types, c ∈ ty.part.constants := by
  cases value <;>
    simp [Rvalue.part, Rvalue.operands, Rvalue.places, Rvalue.types, mem_constants_aggregateKind,
      or_comm]

theorem mem_constants_statementKind {kind : StatementKind} :
    c ∈ kind.part.constants ↔ (∃ place ∈ kind.places, c ∈ place.part.constants) ∨
      ∃ value, kind.value? = some value ∧ c ∈ value.part.constants := by
  cases kind <;> simp [StatementKind.part, StatementKind.places, StatementKind.value?]

theorem mem_constants_terminatorKind {kind : TerminatorKind} :
    c ∈ kind.part.constants ↔ (∃ o ∈ kind.operands, c ∈ o.part.constants) ∨
      (∃ place ∈ kind.places, c ∈ place.part.constants) ∨
        ∃ ty ∈ kind.types, c ∈ ty.part.constants := by
  cases kind <;>
    simp [TerminatorKind.part, TerminatorKind.operands, TerminatorKind.places,
      TerminatorKind.types, or_comm, or_assoc]

/-! ## The constants of a body -/

variable {body : Body}

theorem mem_constants_block {block : BasicBlock} :
    c ∈ block.part.constants ↔ (∃ s ∈ block.statements, c ∈ s.kind.part.constants) ∨
      c ∈ block.terminator.kind.part.constants := by
  simp [BasicBlock.part, Statement.part, Terminator.part]

theorem mem_constants_bodyPart :
    c ∈ body.part.constants ↔ (∃ block ∈ body.blocks, c ∈ block.part.constants) ∨
      (∃ decl ∈ body.locals, c ∈ decl.ty.part.constants) ∨
      (∃ record ∈ body.debugRecords, c ∈ record.place.part.constants) ∨
      (∃ userType ∈ body.userTypes, c ∈ userType.inferred.part.constants) ∨
      ∃ ty, body.yieldType? = some ty ∧ c ∈ ty.part.constants := by
  simp [Body.part, LocalDecl.part, DebugRecord.part, UserType.part]

/-! ### What the walk finds occurs -/

theorem occurs_of_type {ty : Ty} (hty : body.HasType ty) (hc : c ∈ ty.part.constants) :
    body.Occurs c :=
  .embedded hty (mem_constants_ty.1 hc)

theorem occurs_of_place {place : Place} (hplace : body.HasPlace place)
    (hc : c ∈ place.part.constants) : body.Occurs c := by
  obtain ⟨number, ty, hstep, hembeds⟩ := mem_constants_place.1 hc
  exact .embedded (.field hplace hstep) hembeds

theorem occurs_of_operand {o : Operand} (ho : body.HasOperand o) (hc : c ∈ o.part.constants) :
    body.Occurs c := by
  obtain ⟨place, rfl | rfl, hplace⟩ | ⟨k, rfl, hembeds | rfl⟩ := mem_constants_operand.1 hc
  · exact occurs_of_place (.copy ho) hplace
  · exact occurs_of_place (.move ho) hplace
  · exact .embedded (.literal ho) hembeds
  · exact .literal ho

theorem occurs_of_block {block : BasicBlock} (hblock : block ∈ body.blocks)
    (hc : c ∈ block.part.constants) : body.Occurs c := by
  rcases mem_constants_block.1 hc with ⟨s, hs, hstatement⟩ | hterminator
  · rcases mem_constants_statementKind.1 hstatement with
      ⟨place, hplace, hin⟩ | ⟨value, hvalue, hin⟩
    · exact occurs_of_place (.statement hblock hs hplace) hin
    · have hassigns : body.Assigns value := ⟨block, hblock, s, hs, hvalue⟩
      rcases mem_constants_rvalue.1 hin with ⟨o, ho, hin⟩ | ⟨place, hplace, hin⟩ | ⟨ty, hty, hin⟩
      · exact occurs_of_operand (.value hassigns ho) hin
      · exact occurs_of_place (.value hassigns hplace) hin
      · exact occurs_of_type (.value hassigns hty) hin
  · rcases mem_constants_terminatorKind.1 hterminator with
      ⟨o, ho, hin⟩ | ⟨place, hplace, hin⟩ | ⟨ty, hty, hin⟩
    · exact occurs_of_operand (.terminator hblock ho) hin
    · exact occurs_of_place (.terminator hblock hplace) hin
    · exact occurs_of_type (.terminator hblock hty) hin

/-! ### What occurs is found by the walk -/

theorem mem_of_assigned {value : Rvalue} (hvalue : body.Assigns value)
    (hc : c ∈ value.part.constants) : c ∈ body.part.constants := by
  obtain ⟨block, hblock, s, hs, hkind⟩ := hvalue
  have hstatement := mem_constants_statementKind.2 (.inr ⟨value, hkind, hc⟩)
  exact mem_constants_bodyPart.2
    (.inl ⟨block, hblock, mem_constants_block.2 (.inl ⟨s, hs, hstatement⟩)⟩)

theorem mem_of_terminator {block : BasicBlock} (hblock : block ∈ body.blocks)
    (hc : c ∈ block.terminator.kind.part.constants) : c ∈ body.part.constants :=
  mem_constants_bodyPart.2 (.inl ⟨block, hblock, mem_constants_block.2 (.inr hc)⟩)

theorem mem_of_operand {o : Operand} (ho : body.HasOperand o) (hc : c ∈ o.part.constants) :
    c ∈ body.part.constants := by
  cases ho with
  | value hvalue ho => exact mem_of_assigned hvalue (mem_constants_rvalue.2 (.inl ⟨o, ho, hc⟩))
  | terminator hblock ho =>
    exact mem_of_terminator hblock (mem_constants_terminatorKind.2 (.inl ⟨o, ho, hc⟩))

theorem mem_of_place {place : Place} (hplace : body.HasPlace place)
    (hc : c ∈ place.part.constants) : c ∈ body.part.constants := by
  cases hplace with
  | @statement block s _ hblock hs hplace =>
    have hstatement := mem_constants_statementKind.2 (.inl ⟨place, hplace, hc⟩)
    exact mem_constants_bodyPart.2
      (.inl ⟨block, hblock, mem_constants_block.2 (.inl ⟨s, hs, hstatement⟩)⟩)
  | value hvalue hplace =>
    exact mem_of_assigned hvalue (mem_constants_rvalue.2 (.inr (.inl ⟨place, hplace, hc⟩)))
  | terminator hblock hplace =>
    exact mem_of_terminator hblock
      (mem_constants_terminatorKind.2 (.inr (.inl ⟨place, hplace, hc⟩)))
  | copy ho => exact mem_of_operand ho (mem_constants_operand.2 (.inl ⟨place, .inl rfl, hc⟩))
  | move ho => exact mem_of_operand ho (mem_constants_operand.2 (.inl ⟨place, .inr rfl, hc⟩))
  | debug hrecord => exact mem_constants_bodyPart.2 (.inr (.inr (.inl ⟨_, hrecord, hc⟩)))

theorem mem_of_type {ty : Ty} (hty : body.HasType ty) (hc : c ∈ ty.part.constants) :
    c ∈ body.part.constants := by
  cases hty with
  | slot hdecl => exact mem_constants_bodyPart.2 (.inr (.inl ⟨_, hdecl, hc⟩))
  | @field place number _ hplace hstep =>
    exact mem_of_place hplace
      (mem_constants_place.2 ⟨number, ty, hstep, mem_constants_ty.1 hc⟩)
  | value hvalue hty =>
    exact mem_of_assigned hvalue (mem_constants_rvalue.2 (.inr (.inr ⟨ty, hty, hc⟩)))
  | terminator hblock hty =>
    exact mem_of_terminator hblock (mem_constants_terminatorKind.2 (.inr (.inr ⟨ty, hty, hc⟩)))
  | @literal k ho =>
    exact mem_of_operand ho (mem_constants_operand.2 (.inr ⟨k, rfl, .inl (mem_constants_ty.1 hc)⟩))
  | writtenDown huserType =>
    exact mem_constants_bodyPart.2 (.inr (.inr (.inr (.inl ⟨_, huserType, hc⟩))))
  | yielded hyield => exact mem_constants_bodyPart.2 (.inr (.inr (.inr (.inr ⟨_, hyield, hc⟩))))

/-- The walk over a body finds the constants that occur in it. -/
theorem mem_constants_body : c ∈ body.part.constants ↔ body.Occurs c := by
  constructor
  · intro hc
    rcases mem_constants_bodyPart.1 hc with ⟨block, hblock, hin⟩ | ⟨decl, hdecl, hin⟩ |
      ⟨record, hrecord, hin⟩ | ⟨userType, huserType, hin⟩ | ⟨ty, hyield, hin⟩
    · exact occurs_of_block hblock hin
    · exact occurs_of_type (.slot hdecl) hin
    · exact occurs_of_place (.debug hrecord) hin
    · exact occurs_of_type (.writtenDown huserType) hin
    · exact occurs_of_type (.yielded hyield) hin
  · rintro (@⟨k, ho⟩ | ⟨hty, hembeds⟩)
    · exact mem_of_operand ho (mem_constants_operand.2 (.inr ⟨k, rfl, .inr rfl⟩))
    · exact mem_of_type hty (mem_constants_ty.2 hembeds)

end

/-! ## The handles of a body -/

/-- What a value refers to: the target of a pointer, or what the pointers stored in its memory
target. -/
inductive ConstValue.Refers : ConstValue → AllocId → Prop
  | pointer {id : AllocId} {offset : Int} : Refers (.pointer id offset) id
  | byRef {a : Allocation} {start : Int} {i : Nat} {id : AllocId} : (i, id) ∈ a.relocations →
      Refers (.byRef a start) id
  | slice {a : Allocation} {start stop : Int} {i : Nat} {id : AllocId} : (i, id) ∈ a.relocations →
      Refers (.slice a start stop) id

theorem ConstValue.mem_allocIds {value : ConstValue} {id : AllocId} :
    id ∈ value.allocIds ↔ value.Refers id := by
  constructor
  · intro h
    cases value with
    | pointer target offset =>
      obtain rfl := List.mem_singleton.1 h
      exact .pointer
    | byRef a start =>
      obtain ⟨i, hi⟩ := Allocation.mem_targets.1 h
      exact .byRef hi
    | slice a start stop =>
      obtain ⟨i, hi⟩ := Allocation.mem_targets.1 h
      exact .slice hi
    | scalar _ _ | unevaluated _ _ => cases h
  · intro h
    cases h with
    | pointer => exact List.mem_singleton.2 rfl
    | byRef hi | slice hi => exact Allocation.mem_targets.2 ⟨_, hi⟩

/-- A body refers to the handles in the values of the constants that occur in it, and lists each of
them once, where the walk over its parts first comes to it.  The walk finds all constants that occur
and no others, those of a constant's type before the constant itself; the handles that memory refers
to come in the order of their offsets. -/
theorem allocIds_of_occurring (body : Body) :
    body.allocIds.Nodup ∧
    (∀ id, id ∈ body.allocIds ↔ ∃ c, body.Occurs c ∧ c.value.Refers id) ∧
    body.allocIds = body.part.allocIds.eraseDups ∧
    body.allocIds.Pairwise (fun a b => body.part.allocIds.idxOf a < body.part.allocIds.idxOf b) ∧
    (∀ c, c ∈ body.part.constants ↔ body.Occurs c) ∧
    (∀ c : Const, c.part.constants = c.ty.part.constants ++ [c]) ∧
    ∀ a : Allocation, (a.relocations.map Prod.fst).Pairwise (· < ·) ∧
      (∀ start, (ConstValue.byRef a start).allocIds = a.relocations.map Prod.snd) ∧
      ∀ start stop, (ConstValue.slice a start stop).allocIds = a.relocations.map Prod.snd := by
  have hids : body.allocIds = body.part.allocIds.eraseDups := by rw [Body.allocIds, mentions_eq]
  have horder := pairwise_eraseDups body.part.allocIds
  rw [← hids] at horder
  refine ⟨?_, fun id => ?_, hids, horder, fun c => mem_constants_body, fun c => ?_, fun a => ?_⟩
  · refine horder.imp (S := (· ≠ ·)) ?_
    rintro a _ hlt rfl
    exact Nat.lt_irrefl _ hlt
  · rw [hids, List.mem_eraseDups, Part.allocIds, List.mem_flatMap]
    constructor
    · rintro ⟨c, hc, hid⟩
      exact ⟨c, mem_constants_body.1 hc, ConstValue.mem_allocIds.1 hid⟩
    · rintro ⟨c, hc, hid⟩
      exact ⟨c, mem_constants_body.2 hc, ConstValue.mem_allocIds.2 hid⟩
  · obtain ⟨ty, value⟩ := c
    simp [Const.part, Const.ty, Part.constants, fieldConstants]
  · obtain ⟨htargets, hoffsets⟩ := targets_eq_relocations a
    exact ⟨hoffsets, fun _ => htargets, fun _ _ => htargets⟩

end MirListing
