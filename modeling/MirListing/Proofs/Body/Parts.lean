import MirListing.Body.Basic

/-!
# The parts of a body

Every part of a body is a node with its fields.  `part` gives them for each kind of node, all of
them and in the order in which they are declared; what holds no constant is a `leaf`.  A constant is
a node as well, since its type is a field of it.

`constants` walks over a part field by field, children first, so it finds the constants of a
constant's type before the constant itself.  The handles that a body mentions are those that the
constants of the walk refer to, one after another (`mentions_eq`).
-/

namespace MirListing

/-- A node of a body with its fields. -/
inductive Part
  /-- A node that holds no constant. -/
  | leaf
  /-- A node, or a list of nodes. -/
  | node (fields : List Part)
  /-- A constant. -/
  | const (c : Const) (fields : List Part)

mutual

/-- The constants of a part, children first. -/
def Part.constants : Part → List Const
  | .leaf => []
  | .node fields => fieldConstants fields
  | .const c fields => fieldConstants fields ++ [c]

/-- The constants of fields in order. -/
def fieldConstants : List Part → List Const
  | [] => []
  | field :: rest => field.constants ++ fieldConstants rest

end

/-- The handles that the constants of a part refer to, as often as they do. -/
def Part.allocIds (p : Part) : List AllocId := p.constants.flatMap fun c => c.value.allocIds

/-! ## Parts of each kind -/

mutual

/-- A type. -/
def Ty.part : Ty → Part
  | .mk _ consts => .node [.leaf, .node (constParts consts)]

/-- A constant. -/
def Const.part : Const → Part
  | .mk ty value => .const (.mk ty value) [ty.part, .leaf]

/-- Constants one after another. -/
def constParts : List Const → List Part
  | [] => []
  | c :: rest => c.part :: constParts rest

end

/-- A list of nodes. -/
def Part.list {α : Type} (part : α → Part) (l : List α) : Part := .node (l.map part)

/-- A node that may be absent. -/
def Part.option {α : Type} (part : α → Part) (o : Option α) : Part := (o.map part).getD .leaf

/-- A step of a place. -/
def Projection.part : Projection → Part
  | .deref => .node []
  | .field _ ty => .node [.leaf, ty.part]
  | .index _ => .node [.leaf]
  | .constantIndex _ _ _ => .node [.leaf, .leaf, .leaf]
  | .subslice _ _ _ => .node [.leaf, .leaf, .leaf]
  | .downcast _ _ => .node [.leaf, .leaf]

/-- A place. -/
def Place.part (p : Place) : Part := .node [.leaf, .list Projection.part p.projection]

/-- A constant as an operand. -/
def Constant.part (k : Constant) : Part := .node [.leaf, k.literal.part, .leaf]

/-- An operand. -/
def Operand.part : Operand → Part
  | .copy place => .node [place.part]
  | .move place => .node [place.part]
  | .constant k => k.part

/-- What is put together. -/
def AggregateKind.part : AggregateKind → Part
  | .array ty => .node [ty.part]
  | .tuple => .node []
  | .adt _ _ _ _ => .node [.leaf, .leaf, .leaf, .leaf]
  | .closure _ substs => .node [.leaf, .list Ty.part substs]
  | .generator _ substs _ => .node [.leaf, .list Ty.part substs, .leaf]

/-- A computed value. -/
def Rvalue.part : Rvalue → Part
  | .use operand => .node [operand.part]
  | .repeated operand _ => .node [operand.part, .leaf]
  | .ref place _ _ => .node [place.part, .leaf, .leaf]
  | .addressOf place _ => .node [place.part, .leaf]
  | .len place => .node [place.part]
  | .cast operand ty _ => .node [operand.part, ty.part, .leaf]
  | .binary _ left right => .node [.leaf, left.part, right.part]
  | .checkedBinary _ left right => .node [.leaf, left.part, right.part]
  | .unary _ operand => .node [.leaf, operand.part]
  | .discriminant place => .node [place.part]
  | .nullary _ ty => .node [.leaf, ty.part]
  | .aggregate kind operands => .node [kind.part, .list Operand.part operands]

/-- What a statement does. -/
def StatementKind.part : StatementKind → Part
  | .assign place value => .node [place.part, value.part]
  | .fakeRead _ place => .node [.leaf, place.part]
  | .setDiscriminant place _ => .node [place.part, .leaf]
  | .storageLive _ => .node [.leaf]
  | .storageDead _ => .node [.leaf]
  | .retag place _ => .node [place.part, .leaf]
  | .ascribeUserType place _ _ => .node [place.part, .leaf, .leaf]
  | .nop => .node []

/-- A statement. -/
def Statement.part (s : Statement) : Part := .node [.leaf, s.kind.part]

/-- How a block ends. -/
def TerminatorKind.part : TerminatorKind → Part
  | .goto _ => .node [.leaf]
  | .switchInt scrutinee ty _ _ => .node [scrutinee.part, ty.part, .leaf, .leaf]
  | .resume => .node []
  | .abort => .node []
  | .return => .node []
  | .unreachable => .node []
  | .generatorDrop => .node []
  | .drop place _ _ => .node [place.part, .leaf, .leaf]
  | .dropAndReplace place value _ _ => .node [place.part, value.part, .leaf, .leaf]
  | .call function arguments destination _ _ =>
      .node [function.part, .list Operand.part arguments, .option Place.part destination,
        .leaf, .leaf]
  | .assert condition _ _ _ _ => .node [condition.part, .leaf, .leaf, .leaf, .leaf]
  | .yield value _ resumeArgument _ => .node [value.part, .leaf, resumeArgument.part, .leaf]
  | .falseEdges _ _ => .node [.leaf, .leaf]
  | .falseUnwind _ _ => .node [.leaf, .leaf]

/-- A terminator. -/
def Terminator.part (t : Terminator) : Part := .node [.leaf, t.kind.part]

/-- A block. -/
def BasicBlock.part (b : BasicBlock) : Part :=
  .node [.list Statement.part b.statements, b.terminator.part, .leaf]

/-- A local. -/
def LocalDecl.part (decl : LocalDecl) : Part := .node [decl.ty.part, .leaf, .leaf, .leaf]

/-- A debug record. -/
def DebugRecord.part (record : DebugRecord) : Part := .node [.leaf, .leaf, record.place.part]

/-- A type that has been written down. -/
def UserType.part (userType : UserType) : Part := .node [.leaf, .leaf, userType.inferred.part]

/-- A body: blocks, locals, scopes, the number of arguments, debug records, the types that have been
written down, what is handed out, the layout of a generator and the region. -/
def Body.part (body : Body) : Part :=
  .node [.list BasicBlock.part body.blocks, .list LocalDecl.part body.locals, .leaf, .leaf,
    .list DebugRecord.part body.debugRecords, .list UserType.part body.userTypes,
    .option Ty.part body.yieldType?, .leaf, .leaf]

/-! ## Handles in order -/

@[simp] theorem allocIds_leaf : Part.leaf.allocIds = [] := rfl

theorem flatMap_fieldConstants (fields : List Part) :
    (fieldConstants fields).flatMap (fun c => c.value.allocIds) = fields.flatMap Part.allocIds := by
  induction fields with
  | nil => rfl
  | cons field rest ih =>
    rw [fieldConstants, List.flatMap_append, ih, List.flatMap_cons]
    rfl

@[simp] theorem allocIds_node (fields : List Part) :
    (Part.node fields).allocIds = fields.flatMap Part.allocIds := flatMap_fieldConstants fields

@[simp] theorem allocIds_const (c : Const) (fields : List Part) :
    (Part.const c fields).allocIds = fields.flatMap Part.allocIds ++ c.value.allocIds := by
  rw [Part.allocIds, Part.constants, List.flatMap_append, flatMap_fieldConstants,
    List.flatMap_singleton]

@[simp] theorem allocIds_list {α : Type} (part : α → Part) (l : List α) :
    (Part.list part l).allocIds = l.flatMap fun a => (part a).allocIds := by
  rw [Part.list, allocIds_node, List.flatMap_map]

@[simp] theorem allocIds_option {α : Type} (part : α → Part) (o : Option α) :
    (Part.option part o).allocIds = (o.map fun a => (part a).allocIds).getD [] := by
  cases o <;> rfl

mutual

@[simp] theorem Ty.allocIds_part : ∀ ty : Ty, ty.part.allocIds = ty.allocIds
  | .mk _ consts => by
      rw [Ty.part, Ty.allocIds, ← allocIds_constParts consts]
      simp

@[simp] theorem Const.allocIds_part : ∀ c : Const, c.part.allocIds = c.allocIds
  | .mk ty value => by
      rw [Const.part, Const.allocIds, ← Ty.allocIds_part ty]
      simp [Const.value]

theorem allocIds_constParts :
    ∀ consts : List Const, (constParts consts).flatMap Part.allocIds = constsAllocIds consts
  | [] => rfl
  | c :: rest => by
      rw [constParts, constsAllocIds, List.flatMap_cons, Const.allocIds_part c,
        allocIds_constParts rest]

end

@[simp] theorem Projection.allocIds_part (step : Projection) :
    step.part.allocIds = step.allocIds := by
  cases step <;> simp [Projection.part, Projection.allocIds]

@[simp] theorem Place.allocIds_part (p : Place) : p.part.allocIds = p.allocIds := by
  simp [Place.part, Place.allocIds]

@[simp] theorem Operand.allocIds_part (o : Operand) : o.part.allocIds = o.allocIds := by
  cases o <;> simp [Operand.part, Operand.allocIds, Constant.part]

@[simp] theorem AggregateKind.allocIds_part (kind : AggregateKind) :
    kind.part.allocIds = kind.allocIds := by
  cases kind <;> simp [AggregateKind.part, AggregateKind.allocIds]

@[simp] theorem Rvalue.allocIds_part (v : Rvalue) : v.part.allocIds = v.allocIds := by
  cases v <;> simp [Rvalue.part, Rvalue.allocIds]

@[simp] theorem StatementKind.allocIds_part (kind : StatementKind) :
    kind.part.allocIds = kind.allocIds := by
  cases kind <;> simp [StatementKind.part, StatementKind.allocIds]

@[simp] theorem TerminatorKind.allocIds_part (kind : TerminatorKind) :
    kind.part.allocIds = kind.allocIds := by
  cases kind <;> simp [TerminatorKind.part, TerminatorKind.allocIds]

@[simp] theorem BasicBlock.allocIds_part (b : BasicBlock) :
    b.part.allocIds = Body.blockAllocIds b := by
  simp [BasicBlock.part, Body.blockAllocIds, Statement.part, Terminator.part]

/-- A constant in the type of another comes before it. -/
example : (Ty.mk (.string "T") [.mk (.mk (.string "U") [.mk (.named "&u8") (.pointer ⟨0⟩ 0)])
    (.pointer ⟨7⟩ 0)]).part.allocIds = [⟨0⟩, ⟨7⟩] := by rfl

/-- The handles that a body mentions are those that the constants of its walk refer to. -/
theorem mentions_eq (body : Body) : body.mentions = body.part.allocIds := by
  simp [Body.mentions, Body.part, LocalDecl.part, DebugRecord.part, UserType.part]

end MirListing
