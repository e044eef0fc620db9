import MirListing.Listing.Comments
import MirListing.Proofs.Body.Occurrences

/-!
# Which comments stand below a statement

The comments of a statement or a terminator are told from its operands, kind by kind.  Here the
same comments come from a walk that knows nothing about kinds: `Element.fields` gives the fields of
a node in the order in which they are declared, `Element.walk` visits all of them before the node
itself, and `Element.ownComments` are the lines of a single node.

The walk comes to constants in the order of the parts of a body (`filterMap_const?_walk`), but only
two kinds of nodes have lines of their own: constants as operands, and aggregates.  Types, constants
in types, and places have none, and nothing inside them has (`IsPlain.collected_eq_nil`).  An
aggregate is the whole of the value that is assigned, so its lines come behind those of its operands
(`collected_value`).
-/

namespace MirListing

/-! ## The constants of a part in order -/

theorem fieldConstants_eq (fields : List Part) :
    fieldConstants fields = fields.flatMap Part.constants := by
  induction fields with
  | nil => rfl
  | cons field rest ih => rw [fieldConstants, ih, List.flatMap_cons]

@[simp] theorem constants_leaf : Part.leaf.constants = [] := rfl

@[simp] theorem constants_node (fields : List Part) :
    (Part.node fields).constants = fields.flatMap Part.constants := fieldConstants_eq fields

@[simp] theorem constants_const (c : Const) (fields : List Part) :
    (Part.const c fields).constants = fields.flatMap Part.constants ++ [c] := by
  rw [Part.constants, fieldConstants_eq]

@[simp] theorem constants_list {α : Type} (part : α → Part) (l : List α) :
    (Part.list part l).constants = l.flatMap fun a => (part a).constants := by
  rw [Part.list, constants_node, List.flatMap_map]

@[simp] theorem constants_option {α : Type} (part : α → Part) (o : Option α) :
    (Part.option part o).constants = o.toList.flatMap fun a => (part a).constants := by
  cases o <;> simp [Part.option]

/-! ## The walk -/

/-- A node of a statement or a terminator. -/
inductive Element
  | ty (ty : Ty)
  | const (c : Const)
  | step (step : Projection)
  | place (place : Place)
  | operand (o : Operand)
  | aggregateKind (kind : AggregateKind)
  | value (value : Rvalue)
  | statementKind (kind : StatementKind)
  | statement (s : Statement)
  | terminatorKind (kind : TerminatorKind)
  | terminator (t : Terminator)

namespace Element

/-- The nodes in the fields of a node, as the fields are declared.  Numbers, names, spans, items and
the values of constants are no nodes. -/
def fields : Element → List Element
  | .ty t => t.consts.map .const
  | .const c => [.ty c.ty]
  | .step (.field _ t) => [.ty t]
  | .step .deref | .step (.index _) | .step (.constantIndex _ _ _) | .step (.subslice _ _ _)
  | .step (.downcast _ _) => []
  | .place p => p.projection.map .step
  | .operand (.copy p) | .operand (.move p) => [.place p]
  | .operand (.constant k) => [.const k.literal]
  | .aggregateKind (.array t) => [.ty t]
  | .aggregateKind .tuple | .aggregateKind (.adt _ _ _ _) => []
  | .aggregateKind (.closure _ substs) | .aggregateKind (.generator _ substs _) => substs.map .ty
  | .value (.use o) | .value (.repeated o _) | .value (.unary _ o) => [.operand o]
  | .value (.ref p _ _) | .value (.addressOf p _) | .value (.len p) | .value (.discriminant p) =>
      [.place p]
  | .value (.cast o t _) => [.operand o, .ty t]
  | .value (.binary _ left right) | .value (.checkedBinary _ left right) =>
      [.operand left, .operand right]
  | .value (.nullary _ t) => [.ty t]
  | .value (.aggregate kind operands) => .aggregateKind kind :: operands.map .operand
  | .statementKind (.assign p v) => [.place p, .value v]
  | .statementKind (.fakeRead _ p) | .statementKind (.setDiscriminant p _)
  | .statementKind (.retag p _) | .statementKind (.ascribeUserType p _ _) => [.place p]
  | .statementKind (.storageLive _) | .statementKind (.storageDead _) | .statementKind .nop => []
  | .statement s => [.statementKind s.kind]
  | .terminatorKind (.switchInt scrutinee t _ _) => [.operand scrutinee, .ty t]
  | .terminatorKind (.drop p _ _) => [.place p]
  | .terminatorKind (.dropAndReplace p o _ _) => [.place p, .operand o]
  | .terminatorKind (.call function arguments destination _ _) =>
      .operand function :: (arguments.map .operand ++ destination.toList.map .place)
  | .terminatorKind (.assert condition _ _ _ _) => [.operand condition]
  | .terminatorKind (.yield o _ resumeArgument _) => [.operand o, .place resumeArgument]
  | .terminatorKind (.goto _) | .terminatorKind .resume | .terminatorKind .abort
  | .terminatorKind .return | .terminatorKind .unreachable | .terminatorKind .generatorDrop
  | .terminatorKind (.falseEdges _ _) | .terminatorKind (.falseUnwind _ _) => []
  | .terminator t => [.terminatorKind t.kind]

/-- A node in a field is smaller. -/
theorem sizeOf_lt_of_mem_fields {e field : Element} (h : field ∈ e.fields) :
    sizeOf field < sizeOf e := by
  -- a node in a list is smaller than the list; everything else is the size of a constructor
  cases e with
  | ty t =>
    obtain ⟨c, hc, rfl⟩ := List.mem_map.1 h
    have hlt := List.sizeOf_lt_of_mem hc
    obtain ⟨name, consts⟩ := t
    simp only [Ty.consts, const.sizeOf_spec, ty.sizeOf_spec, Ty.mk.sizeOf_spec] at hlt ⊢
    omega
  | const c =>
    obtain rfl := List.mem_singleton.1 h
    obtain ⟨t, value⟩ := c
    have hpos : 0 < sizeOf value := by cases value <;> grind
    simp only [Const.ty, const.sizeOf_spec, ty.sizeOf_spec, Const.mk.sizeOf_spec]
    omega
  | step step =>
    cases step with
    | field number t =>
      obtain rfl := List.mem_singleton.1 h
      grind
    | _ => cases h
  | place p =>
    obtain ⟨s, hs, rfl⟩ := List.mem_map.1 h
    have hlt := List.sizeOf_lt_of_mem hs
    obtain ⟨slot, projection⟩ := p
    simp only [place.sizeOf_spec, step.sizeOf_spec, Place.mk.sizeOf_spec] at hlt ⊢
    omega
  | operand o =>
    cases o with
    | constant k =>
      obtain rfl := List.mem_singleton.1 h
      obtain ⟨span, literal, userType⟩ := k
      grind
    | copy _ | move _ =>
      obtain rfl := List.mem_singleton.1 h
      grind
  | aggregateKind kind =>
    cases kind with
    | array t =>
      obtain rfl := List.mem_singleton.1 h
      grind
    | closure _ substs | generator _ substs _ =>
      obtain ⟨t, ht, rfl⟩ := List.mem_map.1 h
      have hlt := List.sizeOf_lt_of_mem ht
      grind
    | tuple | adt _ _ _ _ => cases h
  | value v =>
    cases v with
    | aggregate kind operands =>
      simp only [fields, List.mem_cons, List.mem_map] at h
      obtain rfl | ⟨o, ho, rfl⟩ := h
      · grind
      · have hlt := List.sizeOf_lt_of_mem ho
        grind
    | _ =>
      simp [fields] at h
      grind
  | statementKind kind =>
    cases kind <;> simp [fields] at h <;> grind
  | statement s =>
    obtain rfl := List.mem_singleton.1 h
    obtain ⟨info, kind⟩ := s
    grind
  | terminatorKind kind =>
    cases kind with
    | call function arguments destination target cleanup =>
      simp only [fields, List.mem_cons, List.mem_append, List.mem_map, Option.mem_toList] at h
      obtain rfl | ⟨o, ho, rfl⟩ | ⟨p, rfl, rfl⟩ := h
      · grind
      · have hlt := List.sizeOf_lt_of_mem ho
        grind
      · grind
    | _ =>
      simp [fields] at h <;> grind
  | terminator t =>
    obtain rfl := List.mem_singleton.1 h
    obtain ⟨info, kind⟩ := t
    grind

/-- The nodes of a node, those in its fields before the node itself. -/
def walk (e : Element) : List Element :=
  e.fields.attach.flatMap (fun field => walk field.1) ++ [e]
termination_by sizeOf e
decreasing_by exact sizeOf_lt_of_mem_fields field.2

theorem walk_eq (e : Element) : e.walk = e.fields.flatMap walk ++ [e] := by
  rw [walk, List.flatMap_subtype fun _ _ => rfl, List.unattach_attach]

/-- The part that a node is. -/
def part : Element → Part
  | .ty t => t.part
  | .const c => c.part
  | .step s => s.part
  | .place p => p.part
  | .operand o => o.part
  | .aggregateKind kind => kind.part
  | .value v => v.part
  | .statementKind kind => kind.part
  | .statement s => s.part
  | .terminatorKind kind => kind.part
  | .terminator t => t.part

/-- The constant that a node is. -/
def const? : Element → Option Const
  | .const c => some c
  | _ => none

theorem constants_part (e : Element) :
    e.part.constants = (e.fields.flatMap fun field => field.part.constants) ++ e.const?.toList := by
  cases e with
  | ty t =>
    obtain ⟨name, consts⟩ := t
    simp [part, Ty.part, node_constParts, fields, const?, Ty.consts, List.flatMap_map]
  | const c =>
    obtain ⟨t, value⟩ := c
    simp [part, Const.part, fields, const?, Const.ty]
  | step s => cases s <;> simp [part, Projection.part, fields, const?]
  | place p => simp [part, Place.part, fields, const?, List.flatMap_map]
  | operand o => cases o <;> simp [part, Operand.part, Constant.part, fields, const?]
  | aggregateKind kind =>
    cases kind <;> simp [part, AggregateKind.part, fields, const?, List.flatMap_map]
  | value v => cases v <;> simp [part, Rvalue.part, fields, const?, List.flatMap_map]
  | statementKind kind => cases kind <;> simp [part, StatementKind.part, fields, const?]
  | statement s => simp [part, Statement.part, fields, const?]
  | terminatorKind kind =>
    cases kind <;> simp [part, TerminatorKind.part, fields, const?, List.flatMap_map]
  | terminator t => simp [part, Terminator.part, fields, const?]

/-- The walk comes to the constants of a node in the order of its parts. -/
theorem filterMap_const?_walk (e : Element) : e.walk.filterMap const? = e.part.constants := by
  induction e using walk.induct with
  | case1 e ih =>
    have hfields : (e.fields.map fun field => field.walk.filterMap const?) =
        e.fields.map fun field => field.part.constants :=
      List.map_congr_left fun field hfield => ih ⟨field, hfield⟩
    have hself : [e].filterMap const? = e.const?.toList := by
      cases h : e.const? <;> simp [h]
    rw [walk_eq, List.filterMap_append, List.filterMap_flatMap, hself, List.flatMap_def, hfields,
      ← List.flatMap_def, ← constants_part]

/-- The walk over a type comes to the constants that are embedded in it. -/
theorem const_mem_walk_ty {t : Ty} {c : Const} : .const c ∈ (Element.ty t).walk ↔ Embeds t c := by
  have hmem : .const c ∈ (Element.ty t).walk ↔ c ∈ (Element.ty t).walk.filterMap const? := by
    rw [List.mem_filterMap]
    constructor
    · intro h
      exact ⟨_, h, rfl⟩
    · rintro ⟨node, hnode, hc⟩
      cases node with
      | const d =>
        obtain rfl := Option.some.inj hc
        exact hnode
      | _ => cases hc
  rw [hmem, filterMap_const?_walk]
  exact mem_constants_ty

/-! ## What a walk collects -/

section

variable {α : Type} (f : Operand → List α) (g : Rvalue → List α)

/-- What is collected from a node: something from operands, and something from values. -/
def pick : Element → List α
  | .operand o => f o
  | .value v => g v
  | .ty _ | .const _ | .step _ | .place _ | .aggregateKind _ | .statementKind _ | .statement _
  | .terminatorKind _ | .terminator _ => []

/-- What is collected from all nodes of a node. -/
def collected (e : Element) : List α := e.walk.flatMap (pick f g)

theorem collected_eq (e : Element) :
    e.collected f g = e.fields.flatMap (collected f g) ++ pick f g e := by
  rw [collected, walk_eq, List.flatMap_append, List.flatMap_assoc, List.flatMap_singleton]
  rfl

/-- A type, or a node whose fields lead to types only. -/
def IsPlain : Element → Prop
  | .ty _ | .const _ | .step _ | .place _ | .aggregateKind _ => True
  | .operand _ | .value _ | .statementKind _ | .statement _ | .terminatorKind _ | .terminator _ =>
      False

theorem IsPlain.field {e field : Element} (he : e.IsPlain) (hfield : field ∈ e.fields) :
    field.IsPlain := by
  cases e with
  | ty t =>
    obtain ⟨c, -, rfl⟩ := List.mem_map.1 hfield
    trivial
  | const c =>
    obtain rfl := List.mem_singleton.1 hfield
    trivial
  | step step =>
    cases step with
    | field number t =>
      obtain rfl := List.mem_singleton.1 hfield
      trivial
    | _ => cases hfield
  | place p =>
    obtain ⟨step, -, rfl⟩ := List.mem_map.1 hfield
    trivial
  | aggregateKind kind =>
    cases kind with
    | array t =>
      obtain rfl := List.mem_singleton.1 hfield
      trivial
    | tuple | adt _ _ _ _ => cases hfield
    | closure _ substs | generator _ substs _ =>
      obtain ⟨t, -, rfl⟩ := List.mem_map.1 hfield
      trivial
  | _ => cases he

/-- Nothing is collected from inside a plain node, so constants in types do not count. -/
theorem IsPlain.collected_eq_nil {e : Element} (he : e.IsPlain) : e.collected f g = [] := by
  induction e using walk.induct with
  | case1 e ih =>
    have hnone : pick f g e = [] := by
      cases e <;> first | rfl | cases he
    rw [collected_eq, hnone, List.append_nil, List.flatMap_eq_nil_iff]
    intro field hfield
    exact ih ⟨field, hfield⟩ (he.field hfield)

@[simp] theorem collected_ty (t : Ty) : (Element.ty t).collected f g = [] :=
  IsPlain.collected_eq_nil f g trivial

@[simp] theorem collected_const (c : Const) : (Element.const c).collected f g = [] :=
  IsPlain.collected_eq_nil f g trivial

@[simp] theorem collected_place (p : Place) : (Element.place p).collected f g = [] :=
  IsPlain.collected_eq_nil f g trivial

@[simp] theorem collected_aggregateKind (kind : AggregateKind) :
    (Element.aggregateKind kind).collected f g = [] :=
  IsPlain.collected_eq_nil f g trivial

@[simp] theorem collected_operand (o : Operand) : (Element.operand o).collected f g = f o := by
  rw [collected_eq]
  cases o <;> simp [fields, pick]

/-- What is collected from a value comes behind what is collected from its operands. -/
@[simp] theorem collected_value (v : Rvalue) :
    (Element.value v).collected f g = v.operands.flatMap f ++ g v := by
  rw [collected_eq]
  cases v <;> simp [fields, pick, Rvalue.operands, List.flatMap_map]

@[simp] theorem collected_statement (s : Statement) :
    (Element.statement s).collected f g =
      (s.kind.value?.map fun v => v.operands.flatMap f ++ g v).getD [] := by
  have hkind : (Element.statementKind s.kind).collected f g =
      (s.kind.value?.map fun v => v.operands.flatMap f ++ g v).getD [] := by
    rw [collected_eq]
    cases s.kind <;> simp [fields, pick, StatementKind.value?]
  rw [collected_eq]
  simpa [fields, pick] using hkind

@[simp] theorem collected_terminator (t : Terminator) :
    (Element.terminator t).collected f g = t.kind.operands.flatMap f := by
  have hkind : (Element.terminatorKind t.kind).collected f g = t.kind.operands.flatMap f := by
    rw [collected_eq]
    cases t.kind <;> simp [fields, pick, TerminatorKind.operands, List.flatMap_map]
  rw [collected_eq]
  simpa [fields, pick] using hkind

end

/-! ## Constants and lines -/

/-- The constants of the operands among the nodes of a node, in the order of the walk. -/
def constants (e : Element) : List Constant := e.collected Operand.constants fun _ => []

/-- The comment lines of a single node. -/
def ownComments (m : SourceMap) : Element → List (Outcome String)
  | .operand (.constant k) => k.comments m
  | .value (.aggregate kind _) => kind.comments
  | _ => []

theorem ownComments_eq (m : SourceMap) :
    ownComments m = pick (fun o => o.constants.flatMap (Constant.comments m))
      fun v => (v.aggregateKind?.map AggregateKind.comments).getD [] := by
  funext node
  cases node with
  | operand o => cases o <;> simp [ownComments, pick, Operand.constants]
  | value v => cases v <;> rfl
  | _ => rfl

theorem flatMap_ownComments (m : SourceMap) (e : Element) :
    e.walk.flatMap (ownComments m) = e.collected
      (fun o => o.constants.flatMap (Constant.comments m))
      fun v => (v.aggregateKind?.map AggregateKind.comments).getD [] := by
  rw [ownComments_eq, collected]

end Element

/-- The word on top of the lines about what is put together, if there are any. -/
def AggregateKind.blockWord? : AggregateKind → Option String
  | .closure _ _ => some "closure"
  | .generator _ _ _ => some "generator"
  | .adt _ _ _ (some _) => some "adt"
  | .adt _ _ _ none | .array _ | .tuple => none

open Element

/-- A length in the type of an array. -/
def fourConst : Const := .mk (.named "usize") (.scalar 4 8)

/-- A closure that was made for an array and holds a number. -/
def closureStatement : Statement where
  sourceInfo := {}
  kind := .assign ⟨1, []⟩ (.aggregate
    (.closure { crate := .string "crate", path := [⟨"f", 0⟩] }
      [.mk (.string "[u8; 4]") [fourConst]])
    [.constant { span := .none, literal := .mk (.named "i32") (.scalar 5 4), userType := some 2 }])

end MirListing
