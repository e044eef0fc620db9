import Mathlib.Data.List.Forall2
import MirListing.Proofs.Reading.Programs
import MirListing.Proofs.Reading.ShortForms

/-!
# References of a document and of a program

Three kinds of objects in the entry of an item refer to an item by its path: an unevaluated value,
as the initializer or of a constant, and what operands are put together to, if that is a closure or
a generator.  Where such objects stand is a matter of the kinds of nodes.  A table says for each
kind which fields hold the parts of a node (`DocumentNode.partNames`), and `Value.references`
collects the objects that refer to an item, node by node.

A program refers to items by their identities.  `Item.itemIds` collects these in the same order:
what a node refers to itself, and then what its parts refer to.

So no reference gets lost, and none ends up in another place: each reader *delivers* the references
of what it reads (`Delivers`), the first to the first item of what has been read, the second to the
second, and so on.  There is one statement for each kind of node, as for its short forms, and the
last one is about the entry of an item (`Item.delivers`).
-/

namespace MirListing

open Value

/-! ## Items of a program -/

/-- The item that a value refers to. -/
def ConstValue.item? : ConstValue → Option ItemId
  | .unevaluated item _ => some item
  | .scalar _ _ | .pointer _ _ | .byRef _ _ | .slice _ _ _ => none

mutual

/-- The items that the constants in a type refer to, in order. -/
def Ty.itemIds : Ty → List ItemId
  | .mk _ consts => constsItemIds consts

/-- The items that a constant refers to: that of its value before those of its type. -/
def Const.itemIds : Const → List ItemId
  | .mk ty value => value.item?.toList ++ ty.itemIds

/-- The items that constants refer to, in order. -/
def constsItemIds : List Const → List ItemId
  | [] => []
  | c :: rest => c.itemIds ++ constsItemIds rest

end

theorem constsItemIds_eq (consts : List Const) :
    constsItemIds consts = consts.flatMap Const.itemIds := by
  induction consts with
  | nil => rfl
  | cons c rest ih => rw [constsItemIds, ih, List.flatMap_cons]

/-- The items that the type of a field refers to. -/
def Projection.itemIds : Projection → List ItemId
  | .field _ ty => ty.itemIds
  | .deref | .index _ | .constantIndex _ _ _ | .subslice _ _ _ | .downcast _ _ => []

/-- The items that the steps of a place refer to. -/
def Place.itemIds (p : Place) : List ItemId := p.projection.flatMap Projection.itemIds

/-- The items that an operand refers to. -/
def Operand.itemIds : Operand → List ItemId
  | .copy place | .move place => place.itemIds
  | .constant k => k.literal.itemIds

/-- The items that what is put together refers to: the closure or generator before its types. -/
def AggregateKind.itemIds (kind : AggregateKind) : List ItemId :=
  kind.item?.toList ++ kind.types.flatMap Ty.itemIds

/-- The items that a computed value refers to. -/
def Rvalue.itemIds : Rvalue → List ItemId
  | .use operand | .repeated operand _ | .unary _ operand => operand.itemIds
  | .ref place _ _ | .addressOf place _ | .len place | .discriminant place => place.itemIds
  | .cast operand ty _ => operand.itemIds ++ ty.itemIds
  | .binary _ left right | .checkedBinary _ left right => left.itemIds ++ right.itemIds
  | .nullary _ ty => ty.itemIds
  | .aggregate kind operands => kind.itemIds ++ operands.flatMap Operand.itemIds

/-- The items that a statement refers to. -/
def StatementKind.itemIds : StatementKind → List ItemId
  | .assign place value => place.itemIds ++ value.itemIds
  | .fakeRead _ place | .setDiscriminant place _ | .retag place _ | .ascribeUserType place _ _ =>
      place.itemIds
  | .storageLive _ | .storageDead _ | .nop => []

/-- The items that a terminator refers to. -/
def TerminatorKind.itemIds : TerminatorKind → List ItemId
  | .switchInt scrutinee ty _ _ => scrutinee.itemIds ++ ty.itemIds
  | .drop place _ _ => place.itemIds
  | .dropAndReplace place value _ _ => place.itemIds ++ value.itemIds
  | .call function arguments destination _ _ =>
      function.itemIds ++
        (arguments.flatMap Operand.itemIds ++ destination.toList.flatMap Place.itemIds)
  | .assert condition _ _ _ _ => condition.itemIds
  | .yield value _ resumeArgument _ => value.itemIds ++ resumeArgument.itemIds
  | .goto _ | .resume | .abort | .return | .unreachable | .generatorDrop | .falseEdges _ _
  | .falseUnwind _ _ => []

/-- The items that a block refers to. -/
def BasicBlock.itemIds (b : BasicBlock) : List ItemId :=
  (b.statements.flatMap fun s => s.kind.itemIds) ++ b.terminator.kind.itemIds

/-- The items that a body refers to: in its blocks, its locals, its debug records, the types that
have been written down, and in the type that it hands out. -/
def Body.itemIds (body : Body) : List ItemId :=
  body.blocks.flatMap BasicBlock.itemIds ++
    ((body.locals.flatMap fun decl => decl.ty.itemIds) ++
      ((body.debugRecords.flatMap fun record => record.place.itemIds) ++
        ((body.userTypes.flatMap fun userType => userType.inferred.itemIds) ++
          body.yieldType?.toList.flatMap Ty.itemIds)))

/-- The items that an item refers to: in its initializer, its body and the bodies of its promoted
constants. -/
def Item.itemIds (item : Item) : List ItemId :=
  (item.initializer?.bind ConstValue.item?).toList ++
    (item.body?.toList.flatMap Body.itemIds ++ item.promoted.flatMap Body.itemIds)

/-! ## References of a document -/

/-- The kind that is spelled. -/
def Spelling.kind : Spelling → String
  | .text kind => kind
  | .garbled _ _ => ""

/-- The kind that fields state. -/
def Fields.kind (fields : Fields) : String :=
  match Fields.field? "kind" fields with
  | some (.spelled word) => word.kind
  | _ => ""

/-- A value in a field that refers to an item: one that has not been evaluated. -/
def Fields.unevaluated (name : String) (fields : Fields) : List Value :=
  match Fields.field name fields with
  | .object value => if Fields.kind value = "unevaluated" then [.object value] else []
  | _ => []

namespace DocumentNode

/-- What refers to an item in a node itself and not in its parts. -/
def own (n : DocumentNode) (fields : Fields) : List Value :=
  match n with
  | .item => fields.unevaluated "initializer"
  | .const => fields.unevaluated "val"
  | .aggregate =>
      if fields.kind = "closure" ∨ fields.kind = "generator" then [.object fields] else []
  | _ => []

/-- The fields of a node of a kind that hold its parts, in the order of the parts. -/
def partNames (n : DocumentNode) (kind : String) : List String :=
  match n, kind with
  | .item, _ => ["body", "promoted"]
  | .body, _ => ["blocks", "locals", "var_debug_info", "user_type_annotations", "yield_ty"]
  | .block, _ => ["statements", "terminator"]
  | .localDecl, _ => ["ty"]
  | .debugRecord, _ => ["place"]
  | .userType, _ => ["inferred_ty"]
  | .statement, "assign" => ["place", "rvalue"]
  | .statement, "fake_read" | .statement, "set_discriminant" | .statement, "retag"
  | .statement, "ascribe_user_type" => ["place"]
  | .terminator, "switch_int" => ["discr", "switch_ty"]
  | .terminator, "drop" => ["place"]
  | .terminator, "drop_and_replace" => ["place", "value"]
  | .terminator, "call" => ["func", "args", "destination"]
  | .terminator, "assert" => ["cond"]
  | .terminator, "yield" => ["value", "resume_arg"]
  | .rvalue, "use" | .rvalue, "repeat" | .rvalue, "unary_op" => ["operand"]
  | .rvalue, "ref" | .rvalue, "address_of" | .rvalue, "len" | .rvalue, "discriminant" => ["place"]
  | .rvalue, "cast" => ["operand", "ty"]
  | .rvalue, "binary_op" | .rvalue, "checked_binary_op" => ["lhs", "rhs"]
  | .rvalue, "nullary_op" => ["ty"]
  | .rvalue, "aggregate" => ["aggregate", "operands"]
  | .aggregate, "array" => ["ty"]
  | .aggregate, "closure" | .aggregate, "generator" => ["substs"]
  | .operand, "copy" | .operand, "move" => ["place"]
  | .operand, "const" => ["literal"]
  | .place, _ => ["projection"]
  | .projection, "field" => ["ty"]
  | .const, _ => ["ty"]
  | .ty, _ => ["consts"]
  | _, _ => []

end DocumentNode

theorem Fields.sizeOf_field_lt (name : String) (fields : Fields) :
    sizeOf (Fields.field name fields) < sizeOf (Value.object fields) := by
  unfold Fields.field
  cases hfound : Fields.field? name fields with
  | some value => exact Fields.sizeOf_field hfound
  | none =>
    show sizeOf Value.null < _
    cases fields with
    | nil => simp
    | cons entry rest =>
      simp only [Value.null.sizeOf_spec, Value.object.sizeOf_spec, List.cons.sizeOf_spec]
      omega

/-- The objects in a part of a document that refer to an item, in order. -/
def Value.references (f : Form) (v : Value) : List Value :=
  match f, v with
  | .node n, .object fields =>
      n.own fields ++ (n.partNames (Fields.kind fields)).flatMap fun name =>
        references (n.form (.text name)) (Fields.field name fields)
  | .nodes n, .array items => items.attach.flatMap fun ⟨item, _⟩ => references (.node n) item
  | _, _ => []
termination_by sizeOf v
decreasing_by
  · exact Fields.sizeOf_field_lt name fields
  · exact Value.sizeOf_mem_array (by assumption)

/-- The objects in a field of a node that refer to an item. -/
def Fields.references (n : DocumentNode) (fields : Fields) (name : String) : List Value :=
  (Fields.field name fields).references (n.form (.text name))

namespace Value

theorem references_object (n : DocumentNode) (fields : Fields) :
    (Value.object fields).references (.node n) =
      n.own fields ++ (n.partNames (Fields.kind fields)).flatMap (Fields.references n fields) := by
  rw [references]
  rfl

theorem references_array (n : DocumentNode) (items : List Value) :
    (Value.array items).references (.nodes n) = items.flatMap (references (.node n)) := by
  rw [references, List.flatMap_def, List.flatMap_def, List.attach_map_val]

theorem references_node_eq_nil {n : DocumentNode} {v : Value}
    (h : ∀ fields, v ≠ .object fields) : v.references (.node n) = [] := by
  rw [references.eq_def]
  cases v with
  | object fields => exact absurd rfl (h fields)
  | null | bool | integer | number | spelled | array => rfl

theorem references_nodes_eq_nil {n : DocumentNode} {v : Value} (h : ∀ items, v ≠ .array items) :
    v.references (.nodes n) = [] := by
  rw [references.eq_def]
  cases v with
  | array items => exact absurd rfl (h items)
  | null | bool | integer | number | spelled | object => rfl

/-- No string refers to an item in itself. -/
theorem flatMap_references_spelled {α : Type} (n : DocumentNode) (l : List α) (s : α → Spelling) :
    (l.map fun a => Value.spelled (s a)).flatMap (references (.node n)) = [] := by
  rw [List.flatMap_map, List.flatMap_eq_nil_iff]
  exact fun a _ => references_node_eq_nil nofun

/-- What refers to an item in a list of nodes does so in one of them. -/
theorem references_of_elements {n : DocumentNode} {v : Value} {items : List Value}
    (h : v.elements = .ok items) :
    v.references (.nodes n) = items.flatMap (references (.node n)) := by
  cases v with
  | array entries =>
    cases h
    exact references_array n items
  | spelled s =>
    cases h
    rw [@references_nodes_eq_nil n (.spelled s) nofun, flatMap_references_spelled]
  | object fields =>
    cases h
    rw [@references_nodes_eq_nil n (.object fields) nofun, flatMap_references_spelled]
  | null | bool | integer | number => cases h

theorem references_of_elementsIfGiven {n : DocumentNode} {v : Value} {items : List Value}
    (h : v.elementsIfGiven = .ok items) :
    v.references (.nodes n) = items.flatMap (references (.node n)) := by
  rw [elementsIfGiven] at h
  split at h
  · exact references_of_elements h
  · rename_i hgiven
    cases h
    cases v with
    | array entries =>
      have hnil : entries = [] := by simpa [isGiven] using hgiven
      rw [hnil, references_array]
    | null | bool | integer | number | spelled | object => exact references_nodes_eq_nil (by simp)

end Value

namespace Fields

variable {fields : Fields} {name : String} {v : Value}

theorem field_of_field? (h : field? name fields = some v) : field name fields = v := by
  rw [field, h]
  rfl

theorem field_of_member (h : member name fields = .ok v) : field name fields = v :=
  field_of_field? (field?_of_member h)

theorem field_of_require {what : String} (h : (Value.object fields).require what name = .ok v) :
    field name fields = v :=
  field_of_field? (field?_of_require h)

theorem kind_of_tagged {word : Spelling} (h : field? "kind" fields = some (.spelled word)) :
    Fields.kind fields = word.kind := by
  rw [Fields.kind, h]

end Fields

/-! ## Readers that deliver -/

/-- Objects refer to items, the first to the first, the second to the second, and so on. -/
abbrev Refer (names : Names) (objects : List Value) (items : List ItemId) : Prop :=
  List.Forall₂ (Value.RefersTo names) objects items

theorem refer_nil {names : Names} {objects : List Value} (h : objects = []) :
    Refer names objects [] := by
  rw [h]
  exact .nil

/-- What has been read from values has been read from them one by one. -/
theorem forall₂_of_mapM {α : Type} {read : Value → Outcome α} {values : List Value} {as : List α}
    (h : values.mapM read = .ok as) : List.Forall₂ (fun v a => read v = .ok a) values as := by
  have heq := mapM_eq_ok_iff.1 h
  rwa [← List.forall₂_eq_eq_eq, List.forall₂_map_left_iff, List.forall₂_map_right_iff] at heq

/-- A reader delivers the references of a node: what it reads refers to the items of just these
objects, in the same order. -/
def Delivers {α : Type} (n : DocumentNode) (names : Names) (read : Value → Outcome α)
    (items : α → List ItemId) : Prop :=
  ∀ ⦃v a⦄, read v = .ok a → Refer names (v.references (.node n)) (items a)

/-- Nodes one after another refer to what they refer to one by one. -/
theorem refer_of_mapM {α : Type} {n : DocumentNode} {names : Names} {read : Value → Outcome α}
    {items : α → List ItemId} : ∀ {values : List Value} {as : List α},
    (∀ v ∈ values, ∀ a, read v = .ok a → Refer names (v.references (.node n)) (items a)) →
    values.mapM read = .ok as →
    Refer names (values.flatMap (references (.node n))) (as.flatMap items)
  | [], _, _, hread => by
    cases hread
    exact .nil
  | v :: rest, _, h, hread => by
    rw [List.mapM_cons] at hread
    obtain ⟨a, ha, hread⟩ := bind_eq_ok_iff.1 hread
    obtain ⟨later, hlater, hread⟩ := bind_eq_ok_iff.1 hread
    cases hread
    exact List.rel_append (h v List.mem_cons_self a ha)
      (refer_of_mapM (fun w hw => h w (List.mem_cons_of_mem _ hw)) hlater)

namespace Delivers

variable {α : Type} {n k : DocumentNode} {names : Names} {read : Value → Outcome α}
  {items : α → List ItemId} {fields : Fields} {name : String} {v : Value} {a : α}

/-- What reads objects by the kind that they state delivers if it delivers what an object of each
kind and its parts refer to. -/
theorem of_tagged {what : String} {next : Spelling × Fields → Outcome α}
    (hread : ∀ v, read v = v.tagged what >>= next)
    (h : ∀ word fields a, Fields.field? "kind" fields = some (.spelled word) →
      next (word, fields) = .ok a →
      Refer names (n.own fields ++
        (n.partNames word.kind).flatMap (Fields.references n fields)) (items a)) :
    Delivers n names read items := by
  intro v a hv
  rw [hread] at hv
  obtain ⟨⟨word, fields⟩, htagged, hword⟩ := bind_eq_ok_iff.1 hv
  obtain ⟨rfl, hkind⟩ := tagged_eq_ok_iff.1 htagged
  rw [references_object, Fields.kind_of_tagged hkind]
  exact h word fields a hkind hword

theorem field (h : Delivers k names read items) (hform : n.form (.text name) = .node k)
    (hread : read (Fields.field name fields) = .ok a) :
    Refer names (Fields.references n fields name) (items a) := by
  rw [Fields.references, hform]
  exact h hread

theorem member (h : Delivers k names read items) (hform : n.form (.text name) = .node k)
    (hmember : Fields.member name fields = .ok v) (hread : read v = .ok a) :
    Refer names (Fields.references n fields name) (items a) :=
  h.field hform (Fields.field_of_member hmember ▸ hread)

theorem require (h : Delivers k names read items) (hform : n.form (.text name) = .node k)
    {what : String} (hmember : (Value.object fields).require what name = .ok v)
    (hread : read v = .ok a) : Refer names (Fields.references n fields name) (items a) :=
  h.field hform (Fields.field_of_require hmember ▸ hread)

theorem mapM (h : Delivers k names read items) {values : List Value} {as : List α}
    (hread : values.mapM read = .ok as) :
    Refer names (values.flatMap (references (.node k))) (as.flatMap items) :=
  refer_of_mapM (fun _ _ _ ha => h ha) hread

theorem elements (h : Delivers k names read items) (hform : n.form (.text name) = .nodes k)
    {values : List Value} {as : List α} (hvalues : (Fields.field name fields).elements = .ok values)
    (hread : values.mapM read = .ok as) :
    Refer names (Fields.references n fields name) (as.flatMap items) := by
  rw [Fields.references, hform, references_of_elements hvalues]
  exact h.mapM hread

theorem elementsIfGiven (h : Delivers k names read items) (hform : n.form (.text name) = .nodes k)
    {values : List Value} {as : List α}
    (hvalues : (Fields.field name fields).elementsIfGiven = .ok values)
    (hread : values.mapM read = .ok as) :
    Refer names (Fields.references n fields name) (as.flatMap items) := by
  rw [Fields.references, hform, references_of_elementsIfGiven hvalues]
  exact h.mapM hread

/-- A node in a field that may be null. -/
theorem ifNotNull (h : Delivers k names read items) (hform : n.form (.text name) = .node k)
    {o : Option α} (hnull : Fields.field name fields = .null → o = none)
    (hsome : Fields.field name fields ≠ .null →
      ∃ a, read (Fields.field name fields) = .ok a ∧ o = some a) :
    Refer names (Fields.references n fields name) (o.toList.flatMap items) := by
  by_cases hvalue : Fields.field name fields = .null
  · rw [hnull hvalue, Fields.references, hvalue, hform]
    exact refer_nil (references_node_eq_nil nofun)
  · obtain ⟨a, hread, rfl⟩ := hsome hvalue
    rw [Option.toList_some, List.flatMap_singleton]
    exact h.field hform hread

end Delivers

/-! ## Types and constants -/

variable {names : Names}

theorem Fields.unevaluated_of_field {fields inner : Fields} {name : String}
    (h : Fields.field name fields = .object inner) :
    Fields.unevaluated name fields =
      if Fields.kind inner = "unevaluated" then [.object inner] else [] := by
  rw [Fields.unevaluated, h]

/-- A value refers to an item if it has not been evaluated. -/
theorem Fields.refer_unevaluated {fields : Fields} {name : String} {value : ConstValue}
    (h : ConstValue.read names (Fields.field name fields) = .ok value) :
    Refer names (Fields.unevaluated name fields) value.item?.toList := by
  unfold ConstValue.read at h
  obtain ⟨⟨word, inner⟩, htagged, hword⟩ := bind_eq_ok_iff.1 h
  obtain ⟨hobject, hkind⟩ := tagged_eq_ok_iff.1 htagged
  simp only at hword
  rw [Fields.unevaluated_of_field hobject]
  split at hword
  case h_6 => cases hword
  case h_5 =>
    simp only [bind_eq_ok_iff] at hword
    obtain ⟨path, hpath, item, hitem, _, -, heq⟩ := hword
    cases heq
    rw [Fields.kind_of_tagged hkind]
    exact .cons (refersTo_of_member hpath hitem) .nil
  -- a value of another kind refers to no item
  all_goals
    simp only [bind_eq_ok_iff] at hword
    simp only [Fields.kind_of_tagged hkind]
  case h_1 | h_2 =>
    obtain ⟨_, -, _, -, heq⟩ := hword
    cases heq
    exact .nil
  case h_3 =>
    obtain ⟨_, -, _, -, _, -, heq⟩ := hword
    cases heq
    exact .nil
  case h_4 =>
    obtain ⟨_, -, _, -, _, -, _, -, heq⟩ := hword
    cases heq
    exact .nil

mutual

theorem Ty.refer_of_read : ∀ (v : Value) {ty : Ty}, Ty.read names v = .ok ty →
    Refer names (v.references (.node .ty)) ty.itemIds
  | .object fields, ty, h => by
    rw [Ty.read_object] at h
    obtain ⟨name, -, h⟩ := bind_eq_ok_iff.1 h
    have hparts : (Value.object fields).references (.node .ty) =
        (Fields.field "consts" fields).references (.nodes .const) := by
      rw [references_object]
      exact List.append_nil _
    rw [hparts]
    cases hconsts : Fields.field? "consts" fields with
    | none =>
      rw [hconsts] at h
      cases h
      rw [Fields.field, hconsts]
      exact refer_nil (references_nodes_eq_nil nofun)
    | some value =>
      rw [hconsts] at h
      rw [Fields.field_of_field? hconsts]
      cases value with
      | array entries =>
        obtain ⟨consts, hread, heq⟩ := bind_eq_ok_iff.1 h
        cases heq
        rw [references_array, Ty.itemIds, constsItemIds_eq]
        refine refer_of_mapM (fun entry hentry c hc => ?_) hread
        have hsmaller : sizeOf entry < sizeOf (Value.object fields) :=
          Nat.lt_trans (Value.sizeOf_mem_array hentry) (Fields.sizeOf_field hconsts)
        exact Const.refer_of_read entry hc
      | null | bool | integer | number | spelled | object =>
        obtain ⟨consts, hread, heq⟩ := bind_eq_ok_iff.1 h
        cases heq
        obtain rfl := Const.eq_nil_of_refuseElements hread
        exact refer_nil (references_nodes_eq_nil nofun)
  | .spelled _, _, h => by
    rw [Ty.read] at h
    cases h
    exact refer_nil (references_node_eq_nil nofun)
  | .null, _, h | .bool _, _, h | .integer _, _, h | .number _, _, h | .array _, _, h => by
    simp only [Ty.read] at h
    obtain ⟨_, -, h⟩ := bind_eq_ok_iff.1 h
    cases h
termination_by v => sizeOf v
decreasing_by exact hsmaller

theorem Const.refer_of_read : ∀ (v : Value) {c : Const}, Const.read names v = .ok c →
    Refer names (v.references (.node .const)) c.itemIds
  | .object fields, c, h => by
    rw [Const.read_object] at h
    obtain ⟨member, hmember, h⟩ := bind_eq_ok_iff.1 h
    obtain ⟨ty, hty, h⟩ := bind_eq_ok_iff.1 h
    obtain ⟨value, hvalue, h⟩ := bind_eq_ok_iff.1 h
    obtain ⟨readValue, hreadValue, heq⟩ := bind_eq_ok_iff.1 h
    cases heq
    have hparts : (Value.object fields).references (.node .const) =
        Fields.unevaluated "val" fields ++ (Fields.field "ty" fields).references (.node .ty) := by
      rw [references_object]
      exact congrArg _ (List.append_nil _)
    have hsmaller : sizeOf (Fields.field "ty" fields) < sizeOf (Value.object fields) :=
      Fields.sizeOf_field_lt "ty" fields
    rw [hparts]
    refine List.rel_append
      (Fields.refer_unevaluated (Fields.field_of_require hvalue ▸ hreadValue)) ?_
    exact Ty.refer_of_read _ (Fields.field_of_require hmember ▸ hty)
  | .spelled _, _, h | .null, _, h | .bool _, _, h | .integer _, _, h | .number _, _, h
  | .array _, _, h => by
    simp only [Const.read] at h
    cases h
termination_by v => sizeOf v
decreasing_by exact hsmaller

end

theorem Ty.delivers : Delivers .ty names (Ty.read names) Ty.itemIds :=
  fun v _ h => Ty.refer_of_read v h

theorem Const.delivers : Delivers .const names (Const.read names) Const.itemIds :=
  fun v _ h => Const.refer_of_read v h

/-! ## Places and operands -/

section

variable {n : DocumentNode} {fields : Fields} {name : String} {rest : List String}
  {items later : List ItemId}

/-- The parts of a node that refers to nothing itself refer to what they refer to one after
another. -/
theorem refer_cons (h : Refer names (Fields.references n fields name) items)
    (hrest : Refer names (rest.flatMap (Fields.references n fields)) later) :
    Refer names ([] ++ (name :: rest).flatMap (Fields.references n fields)) (items ++ later) := by
  rw [List.nil_append, List.flatMap_cons]
  exact List.rel_append h hrest

theorem refer_one (h : Refer names (Fields.references n fields name) items) :
    Refer names ([] ++ [name].flatMap (Fields.references n fields)) items := by
  rwa [List.nil_append, List.flatMap_singleton]

end

theorem Projection.delivers :
    Delivers .projection names (Projection.read names) Projection.itemIds := by
  refine .of_tagged (fun _ => rfl) fun word fields step hkind hword => ?_
  simp only at hword
  split at hword
  case h_1 =>
    cases hword
    exact refer_nil rfl
  case h_2 =>
    simp only [bind_eq_ok_iff] at hword
    obtain ⟨_, -, member, hmember, ty, hty, heq⟩ := hword
    cases heq
    exact refer_one (Ty.delivers.member rfl hmember hty)
  case h_3 | h_6 =>
    obtain ⟨_, -, heq⟩ := bind_eq_ok_iff.1 hword
    cases heq
    exact refer_nil rfl
  case h_4 | h_5 =>
    simp only [bind_eq_ok_iff] at hword
    obtain ⟨_, -, _, -, heq⟩ := hword
    cases heq
    exact refer_nil rfl
  case h_7 => cases hword

theorem Place.delivers : Delivers .place names (Place.read names) Place.itemIds := by
  intro v place h
  cases v with
  | spelled text =>
    rw [Place.itemIds, Place.projection_ofSpelling h]
    exact refer_nil (references_node_eq_nil nofun)
  | object fields =>
    simp only [Place.read, bind_eq_ok_iff] at h
    obtain ⟨_, hfields, steps, hsteps, projection, hprojection, _, -, _, -, heq⟩ := h
    cases heq
    cases hfields
    rw [references_object]
    exact refer_one (Projection.delivers.elementsIfGiven rfl hsteps hprojection)
  | null | bool | integer | number | array =>
    simp only [Place.read, bind_eq_ok_iff] at h
    obtain ⟨_, hfields, -⟩ := h
    cases hfields

theorem refer_readPlace {n : DocumentNode} {fields : Fields} {name : String} {place : Place}
    (hform : n.form (.text name) = .node .place) (h : readPlace names name fields = .ok place) :
    Refer names (Fields.references n fields name) place.itemIds := by
  obtain ⟨member, hmember, h⟩ := bind_eq_ok_iff.1 h
  exact Place.delivers.member hform hmember h

theorem Operand.delivers : Delivers .operand names (Operand.read names) Operand.itemIds := by
  refine .of_tagged (fun _ => rfl) fun word fields operand hkind hword => ?_
  simp only at hword
  split at hword
  case h_1 | h_2 =>
    simp only [bind_eq_ok_iff] at hword
    obtain ⟨member, hmember, place, hplace, heq⟩ := hword
    cases heq
    exact refer_one (Place.delivers.member rfl hmember hplace)
  case h_3 =>
    simp only [Constant.read, bind_eq_ok_iff] at hword
    obtain ⟨k, ⟨_, -, literal, hliteral, c, hc, _, -, hk⟩, heq⟩ := hword
    cases heq
    cases hk
    exact refer_one (Const.delivers.require rfl hliteral hc)
  case h_4 => cases hword

theorem refer_readOperand {n : DocumentNode} {fields : Fields} {name : String} {operand : Operand}
    (hform : n.form (.text name) = .node .operand)
    (h : readOperand names name fields = .ok operand) :
    Refer names (Fields.references n fields name) operand.itemIds := by
  obtain ⟨member, hmember, h⟩ := bind_eq_ok_iff.1 h
  exact Operand.delivers.member hform hmember h

theorem refer_readAll {n : DocumentNode} {fields : Fields} {name : String}
    {operands : List Operand} (hform : n.form (.text name) = .nodes .operand)
    (h : Operand.readAll names (fields.field name) = .ok operands) :
    Refer names (Fields.references n fields name) (operands.flatMap Operand.itemIds) := by
  obtain ⟨values, hvalues, h⟩ := bind_eq_ok_iff.1 h
  exact Operand.delivers.elementsIfGiven hform hvalues h

/-! ## Computed values -/

/-- A closure or generator is referred to by the node itself, in front of its types. -/
theorem refer_closure {fields : Fields} {item : ItemId} {path : Value} {substs : List Ty}
    (hkind : Fields.kind fields = "closure" ∨ Fields.kind fields = "generator")
    (hsubsts : readSubsts names fields = .ok substs) (hpath : fields.member "path" = .ok path)
    (hitem : names.resolve path = .ok item) :
    Refer names (DocumentNode.aggregate.own fields ++
        ["substs"].flatMap (Fields.references .aggregate fields))
      ([item] ++ substs.flatMap Ty.itemIds) := by
  have hown : DocumentNode.aggregate.own fields = [.object fields] := if_pos hkind
  rw [hown]
  obtain ⟨values, hvalues, hread⟩ := bind_eq_ok_iff.1 hsubsts
  refine List.rel_append (.cons (refersTo_of_member hpath hitem) .nil) ?_
  exact refer_one (Ty.delivers.elementsIfGiven rfl hvalues hread)

theorem AggregateKind.delivers :
    Delivers .aggregate names (AggregateKind.read names) AggregateKind.itemIds := by
  refine .of_tagged (fun _ => rfl) fun word fields kind hkind hword => ?_
  simp only at hword
  split at hword
  case h_1 =>
    simp only [bind_eq_ok_iff] at hword
    obtain ⟨member, hmember, ty, hty, heq⟩ := hword
    cases heq
    have hids : (AggregateKind.array ty).itemIds = ty.itemIds := List.append_nil _
    simp only [hids, DocumentNode.own, Fields.kind_of_tagged hkind]
    exact refer_one (Ty.delivers.member rfl hmember hty)
  case h_2 =>
    cases hword
    simp only [DocumentNode.own, Fields.kind_of_tagged hkind]
    exact refer_nil rfl
  case h_3 =>
    simp only [bind_eq_ok_iff] at hword
    obtain ⟨_, -, _, -, _, -, heq⟩ := hword
    cases heq
    simp only [DocumentNode.own, Fields.kind_of_tagged hkind]
    exact refer_nil rfl
  case h_4 =>
    obtain ⟨substs, hsubsts, hword⟩ := bind_eq_ok_iff.1 hword
    split at hword
    · simp only [bind_eq_ok_iff] at hword
      obtain ⟨path, hpath, item, hitem, heq⟩ := hword
      cases heq
      exact refer_closure (.inl (Fields.kind_of_tagged hkind)) hsubsts hpath hitem
    · simp only [bind_eq_ok_iff] at hword
      obtain ⟨_, -, path, hpath, item, hitem, heq⟩ := hword
      cases heq
      exact refer_closure (.inr (Fields.kind_of_tagged hkind)) hsubsts hpath hitem
    · cases hword

theorem Rvalue.delivers : Delivers .rvalue names (Rvalue.read names) Rvalue.itemIds := by
  refine .of_tagged (fun _ => rfl) fun word fields value hkind hword => ?_
  simp only at hword
  split at hword
  case h_1 =>
    simp only [bind_eq_ok_iff] at hword
    obtain ⟨o, ho, heq⟩ := hword
    cases heq
    exact refer_one (refer_readOperand rfl ho)
  case h_2 =>
    simp only [bind_eq_ok_iff] at hword
    obtain ⟨o, ho, _, -, heq⟩ := hword
    cases heq
    exact refer_one (refer_readOperand rfl ho)
  case h_3 | h_4 =>
    simp only [bind_eq_ok_iff] at hword
    obtain ⟨place, hplace, _, -, heq⟩ := hword
    cases heq
    exact refer_one (refer_readPlace rfl hplace)
  case h_5 | h_10 =>
    simp only [bind_eq_ok_iff] at hword
    obtain ⟨place, hplace, heq⟩ := hword
    cases heq
    exact refer_one (refer_readPlace rfl hplace)
  case h_6 =>
    simp only [bind_eq_ok_iff] at hword
    obtain ⟨o, ho, member, hmember, ty, hty, heq⟩ := hword
    cases heq
    exact refer_cons (refer_readOperand rfl ho) (refer_one (Ty.delivers.member rfl hmember hty))
  case h_7 | h_8 =>
    simp only [readBinary, bind_eq_ok_iff] at hword
    obtain ⟨⟨op, left, right⟩, ⟨_, -, _, -, first, hfirst, _, hleft, second, hsecond, _, hright,
      hoperands⟩, heq⟩ := hword
    cases hoperands
    cases heq
    exact refer_cons (Operand.delivers.member rfl hfirst hleft)
      (refer_one (Operand.delivers.member rfl hsecond hright))
  case h_9 =>
    simp only [bind_eq_ok_iff] at hword
    obtain ⟨_, -, _, -, o, ho, heq⟩ := hword
    cases heq
    exact refer_one (refer_readOperand rfl ho)
  case h_11 =>
    simp only [bind_eq_ok_iff] at hword
    obtain ⟨_, -, _, -, member, hmember, ty, hty, heq⟩ := hword
    cases heq
    exact refer_one (Ty.delivers.member rfl hmember hty)
  case h_12 =>
    simp only [bind_eq_ok_iff] at hword
    obtain ⟨member, hmember, kind, hread, operands, hoperands, heq⟩ := hword
    cases heq
    exact refer_cons (AggregateKind.delivers.member rfl hmember hread)
      (refer_one (refer_readAll rfl hoperands))
  case h_13 => cases hword

/-! ## Statements and terminators -/

theorem Statement.delivers :
    Delivers .statement names (Statement.read names) fun s => s.kind.itemIds := by
  refine .of_tagged (fun _ => rfl) fun word fields s hkind hword => ?_
  simp only [StatementKind.read, bind_eq_ok_iff] at hword
  obtain ⟨source, -, kind, hword, heq⟩ := hword
  cases heq
  split at hword
  case h_1 =>
    simp only [bind_eq_ok_iff] at hword
    obtain ⟨place, hplace, member, hmember, value, hvalue, heq⟩ := hword
    cases heq
    exact refer_cons (refer_readPlace rfl hplace)
      (refer_one (Rvalue.delivers.member rfl hmember hvalue))
  case h_2 | h_6 =>
    simp only [bind_eq_ok_iff] at hword
    obtain ⟨place, hplace, heq⟩ := hword
    cases heq
    exact refer_one (refer_readPlace rfl hplace)
  case h_3 =>
    simp only [bind_eq_ok_iff] at hword
    obtain ⟨place, hplace, _, -, heq⟩ := hword
    cases heq
    exact refer_one (refer_readPlace rfl hplace)
  case h_4 | h_5 =>
    obtain ⟨_, -, heq⟩ := bind_eq_ok_iff.1 hword
    cases heq
    exact refer_nil rfl
  case h_7 =>
    simp only [bind_eq_ok_iff] at hword
    obtain ⟨place, hplace, _, -, _, -, heq⟩ := hword
    cases heq
    exact refer_one (refer_readPlace rfl hplace)
  case h_8 =>
    cases hword
    exact refer_nil rfl
  case h_9 => cases hword

theorem refer_switchType {fields : Fields} {ty : Ty}
    (h : Ty.read names (fields.fieldOr "switch_ty" (.string "usize")) = .ok ty) :
    Refer names (Fields.references .terminator fields "switch_ty") ty.itemIds := by
  cases hfound : Fields.field? "switch_ty" fields with
  | some value =>
    rw [Fields.fieldOr, hfound] at h
    exact Ty.delivers.field rfl (Fields.field_of_field? hfound ▸ h)
  | none =>
    -- the usual type has no constants
    rw [Fields.fieldOr, hfound, Option.getD_none, Ty.read] at h
    cases h
    refine refer_nil ?_
    rw [Fields.references, Fields.field, hfound]
    exact references_node_eq_nil (by simp)

theorem Terminator.delivers :
    Delivers .terminator names (Terminator.read names) fun t => t.kind.itemIds := by
  refine .of_tagged (fun _ => rfl) fun word fields t hkind hword => ?_
  simp only [TerminatorKind.read, bind_eq_ok_iff] at hword
  obtain ⟨source, -, kind, hword, heq⟩ := hword
  cases heq
  split at hword
  case h_1 | h_2 | h_3 | h_4 | h_5 =>
    cases hword
    exact refer_nil rfl
  case h_6 =>
    obtain ⟨_, -, heq⟩ := bind_eq_ok_iff.1 hword
    cases heq
    exact refer_nil rfl
  case h_7 =>
    simp only [bind_eq_ok_iff] at hword
    obtain ⟨o, ho, ty, hty, _, -, _, -, _, -, _, -, _, -, heq⟩ := hword
    cases heq
    exact refer_cons (refer_readOperand rfl ho) (refer_one (refer_switchType hty))
  case h_8 =>
    simp only [bind_eq_ok_iff] at hword
    obtain ⟨place, hplace, _, -, _, -, heq⟩ := hword
    cases heq
    exact refer_one (refer_readPlace rfl hplace)
  case h_9 =>
    simp only [bind_eq_ok_iff] at hword
    obtain ⟨place, hplace, o, ho, _, -, _, -, heq⟩ := hword
    cases heq
    exact refer_cons (refer_readPlace rfl hplace) (refer_one (refer_readOperand rfl ho))
  case h_10 =>
    simp only [bind_eq_ok_iff] at hword
    obtain ⟨function, hfunction, arguments, harguments, hword⟩ := hword
    split at hword
    · rename_i hnull
      simp only [bind_eq_ok_iff] at hword
      obtain ⟨_, hnone, _, -, _, -, heq⟩ := hword
      cases hnone
      cases heq
      exact refer_cons (refer_readOperand rfl hfunction) (refer_cons (refer_readAll rfl harguments)
        (refer_one (Place.delivers.ifNotNull rfl (fun _ => rfl) fun hne => absurd hnull hne)))
    · rename_i hgiven
      simp only [bind_eq_ok_iff] at hword
      obtain ⟨place, hplace, _, hsome, _, -, _, -, heq⟩ := hword
      cases hsome
      cases heq
      exact refer_cons (refer_readOperand rfl hfunction) (refer_cons (refer_readAll rfl harguments)
        (refer_one (Place.delivers.ifNotNull rfl (fun hnull => absurd hnull hgiven)
          fun _ => ⟨place, hplace, rfl⟩)))
  case h_11 =>
    simp only [bind_eq_ok_iff] at hword
    obtain ⟨o, ho, _, -, _, -, heq⟩ := hword
    cases heq
    exact refer_one (refer_readOperand rfl ho)
  case h_12 =>
    simp only [bind_eq_ok_iff] at hword
    obtain ⟨o, ho, _, -, place, hplace, _, -, heq⟩ := hword
    cases heq
    exact refer_cons (refer_readOperand rfl ho) (refer_one (refer_readPlace rfl hplace))
  case h_13 | h_14 =>
    simp only [bind_eq_ok_iff] at hword
    obtain ⟨_, -, _, -, heq⟩ := hword
    cases heq
    exact refer_nil rfl
  case h_15 => cases hword

/-! ## Bodies and items -/

theorem BasicBlock.delivers :
    Delivers .block names (BasicBlock.read names) BasicBlock.itemIds := by
  intro v b h
  simp only [BasicBlock.read, bind_eq_ok_iff] at h
  obtain ⟨fields, hfields, values, hvalues, statements, hstatements, member, hmember, terminator,
    hterminator, heq⟩ := h
  cases heq
  obtain rfl := asObject_eq_ok_iff.1 hfields
  rw [references_object]
  exact refer_cons (Statement.delivers.elementsIfGiven rfl hvalues hstatements)
    (refer_one (Terminator.delivers.require rfl hmember hterminator))

theorem LocalDecl.delivers :
    Delivers .localDecl names (LocalDecl.read names) fun decl => decl.ty.itemIds := by
  intro v decl h
  simp only [LocalDecl.read, bind_eq_ok_iff] at h
  obtain ⟨member, hmember, ty, hty, fields, hfields, _, -, _, -, _, -, heq⟩ := h
  cases heq
  obtain rfl := asObject_eq_ok_iff.1 hfields
  rw [references_object]
  exact refer_one (Ty.delivers.require rfl hmember hty)

theorem DebugRecord.delivers :
    Delivers .debugRecord names (DebugRecord.read names) fun record => record.place.itemIds := by
  intro v record h
  simp only [DebugRecord.read, bind_eq_ok_iff] at h
  obtain ⟨fields, hfields, _, -, _, -, place, hplace, heq⟩ := h
  cases heq
  obtain rfl := asObject_eq_ok_iff.1 hfields
  rw [references_object]
  exact refer_one (refer_readPlace rfl hplace)

theorem UserType.delivers :
    Delivers .userType names (UserType.read names) fun userType => userType.inferred.itemIds := by
  intro v userType h
  simp only [UserType.read, bind_eq_ok_iff] at h
  obtain ⟨fields, hfields, _, -, _, -, member, hmember, ty, hty, heq⟩ := h
  cases heq
  obtain rfl := asObject_eq_ok_iff.1 hfields
  rw [references_object]
  exact refer_one (Ty.delivers.member rfl hmember hty)

theorem Body.delivers : Delivers .body names (Body.read names) Body.itemIds := by
  intro v body h
  simp only [Body.read, bind_eq_ok_iff] at h
  obtain ⟨blocksField, hblocksField, blockValues, hblockValues, blocks, hblocks, localsField,
    hlocalsField, localValues, hlocalValues, locals, hlocals, fields, hfields, scopes, hscopes,
    recordValues, hrecordValues, debugRecords, hrecords, typeValues, htypeValues, userTypes,
    huserTypes, argCount, -, hrest⟩ := h
  obtain rfl := asObject_eq_ok_iff.1 hfields
  rw [← Fields.field_of_require hblocksField] at hblockValues
  rw [← Fields.field_of_require hlocalsField] at hlocalValues
  have hbody : ∀ yieldType? : Option Ty,
      Refer names (Fields.references .body fields "yield_ty")
        (yieldType?.toList.flatMap Ty.itemIds) →
      Refer names ((Value.object fields).references (.node .body))
        (blocks.flatMap BasicBlock.itemIds ++ ((locals.flatMap fun decl => decl.ty.itemIds) ++
          ((debugRecords.flatMap fun record => record.place.itemIds) ++
            ((userTypes.flatMap fun userType => userType.inferred.itemIds) ++
              yieldType?.toList.flatMap Ty.itemIds)))) := by
    intro _ hyields
    rw [references_object]
    exact refer_cons (BasicBlock.delivers.elements rfl hblockValues hblocks)
      (refer_cons (LocalDecl.delivers.elements rfl hlocalValues hlocals)
        (refer_cons (DebugRecord.delivers.elementsIfGiven rfl hrecordValues hrecords)
          (refer_cons (UserType.delivers.elementsIfGiven rfl htypeValues huserTypes)
            (refer_one hyields))))
  split at hrest
  · rename_i hnull
    simp only [bind_eq_ok_iff] at hrest
    obtain ⟨_, hnone, _, -, _, -, heq⟩ := hrest
    cases hnone
    cases heq
    exact hbody none (Ty.delivers.ifNotNull rfl (fun _ => rfl) fun hne => absurd hnull hne)
  · rename_i hgiven
    simp only [bind_eq_ok_iff] at hrest
    obtain ⟨ty, hty, _, hsome, _, -, _, -, heq⟩ := hrest
    cases hsome
    cases heq
    exact hbody (some ty) (Ty.delivers.ifNotNull rfl (fun hnull => absurd hnull hgiven)
      fun _ => ⟨ty, hty, rfl⟩)

theorem refer_initializer {fields : Fields} {value? : Option ConstValue}
    (h : ConstValue.read? names (fields.field "initializer") = .ok value?) :
    Refer names (Fields.unevaluated "initializer" fields)
      (value?.bind ConstValue.item?).toList := by
  unfold ConstValue.read? at h
  split at h
  · rename_i hnull
    cases h
    rw [Fields.unevaluated, hnull]
    exact .nil
  · obtain ⟨value, hvalue, heq⟩ := bind_eq_ok_iff.1 h
    cases heq
    exact Fields.refer_unevaluated hvalue

theorem refer_main {fields : Fields} {body? : Option Body}
    (h : Body.read? names (fields.field "body") = .ok body?) :
    Refer names (Fields.references .item fields "body") (body?.toList.flatMap Body.itemIds) := by
  unfold Body.read? at h
  split at h
  · rename_i hnull
    cases h
    exact Body.delivers.ifNotNull rfl (fun _ => rfl) fun hne => absurd hnull hne
  · rename_i hgiven
    obtain ⟨body, hbody, heq⟩ := bind_eq_ok_iff.1 h
    cases heq
    exact Body.delivers.ifNotNull rfl (fun hnull => absurd hnull hgiven) fun _ => ⟨body, hbody, rfl⟩

/-- An item refers to the items of just the objects in its entry that refer to one, in the same
order. -/
theorem Item.delivers : Delivers .item names (Item.read names) Item.itemIds := by
  intro v item h
  obtain ⟨fields, path, promoted, rfl, -, -, -, -, hinitializer, hmain, hvalues, hpromoted, -⟩ :=
    Item.exists_of_read h
  rw [references_object]
  refine List.rel_append (refer_initializer hinitializer) ?_
  exact refer_cons (refer_main hmain)
    (refer_one (Body.delivers.elementsIfGiven rfl hvalues hpromoted))

end MirListing
