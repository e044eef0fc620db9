import MirListing.Reader.Program

/-!
# Short and long forms

A document may write some of its parts in short: a place as `_3`, a type as a string, and a span or
a source that is no place by leaving it out or by null.  `Shorthand` lists these forms, each with
the long form that stands for the same.

Where in a document a place or a type stands is a matter of the names of fields: every node of a
document is of a kind, and a table says for each kind which of its fields hold nodes again
(`DocumentNode.forms`).  All other values are plain and nothing is written out in them; `_3` as the
name of a variant is no place.  `WritesOut` says of two documents that the second is the first with
any of its short forms written out, at any depth.

A short form that cannot be read may have a long form that can: `_+3` is no place, and the local
`+3` is the local 3.  So reading the long form is compared with reading the short one in one
direction (`SucceedsAs`).  The lemmas here carry that from the parts of a node to the node; the
readers themselves come in a module of their own.
-/

namespace MirListing

/-! ## Outcomes that succeed alike -/

/-- What one outcome succeeds with, another succeeds with as well. -/
def SucceedsAs {α : Type} (o o' : Outcome α) : Prop := ∀ a, o = .ok a → o' = .ok a

namespace SucceedsAs

variable {α β : Type}

theorem refl (o : Outcome α) : SucceedsAs o o := fun _ h => h

theorem of_eq {o o' : Outcome α} (h : o = o') : SucceedsAs o o' := h ▸ refl o

theorem error (failure : Failure) (o : Outcome α) : SucceedsAs (.error failure) o := by
  intro a h
  cases h

theorem bind {o o' : Outcome α} {k k' : α → Outcome β} (h : SucceedsAs o o')
    (hk : ∀ a, SucceedsAs (k a) (k' a)) : SucceedsAs (o >>= k) (o' >>= k') := by
  intro b hb
  obtain ⟨a, ha, hka⟩ := bind_eq_ok_iff.1 hb
  exact bind_eq_ok_iff.2 ⟨a, h a ha, hk a b hka⟩

/-- A step in front that both take. -/
theorem bind_right (o : Outcome α) {k k' : α → Outcome β} (hk : ∀ a, SucceedsAs (k a) (k' a)) :
    SucceedsAs (o >>= k) (o >>= k') :=
  (refl o).bind hk

/-- A step behind that both take. -/
theorem bind_left {o o' : Outcome α} (h : SucceedsAs o o') (k : α → Outcome β) :
    SucceedsAs (o >>= k) (o' >>= k) :=
  h.bind fun a => refl (k a)

/-- What goes on with the fields of an object. -/
theorem asObject_bind {fields long : Fields} {next next' : Fields → Outcome α}
    (h : SucceedsAs (next fields) (next' long)) :
    SucceedsAs ((Value.object fields).asObject >>= next) ((Value.object long).asObject >>= next') :=
  h

end SucceedsAs

/-! ## Nodes and their fields -/

/-- The kinds of nodes of a document. -/
inductive DocumentNode
  | program | item | body | block | localDecl | scope | debugRecord | userType | sourceInfo
  | statement | terminator | rvalue | aggregate | operand | place | projection | const | ty
deriving DecidableEq

/-- What a value in a document is read as. -/
inductive Form
  /-- A value in which nothing is written out. -/
  | plain
  /-- A span. -/
  | span
  /-- A node. -/
  | node (n : DocumentNode)
  /-- A list of nodes. -/
  | nodes (n : DocumentNode)
deriving DecidableEq

/-- The fields of a node that are not plain. -/
def DocumentNode.forms : DocumentNode → List (String × Form)
  | .program => [("items", .nodes .item)]
  | .item => [("body", .node .body), ("promoted", .nodes .body)]
  | .body =>
      [("blocks", .nodes .block), ("locals", .nodes .localDecl), ("scopes", .nodes .scope),
        ("var_debug_info", .nodes .debugRecord), ("user_type_annotations", .nodes .userType),
        ("yield_ty", .node .ty), ("span", .span)]
  | .block => [("statements", .nodes .statement), ("terminator", .node .terminator)]
  | .localDecl => [("ty", .node .ty), ("source_info", .node .sourceInfo)]
  | .scope => [("span", .span)]
  | .debugRecord => [("source_info", .node .sourceInfo), ("place", .node .place)]
  | .userType => [("span", .span), ("inferred_ty", .node .ty)]
  | .sourceInfo => [("span", .span)]
  | .statement =>
      [("source_info", .node .sourceInfo), ("place", .node .place), ("rvalue", .node .rvalue)]
  | .terminator =>
      [("source_info", .node .sourceInfo), ("discr", .node .operand), ("switch_ty", .node .ty),
        ("place", .node .place), ("value", .node .operand), ("func", .node .operand),
        ("args", .nodes .operand), ("destination", .node .place), ("cond", .node .operand),
        ("resume_arg", .node .place)]
  | .rvalue =>
      [("operand", .node .operand), ("place", .node .place), ("ty", .node .ty),
        ("lhs", .node .operand), ("rhs", .node .operand), ("aggregate", .node .aggregate),
        ("operands", .nodes .operand)]
  | .aggregate => [("ty", .node .ty), ("substs", .nodes .ty)]
  | .operand => [("place", .node .place), ("span", .span), ("literal", .node .const)]
  | .place => [("projection", .nodes .projection)]
  | .projection => [("ty", .node .ty)]
  | .const => [("ty", .node .ty)]
  | .ty => [("consts", .nodes .const)]

/-- What the value of a field of a node is read as. -/
def DocumentNode.form (n : DocumentNode) : Spelling → Form
  | .text name => (n.forms.lookup name).getD .plain
  | .garbled _ _ => .plain

/-! ## Writing out -/

/-- The short forms with what they stand for. -/
inductive Shorthand : Form → Value → Value → Prop
  /-- A place without steps. -/
  | place (slot : String) :
      Shorthand (.node .place) (.string ("_" ++ slot)) (.object [(.text "local", .string slot)])
  /-- A type without constants. -/
  | ty (name : Spelling) :
      Shorthand (.node .ty) (.spelled name) (.object [(.text "name", .spelled name)])
  /-- The same with a list of constants that is empty. -/
  | tyConsts (name : Spelling) :
      Shorthand (.node .ty) (.spelled name)
        (.object [(.text "name", .spelled name), (.text "consts", .array [])])
  /-- No place in a file. -/
  | span :
      Shorthand .span .null
        (.array [.string "no-location", .integer 0, .integer 0, .integer 0, .integer 0])
  /-- The outermost scope and no place in a file. -/
  | sourceInfo :
      Shorthand (.node .sourceInfo) .null
        (.object [(.text "span", .null), (.text "scope", .integer 0)])

mutual

/-- The second of two values is the first with some of its short forms written out. -/
inductive WritesOut : Form → Value → Value → Prop
  /-- Nothing is written out. -/
  | same {f : Form} {v : Value} : WritesOut f v v
  /-- The value itself is written out. -/
  | short {f : Form} {v long : Value} : Shorthand f v long → WritesOut f v long
  /-- Something in its fields is. -/
  | node {n : DocumentNode} {fields long : Fields} : FieldsWriteOut n fields long →
      WritesOut (.node n) (.object fields) (.object long)
  /-- Something in its elements is. -/
  | nodes {n : DocumentNode} {items long : List Value} : AllWriteOut n items long →
      WritesOut (.nodes n) (.array items) (.array long)

/-- Fields of a node with some short forms in them written out. -/
inductive FieldsWriteOut : DocumentNode → Fields → Fields → Prop
  /-- There are no fields. -/
  | nil {n : DocumentNode} : FieldsWriteOut n [] []
  /-- Something is written out in the first field. -/
  | given {n : DocumentNode} {key : Spelling} {v long : Value} {fields rest : Fields} :
      WritesOut (n.form key) v long → FieldsWriteOut n fields rest →
      FieldsWriteOut n ((key, v) :: fields) ((key, long) :: rest)
  /-- A field that is absent is written out. -/
  | absent {n : DocumentNode} {name : String} {long : Value} {fields rest : Fields} :
      Fields.field? name fields = none → Shorthand (n.form (.text name)) .null long →
      FieldsWriteOut n fields rest → FieldsWriteOut n fields ((.text name, long) :: rest)

/-- Nodes with some of their short forms written out. -/
inductive AllWriteOut : DocumentNode → List Value → List Value → Prop
  /-- There are no nodes. -/
  | nil {n : DocumentNode} : AllWriteOut n [] []
  /-- Something is written out in the first node. -/
  | cons {n : DocumentNode} {v long : Value} {items rest : List Value} :
      WritesOut (.node n) v long → AllWriteOut n items rest →
      AllWriteOut n (v :: items) (long :: rest)

end

/-- Only what may be left out has a short form by null. -/
theorem Shorthand.ne_null {f : Form} {v long : Value} (h : Shorthand f v long) (hspan : f ≠ .span)
    (hsource : f ≠ .node .sourceInfo) : v ≠ .null := by
  cases h with
  | place | ty | tyConsts => exact nofun
  | span => exact absurd rfl hspan
  | sourceInfo => exact absurd rfl hsource

/-- No long form is null. -/
theorem Shorthand.long_ne_null {f : Form} {v long : Value} (h : Shorthand f v long) :
    long ≠ .null := by
  cases h <;> exact nofun

namespace WritesOut

variable {n : DocumentNode} {v long : Value}

theorem eq_of_plain (h : WritesOut .plain v long) : v = long := by
  cases h with
  | same => rfl
  | short hshort => cases hshort

/-- A node that cannot be left out is null exactly if its long form is. -/
theorem null_iff (h : WritesOut (.node n) v long) (hn : n ≠ .sourceInfo) :
    v = .null ↔ long = .null := by
  cases h with
  | same => exact Iff.rfl
  | short hshort =>
    have hne := hshort.ne_null nofun fun heq => hn (Form.node.inj heq)
    exact iff_of_false hne hshort.long_ne_null
  | node => exact iff_of_false nofun nofun

/-- What goes on with a node that may be absent but cannot be left out in short. -/
theorem ifNotNull {α : Type} {absent absent' : Outcome α} {next next' : Value → Outcome α} :
    WritesOut (.node n) v long → n ≠ .sourceInfo → SucceedsAs absent absent' →
    SucceedsAs (next v) (next' long) →
    SucceedsAs (match v with | .null => absent | value => next value)
      (match long with | .null => absent' | value => next' value) := by
  intro h hn habsent hnext
  have hiff := h.null_iff hn
  clear h
  split
  · rw [hiff.1 rfl]
    exact habsent
  · rename_i hnotNull
    split
    · exact absurd (hiff.2 rfl) hnotNull
    · exact hnext

theorem nodes_cases (h : WritesOut (.nodes n) v long) :
    v = long ∨ ∃ items rest, v = .array items ∧ long = .array rest ∧ AllWriteOut n items rest := by
  cases h with
  | same => exact .inl rfl
  | short hshort => cases hshort
  | nodes hall => exact .inr ⟨_, _, rfl, rfl, hall⟩

end WritesOut

namespace FieldsWriteOut

variable {n : DocumentNode} {fields long : Fields}

/-! ## One field -/

/-- A field is in both objects or in neither, unless it is one that has been left out. -/
theorem field?_cases (name : String) : ∀ {fields long : Fields}, FieldsWriteOut n fields long →
    (Fields.field? name fields = none ∧ Fields.field? name long = none) ∨
      (∃ v w, Fields.field? name fields = some v ∧ Fields.field? name long = some w ∧
        WritesOut (n.form (.text name)) v w) ∨
      ∃ w, Fields.field? name fields = none ∧ Fields.field? name long = some w ∧
        Shorthand (n.form (.text name)) .null w
  | _, _, .nil => .inl ⟨rfl, rfl⟩
  | _, _, @FieldsWriteOut.given _ key v w _ _ hvalue hrest => by
    unfold Fields.field?
    rw [List.lookup_cons, List.lookup_cons]
    by_cases hkey : Spelling.text name = key
    · subst hkey
      simp only [beq_self_eq_true]
      exact .inr (.inl ⟨v, w, rfl, rfl, hvalue⟩)
    · rw [beq_false_of_ne hkey]
      exact field?_cases name hrest
  | _, _, @FieldsWriteOut.absent _ other w _ _ hnone hshort hrest => by
    unfold Fields.field?
    rw [List.lookup_cons]
    by_cases hname : name = other
    · subst hname
      simp only [beq_self_eq_true]
      exact .inr (.inr ⟨w, hnone, rfl, hshort⟩)
    · rw [beq_false_of_ne fun heq => hname (Spelling.text.inj heq)]
      exact field?_cases name hrest

/-- Nothing is written out in a plain field. -/
theorem field?_eq (h : FieldsWriteOut n fields long) {name : String}
    (hplain : n.form (.text name) = .plain) :
    Fields.field? name fields = Fields.field? name long := by
  rcases h.field?_cases name with ⟨hv, hw⟩ | ⟨v, w, hv, hw, hout⟩ | ⟨w, hv, hw, hshort⟩
  · rw [hv, hw]
  · rw [hplain] at hout
    rw [hv, hw, hout.eq_of_plain]
  · rw [hplain] at hshort
    cases hshort

/-- What a field that may be null is read from. -/
theorem field (h : FieldsWriteOut n fields long) (name : String) :
    WritesOut (n.form (.text name)) (Fields.field name fields) (Fields.field name long) := by
  unfold Fields.field
  rcases h.field?_cases name with ⟨hv, hw⟩ | ⟨v, w, hv, hw, hout⟩ | ⟨w, hv, hw, hshort⟩
  · rw [hv, hw]
    exact .same
  · rw [hv, hw]
    exact hout
  · rw [hv, hw]
    exact .short hshort

/-- What a field that has a usual value is read from. -/
theorem fieldOr (h : FieldsWriteOut n fields long) (name : String) {k : DocumentNode}
    (hform : n.form (.text name) = .node k) (hk : k ≠ .sourceInfo) (absent : Value) :
    WritesOut (.node k) (Fields.fieldOr name absent fields) (Fields.fieldOr name absent long) := by
  unfold Fields.fieldOr
  rcases h.field?_cases name with ⟨hv, hw⟩ | ⟨v, w, hv, hw, hout⟩ | ⟨w, hv, hw, hshort⟩
  · rw [hv, hw]
    exact .same
  · rw [hv, hw, ← hform]
    exact hout
  · rw [hform] at hshort
    exact absurd rfl (hshort.ne_null nofun fun heq => hk (Form.node.inj heq))

/-! ## Plain fields -/

section

variable (h : FieldsWriteOut n fields long) (name : String)
  (hplain : n.form (.text name) = .plain)
include h hplain

theorem member_eq :
    Fields.member name fields = Fields.member name long := by
  rw [Fields.member, h.field?_eq hplain, Fields.member]

theorem field_eq :
    Fields.field name fields = Fields.field name long := by
  rw [Fields.field, h.field?_eq hplain, Fields.field]

theorem fieldOr_eq (absent : Value) :
    Fields.fieldOr name absent fields = Fields.fieldOr name absent long := by
  rw [Fields.fieldOr, h.field?_eq hplain, Fields.fieldOr]

theorem integer_eq :
    Fields.integer name fields = Fields.integer name long := by
  rw [Fields.integer, h.member_eq name hplain, Fields.integer]

theorem integerOr_eq (absent : Int) :
    Fields.integerOr name absent fields = Fields.integerOr name absent long := by
  rw [Fields.integerOr, h.fieldOr_eq name hplain, Fields.integerOr]

theorem integer?_eq :
    Fields.integer? name fields = Fields.integer? name long := by
  rw [Fields.integer?, h.field_eq name hplain, Fields.integer?]

theorem flag_eq (absent : Bool) :
    Fields.flag name absent fields = Fields.flag name absent long := by
  rw [Fields.flag, h.fieldOr_eq name hplain, Fields.flag]

theorem label?_eq :
    Fields.label? name fields = Fields.label? name long := by
  rw [Fields.label?, h.field_eq name hplain, Fields.label?]

theorem require_eq (what : String) :
    Value.require what name (.object fields) = Value.require what name (.object long) := by
  rw [Value.require, h.field?_eq hplain, Value.require]

end

/-! ## Fields with nodes -/

section

variable {α : Type} {next next' : Value → Outcome α} {k : DocumentNode}
  (h : FieldsWriteOut n fields long)
include h

/-- What goes on with a node in a field that must be there. -/
theorem member_bind (name : String) (hform : n.form (.text name) = .node k)
    (hk : k ≠ .sourceInfo)
    (hnext : ∀ ⦃v w⦄, WritesOut (.node k) v w → SucceedsAs (next v) (next' w)) :
    SucceedsAs (Fields.member name fields >>= next) (Fields.member name long >>= next') := by
  unfold Fields.member
  rcases h.field?_cases name with ⟨hv, hw⟩ | ⟨v, w, hv, hw, hout⟩ | ⟨w, hv, hw, hshort⟩
  · rw [hv, hw]
    exact .error _ _
  · rw [hv, hw]
    exact hnext (hform ▸ hout)
  · rw [hform] at hshort
    exact absurd rfl (hshort.ne_null nofun fun heq => hk (Form.node.inj heq))

/-- What goes on with a part of a node in a field that must be there. -/
theorem require_bind (what name : String) {f : Form} (hform : n.form (.text name) = f)
    (hf : f ≠ .span ∧ f ≠ .node .sourceInfo)
    (hnext : ∀ ⦃v w⦄, WritesOut f v w → SucceedsAs (next v) (next' w)) :
    SucceedsAs (Value.require what name (.object fields) >>= next)
      (Value.require what name (.object long) >>= next') := by
  rw [Value.require, Value.require]
  rcases h.field?_cases name with ⟨hv, hw⟩ | ⟨v, w, hv, hw, hout⟩ | ⟨w, hv, hw, hshort⟩
  · rw [hv, hw]
    exact .error _ _
  · rw [hv, hw]
    exact hnext (hform ▸ hout)
  · rw [hform] at hshort
    exact absurd rfl (hshort.ne_null hf.1 hf.2)

/-- What goes on with the kind of a node. -/
theorem tagged_bind (what : String) {next next' : Spelling × Fields → Outcome α}
    (hplain : n.form (.text "kind") = .plain)
    (hnext : ∀ kind, SucceedsAs (next (kind, fields)) (next' (kind, long))) :
    SucceedsAs ((Value.object fields).tagged what >>= next)
      ((Value.object long).tagged what >>= next') := by
  rw [Value.tagged, Value.tagged, h.field?_eq hplain]
  split
  · exact hnext _
  · exact .error _ _

end

end FieldsWriteOut

/-! ## Lists of nodes -/

namespace AllWriteOut

variable {n : DocumentNode}

theorem refl : ∀ items : List Value, AllWriteOut n items items
  | [] => .nil
  | _ :: rest => .cons .same (refl rest)

theorem isEmpty_eq {items long : List Value} (h : AllWriteOut n items long) :
    items.isEmpty = long.isEmpty := by
  cases h <;> rfl

/-- A list of nodes is read if each of them is. -/
theorem mapM {α : Type} {read : Value → Outcome α} : ∀ {items long : List Value},
    AllWriteOut n items long →
    (∀ v ∈ items, ∀ w, WritesOut (.node n) v w → SucceedsAs (read v) (read w)) →
    SucceedsAs (items.mapM read) (long.mapM read)
  | _, _, .nil, _ => .refl _
  | _, _, .cons hfirst hrest, hread => by
    rw [List.mapM_cons, List.mapM_cons]
    refine (hread _ List.mem_cons_self _ hfirst).bind fun _ => ?_
    exact (mapM hrest fun v hv => hread v (List.mem_cons_of_mem _ hv)).bind_left _

end AllWriteOut

section

variable {n : DocumentNode} {v w : Value} {α : Type} {next next' : List Value → Outcome α}

/-- What goes on with the nodes of a list. -/
theorem WritesOut.elements_bind (h : WritesOut (.nodes n) v w)
    (hnext : ∀ items long, AllWriteOut n items long → SucceedsAs (next items) (next' long)) :
    SucceedsAs (v.elements >>= next) (w.elements >>= next') := by
  rcases h.nodes_cases with rfl | ⟨items, long, rfl, rfl, hall⟩
  · exact .bind_right _ fun items => hnext items items (.refl items)
  · exact hnext items long hall

/-- A list counts as given exactly if it does with its nodes written out. -/
theorem WritesOut.isGiven_eq (h : WritesOut (.nodes n) v w) : v.isGiven = w.isGiven := by
  rcases h.nodes_cases with rfl | ⟨items, long, rfl, rfl, hall⟩
  · rfl
  · rw [Value.isGiven, Value.isGiven, hall.isEmpty_eq]

/-- What goes on with the nodes of a list that may be absent. -/
theorem FieldsWriteOut.elementsIfGiven_bind {k : DocumentNode} {fields long : Fields}
    (h : FieldsWriteOut k fields long) (name : String) (hform : k.form (.text name) = .nodes n)
    (hnext : ∀ items rest, AllWriteOut n items rest → SucceedsAs (next items) (next' rest)) :
    SucceedsAs ((Fields.field name fields).elementsIfGiven >>= next)
      ((Fields.field name long).elementsIfGiven >>= next') := by
  have hfield := h.field name
  rw [hform] at hfield
  rw [Value.elementsIfGiven, Value.elementsIfGiven, hfield.isGiven_eq]
  split
  · exact hfield.elements_bind hnext
  · exact hnext [] [] .nil

end

end MirListing
