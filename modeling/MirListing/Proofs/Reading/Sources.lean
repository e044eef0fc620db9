import MirListing.Proofs.Body.Occurrences
import MirListing.Proofs.Reading.Inside
import MirListing.Reader.Body

/-!
# What parts have been read from

A reader of a part of a body has called the readers of what the part is made of.  For each kind of
part one statement says so: an operand yields its place or its constant, a terminator its operands,
places and types, a body its blocks and locals.  Put one after the other they reach every constant
that occurs in a body, however deep in types it stands (`Body.ReadIn.const`).

A type that is not stated stands nowhere in a document.  The only one is the usual type of a switch,
which has no constants.
-/

namespace MirListing

open Value

/-- An object refers to an item by its path. -/
def Value.RefersTo (names : Names) (v : Value) (item : ItemId) : Prop :=
  ∃ fields path, v = .object fields ∧ Fields.field? "path" fields = some path ∧
    names.resolve path = .ok item

variable {names : Names} {v : Value}

theorem refersTo_of_member {fields : Fields} {path : Value} {item : ItemId}
    (hpath : fields.member "path" = .ok path) (hitem : names.resolve path = .ok item) :
    (Value.object fields).RefersTo names item :=
  ⟨fields, path, rfl, field?_of_member hpath, hitem⟩

/-! ## Types and constants -/

/-- What is no array holds no constants. -/
theorem Const.eq_nil_of_refuseElements {consts : List Const}
    (h : Const.refuseElements v = .ok consts) : consts = [] := by
  unfold Const.refuseElements at h
  obtain ⟨elements, -, h⟩ := bind_eq_ok_iff.1 h
  split at h
  · cases h
    rfl
  · cases h

/-- The constants of a type have been read inside it. -/
theorem Ty.yields_const {ty : Ty} {c : Const} (h : Ty.read names v = .ok ty) (hc : c ∈ ty.consts) :
    v.Yields (Const.read names) c := by
  rw [Ty.read.eq_def] at h
  split at h
  · cases h
    cases hc
  · split at h
    · cases h
    · split at h
      · rename_i fields _ _ _ entries hentries
        obtain ⟨consts, hconsts, hty⟩ := bind_eq_ok_iff.1 h
        cases hty
        obtain ⟨⟨entry, hentry⟩, -, hread⟩ := exists_of_mem_mapM hconsts hc
        have hinside := inside_of_elements
          (show (Value.array entries).elements = .ok entries from rfl) hentry
        exact ((inside_of_field? hentries).trans hinside).yields hread
      · obtain ⟨consts, hconsts, hty⟩ := bind_eq_ok_iff.1 h
        cases hty
        obtain rfl := Const.eq_nil_of_refuseElements hconsts
        cases hc
      · cases h
        cases hc
  · obtain ⟨_, -, h⟩ := bind_eq_ok_iff.1 h
    cases h

theorem Const.exists_of_read {c : Const} (h : Const.read names v = .ok c) :
    v.Yields (Ty.read names) c.ty ∧ v.Yields (ConstValue.read names) c.value := by
  rw [Const.read.eq_def] at h
  split at h
  · split at h
    · cases h
    · rename_i fields _ ty hty
      obtain ⟨readTy, hreadTy, h⟩ := bind_eq_ok_iff.1 h
      obtain ⟨value, hvalue, h⟩ := bind_eq_ok_iff.1 h
      obtain ⟨readValue, hreadValue, hc⟩ := bind_eq_ok_iff.1 h
      cases hc
      exact ⟨(inside_of_field? hty).yields hreadTy, (inside_of_require hvalue).yields hreadValue⟩
  · cases h

/-- A constant that stands in a type, at any depth, has been read inside it. -/
theorem Ty.yields_embedded {ty : Ty} {c : Const} (hc : Embeds ty c) :
    ∀ {v : Value}, Ty.read names v = .ok ty → v.Yields (Const.read names) c := by
  induction hc with
  | here hc =>
    intro v h
    exact Ty.yields_const h hc
  | deeper houter _ ih =>
    intro v h
    refine (Ty.yields_const h houter).bind fun w hw => ?_
    exact (Const.exists_of_read hw).1.bind fun u hu => ih hu

/-! ## Places and operands -/

theorem Projection.yields_ty {number : Int} {ty : Ty}
    (h : Projection.read names v = .ok (.field number ty)) : v.Yields (Ty.read names) ty := by
  unfold Projection.read at h
  obtain ⟨kind, fields, rfl, hkind⟩ := exists_of_tagged h
  simp only at hkind
  split at hkind
  case h_2 =>
    simp only [bind_eq_ok_iff] at hkind
    obtain ⟨_, -, member, hmember, readTy, hread, hfield⟩ := hkind
    cases hfield
    exact (inside_of_member hmember).yields hread
  -- no other step has a type
  all_goals simp [bind_eq_ok_iff, pure, Except.pure] at hkind

theorem Place.projection_ofSpelling {text : Spelling} {place : Place}
    (h : Place.ofSpelling text = .ok place) : place.projection = [] := by
  unfold Place.ofSpelling at h
  split at h
  · split at h
    · cases h
    · obtain ⟨slot, -, h⟩ := bind_eq_ok_iff.1 h
      cases h
      rfl
  · cases h

/-- The types behind the steps of a place have been read inside it. -/
theorem Place.yields_ty {place : Place} {number : Int} {ty : Ty}
    (h : Place.read names v = .ok place) (hstep : .field number ty ∈ place.projection) :
    v.Yields (Ty.read names) ty := by
  unfold Place.read at h
  split at h
  · rw [Place.projection_ofSpelling h] at hstep
    cases hstep
  · simp only [bind_eq_ok_iff] at h
    obtain ⟨fields, hfields, steps, hsteps, projection, hprojection, _, -, _, -, hplace⟩ := h
    cases hplace
    cases asObject_eq_ok_iff.1 hfields
    exact (yields_of_field_elements hsteps hprojection hstep).bind fun w hw =>
      Projection.yields_ty hw

theorem Operand.exists_of_read {o : Operand} (h : Operand.read names v = .ok o) :
    (∀ place, o = .copy place ∨ o = .move place → v.Yields (Place.read names) place) ∧
      ∀ k, o = .constant k → v.Yields (Const.read names) k.literal := by
  unfold Operand.read at h
  obtain ⟨kind, fields, rfl, hkind⟩ := exists_of_tagged h
  simp only at hkind
  split at hkind
  · simp only [bind_eq_ok_iff] at hkind
    obtain ⟨member, hmember, place, hplace, hcopy⟩ := hkind
    cases hcopy
    refine ⟨fun other hother => ?_, nofun⟩
    cases hother.resolve_right nofun
    exact (inside_of_member hmember).yields hplace
  · simp only [bind_eq_ok_iff] at hkind
    obtain ⟨member, hmember, place, hplace, hmove⟩ := hkind
    cases hmove
    refine ⟨fun other hother => ?_, nofun⟩
    cases hother.resolve_left nofun
    exact (inside_of_member hmember).yields hplace
  · simp only [bind_eq_ok_iff] at hkind
    obtain ⟨k, hk, hconst⟩ := hkind
    cases hconst
    refine ⟨by simp, ?_⟩
    rintro _ ⟨⟩
    simp only [Constant.read, bind_eq_ok_iff] at hk
    obtain ⟨_, -, literal, hliteral, readLiteral, hread, _, -, hk⟩ := hk
    cases hk
    exact (inside_of_require hliteral).yields hread
  · cases hkind

theorem yields_operand_of_readAll {fields : Fields} {name : String} {operands : List Operand}
    {o : Operand} (h : Operand.readAll names (fields.field name) = .ok operands)
    (ho : o ∈ operands) : (Value.object fields).Yields (Operand.read names) o := by
  obtain ⟨items, hitems, h⟩ := bind_eq_ok_iff.1 h
  exact yields_of_field_elements hitems h ho

theorem yields_of_readOperand {fields : Fields} {name : String} {o : Operand}
    (h : readOperand names name fields = .ok o) :
    (Value.object fields).Yields (Operand.read names) o := by
  obtain ⟨member, hmember, h⟩ := bind_eq_ok_iff.1 h
  exact (inside_of_member hmember).yields h

theorem yields_of_readPlace {fields : Fields} {name : String} {place : Place}
    (h : readPlace names name fields = .ok place) :
    (Value.object fields).Yields (Place.read names) place := by
  obtain ⟨member, hmember, h⟩ := bind_eq_ok_iff.1 h
  exact (inside_of_member hmember).yields h

/-! ## Computed values -/

/-- What a computed value is made of has been read inside it. -/
structure Rvalue.ReadIn (names : Names) (v : Value) (value : Rvalue) : Prop where
  /-- Its operands. -/
  operands : ∀ o ∈ value.operands, v.Yields (Operand.read names) o
  /-- Its places. -/
  places : ∀ place ∈ value.places, v.Yields (Place.read names) place
  /-- Its types. -/
  types : ∀ ty ∈ value.types, v.Yields (Ty.read names) ty
  /-- What operands are put together to. -/
  kind : ∀ kind operands, value = .aggregate kind operands →
    v.Yields (AggregateKind.read names) kind

/-- The item of a closure or generator. -/
def AggregateKind.item? : AggregateKind → Option ItemId
  | .closure item _ | .generator item _ _ => some item
  | .array _ | .tuple | .adt _ _ _ _ => none

/-- What is put together has been read with its types and its path. -/
structure AggregateKind.ReadIn (names : Names) (v : Value) (kind : AggregateKind) : Prop where
  /-- Its types. -/
  types : ∀ ty ∈ kind.types, v.Yields (Ty.read names) ty
  /-- Its item. -/
  item : ∀ item, kind.item? = some item → v.RefersTo names item

theorem AggregateKind.readIn_of_read {kind : AggregateKind}
    (h : AggregateKind.read names v = .ok kind) : kind.ReadIn names v := by
  unfold AggregateKind.read at h
  obtain ⟨word, fields, rfl, hword⟩ := exists_of_tagged h
  simp only at hword
  split at hword
  · simp only [bind_eq_ok_iff] at hword
    obtain ⟨member, hmember, ty, hty, harray⟩ := hword
    cases harray
    exact ⟨List.forall_mem_singleton.2 ((inside_of_member hmember).yields hty), nofun⟩
  · cases hword
    exact ⟨List.forall_mem_nil _, nofun⟩
  · simp only [bind_eq_ok_iff] at hword
    obtain ⟨_, -, _, -, _, -, hadt⟩ := hword
    cases hadt
    exact ⟨List.forall_mem_nil _, nofun⟩
  · obtain ⟨substs, hsubsts, hword⟩ := bind_eq_ok_iff.1 hword
    obtain ⟨items, hitems, hread⟩ := bind_eq_ok_iff.1 hsubsts
    have hall : ∀ ty ∈ substs, (Value.object fields).Yields (Ty.read names) ty :=
      fun ty hty => yields_of_field_elements hitems hread hty
    split at hword
    · simp only [bind_eq_ok_iff] at hword
      obtain ⟨path, hpath, item, hitem, hclosure⟩ := hword
      cases hclosure
      refine ⟨hall, ?_⟩
      rintro _ ⟨⟩
      exact refersTo_of_member hpath hitem
    · simp only [bind_eq_ok_iff] at hword
      obtain ⟨_, -, path, hpath, item, hitem, hgenerator⟩ := hword
      cases hgenerator
      refine ⟨hall, ?_⟩
      rintro _ ⟨⟩
      exact refersTo_of_member hpath hitem
    · cases hword

theorem yields_of_readBinary {fields : Fields} {op : BinaryOperator} {left right : Operand}
    (h : readBinary names fields = .ok (op, left, right)) :
    ∀ o ∈ [left, right], (Value.object fields).Yields (Operand.read names) o := by
  simp only [readBinary, bind_eq_ok_iff] at h
  obtain ⟨_, -, _, -, first, hfirst, _, hleft, second, hsecond, _, hright, heq⟩ := h
  cases heq
  exact List.forall_mem_cons.2 ⟨(inside_of_member hfirst).yields hleft,
    List.forall_mem_singleton.2 ((inside_of_member hsecond).yields hright)⟩

theorem Rvalue.readIn_of_read {value : Rvalue} (h : Rvalue.read names v = .ok value) :
    value.ReadIn names v := by
  unfold Rvalue.read at h
  obtain ⟨word, fields, rfl, hword⟩ := exists_of_tagged h
  simp only at hword
  split at hword
  case h_1 =>
    simp only [bind_eq_ok_iff] at hword
    obtain ⟨o, ho, heq⟩ := hword
    cases heq
    exact ⟨List.forall_mem_singleton.2 (yields_of_readOperand ho), List.forall_mem_nil _,
      List.forall_mem_nil _, nofun⟩
  case h_2 =>
    simp only [bind_eq_ok_iff] at hword
    obtain ⟨o, ho, _, -, heq⟩ := hword
    cases heq
    exact ⟨List.forall_mem_singleton.2 (yields_of_readOperand ho), List.forall_mem_nil _,
      List.forall_mem_nil _, nofun⟩
  case h_3 | h_4 =>
    simp only [bind_eq_ok_iff] at hword
    obtain ⟨place, hplace, _, -, heq⟩ := hword
    cases heq
    exact ⟨List.forall_mem_nil _, List.forall_mem_singleton.2 (yields_of_readPlace hplace),
      List.forall_mem_nil _, nofun⟩
  case h_5 | h_10 =>
    simp only [bind_eq_ok_iff] at hword
    obtain ⟨place, hplace, heq⟩ := hword
    cases heq
    exact ⟨List.forall_mem_nil _, List.forall_mem_singleton.2 (yields_of_readPlace hplace),
      List.forall_mem_nil _, nofun⟩
  case h_6 =>
    simp only [bind_eq_ok_iff] at hword
    obtain ⟨o, ho, member, hmember, ty, hty, heq⟩ := hword
    cases heq
    exact ⟨List.forall_mem_singleton.2 (yields_of_readOperand ho), List.forall_mem_nil _,
      List.forall_mem_singleton.2 ((inside_of_member hmember).yields hty), nofun⟩
  case h_7 | h_8 =>
    simp only [bind_eq_ok_iff] at hword
    obtain ⟨⟨op, left, right⟩, hoperands, heq⟩ := hword
    cases heq
    exact ⟨yields_of_readBinary hoperands, List.forall_mem_nil _, List.forall_mem_nil _, nofun⟩
  case h_9 =>
    simp only [bind_eq_ok_iff] at hword
    obtain ⟨_, -, _, -, o, ho, heq⟩ := hword
    cases heq
    exact ⟨List.forall_mem_singleton.2 (yields_of_readOperand ho), List.forall_mem_nil _,
      List.forall_mem_nil _, nofun⟩
  case h_11 =>
    simp only [bind_eq_ok_iff] at hword
    obtain ⟨_, -, _, -, member, hmember, ty, hty, heq⟩ := hword
    cases heq
    exact ⟨List.forall_mem_nil _, List.forall_mem_nil _,
      List.forall_mem_singleton.2 ((inside_of_member hmember).yields hty), nofun⟩
  case h_12 =>
    simp only [bind_eq_ok_iff] at hword
    obtain ⟨member, hmember, kind, hkind, operands, hoperands, heq⟩ := hword
    cases heq
    have hyields := (inside_of_member hmember).yields hkind
    refine ⟨fun o ho => yields_operand_of_readAll hoperands ho, List.forall_mem_nil _,
      fun ty hty => hyields.bind fun w hw => (AggregateKind.readIn_of_read hw).types ty hty, ?_⟩
    rintro _ _ ⟨⟩
    exact hyields
  case h_13 => cases hword

/-! ## Statements and terminators -/

/-- What a statement is made of has been read inside it. -/
structure StatementKind.ReadIn (names : Names) (v : Value) (kind : StatementKind) : Prop where
  /-- The value that it assigns. -/
  value : ∀ value, kind.value? = some value → v.Yields (Rvalue.read names) value
  /-- Its places outside that value. -/
  places : ∀ place ∈ kind.places, v.Yields (Place.read names) place

theorem StatementKind.ReadIn.of_places {kind : StatementKind} (hvalue : kind.value? = none)
    (hplaces : ∀ place ∈ kind.places, v.Yields (Place.read names) place) : kind.ReadIn names v := by
  refine ⟨fun value h => ?_, hplaces⟩
  rw [hvalue] at h
  cases h

theorem StatementKind.readIn_of_read {word : Spelling} {fields : Fields} {kind : StatementKind}
    (h : StatementKind.read names word fields = .ok kind) : kind.ReadIn names (.object fields) := by
  unfold StatementKind.read at h
  split at h
  case h_1 =>
    simp only [bind_eq_ok_iff] at h
    obtain ⟨place, hplace, member, hmember, value, hvalue, heq⟩ := h
    cases heq
    refine ⟨?_, List.forall_mem_singleton.2 (yields_of_readPlace hplace)⟩
    rintro _ ⟨⟩
    exact (inside_of_member hmember).yields hvalue
  case h_2 | h_6 =>
    simp only [bind_eq_ok_iff] at h
    obtain ⟨place, hplace, heq⟩ := h
    cases heq
    exact .of_places rfl (List.forall_mem_singleton.2 (yields_of_readPlace hplace))
  case h_3 =>
    simp only [bind_eq_ok_iff] at h
    obtain ⟨place, hplace, _, -, heq⟩ := h
    cases heq
    exact .of_places rfl (List.forall_mem_singleton.2 (yields_of_readPlace hplace))
  case h_4 | h_5 =>
    simp only [bind_eq_ok_iff] at h
    obtain ⟨_, -, heq⟩ := h
    cases heq
    exact .of_places rfl (List.forall_mem_nil _)
  case h_7 =>
    simp only [bind_eq_ok_iff] at h
    obtain ⟨place, hplace, _, -, _, -, heq⟩ := h
    cases heq
    exact .of_places rfl (List.forall_mem_singleton.2 (yields_of_readPlace hplace))
  case h_8 =>
    cases h
    exact .of_places rfl (List.forall_mem_nil _)
  case h_9 => cases h

theorem Statement.readIn_of_read {s : Statement} (h : Statement.read names v = .ok s) :
    s.kind.ReadIn names v := by
  obtain ⟨word, fields, rfl, hstatement⟩ := exists_of_tagged h
  simp only [bind_eq_ok_iff] at hstatement
  obtain ⟨_, -, kind, hkind, hs⟩ := hstatement
  cases hs
  exact StatementKind.readIn_of_read hkind

/-- The branches of a switch, and the target that is left over. -/
def TerminatorKind.switch? : TerminatorKind → Option (List (Int × Int) × Int)
  | .switchInt _ _ branches otherwise => some (branches, otherwise)
  | _ => none

/-- The numbers and the targets that a switch states. -/
def readSwitch (value : Value) : Outcome (List Int × List Int) := do
  let fields ← value.asObject
  let values ← readIntegers (← fields.member "values")
  return (values, ← readIntegers (← fields.member "targets"))

/-- What a terminator is made of has been read inside it.  The type of a switch may be left out; the
usual one has no constants. -/
structure TerminatorKind.ReadIn (names : Names) (v : Value) (kind : TerminatorKind) : Prop where
  /-- Its operands. -/
  operands : ∀ o ∈ kind.operands, v.Yields (Operand.read names) o
  /-- Its places. -/
  places : ∀ place ∈ kind.places, v.Yields (Place.read names) place
  /-- Its types. -/
  types : ∀ ty ∈ kind.types, v.Yields (Ty.read names) ty ∨ ty.consts = []
  /-- The branches of a switch. -/
  switch : ∀ switch, kind.switch? = some switch → ∃ values targets,
    readSwitch v = .ok (values, targets) ∧ pairBranches values targets = .ok switch

theorem TerminatorKind.readIn_of_read {word : Spelling} {fields : Fields} {kind : TerminatorKind}
    (h : TerminatorKind.read names word fields = .ok kind) :
    kind.ReadIn names (.object fields) := by
  unfold TerminatorKind.read at h
  split at h
  case h_1 | h_2 | h_3 | h_4 | h_5 =>
    cases h
    exact ⟨List.forall_mem_nil _, List.forall_mem_nil _, List.forall_mem_nil _, nofun⟩
  case h_6 =>
    simp only [bind_eq_ok_iff] at h
    obtain ⟨_, -, heq⟩ := h
    cases heq
    exact ⟨List.forall_mem_nil _, List.forall_mem_nil _, List.forall_mem_nil _, nofun⟩
  case h_7 =>
    simp only [bind_eq_ok_iff] at h
    obtain ⟨o, ho, ty, hty, values, hvalues, numbers, hnumbers, targets, htargets, successors,
      hsuccessors, ⟨branches, otherwise⟩, hpairs, heq⟩ := h
    cases heq
    refine ⟨List.forall_mem_singleton.2 (yields_of_readOperand ho), List.forall_mem_nil _,
      List.forall_mem_singleton.2 ?_, ?_⟩
    · unfold Fields.fieldOr at hty
      cases hfound : Fields.field? "switch_ty" fields with
      | none =>
        rw [hfound, Option.getD_none, Ty.read.eq_def] at hty
        cases hty
        exact .inr rfl
      | some value =>
        rw [hfound] at hty
        exact .inl ((inside_of_field? hfound).yields hty)
    · rintro _ ⟨⟩
      refine ⟨numbers, successors, ?_, hpairs⟩
      simp only [readSwitch, bind_eq_ok_iff]
      exact ⟨fields, rfl, values, hvalues, numbers, hnumbers, targets, htargets, successors,
        hsuccessors, rfl⟩
  case h_8 =>
    simp only [bind_eq_ok_iff] at h
    obtain ⟨place, hplace, _, -, _, -, heq⟩ := h
    cases heq
    exact ⟨List.forall_mem_nil _, List.forall_mem_singleton.2 (yields_of_readPlace hplace),
      List.forall_mem_nil _, nofun⟩
  case h_9 =>
    simp only [bind_eq_ok_iff] at h
    obtain ⟨place, hplace, o, ho, _, -, _, -, heq⟩ := h
    cases heq
    exact ⟨List.forall_mem_singleton.2 (yields_of_readOperand ho),
      List.forall_mem_singleton.2 (yields_of_readPlace hplace), List.forall_mem_nil _, nofun⟩
  case h_10 =>
    simp only [bind_eq_ok_iff] at h
    obtain ⟨function, hfunction, arguments, harguments, hrest⟩ := h
    have hoperands := List.forall_mem_cons.2 ⟨yields_of_readOperand hfunction,
      fun o ho => yields_operand_of_readAll harguments ho⟩
    split at hrest
    · simp only [bind_eq_ok_iff] at hrest
      obtain ⟨_, hnone, _, -, _, -, heq⟩ := hrest
      cases hnone
      cases heq
      exact ⟨hoperands, List.forall_mem_nil _, List.forall_mem_nil _, nofun⟩
    · rename_i hgiven
      simp only [bind_eq_ok_iff] at hrest
      obtain ⟨place, hplace, _, hsome, _, -, _, -, heq⟩ := hrest
      cases hsome
      cases heq
      exact ⟨hoperands, List.forall_mem_singleton.2 ((inside_field hgiven).yields hplace),
        List.forall_mem_nil _, nofun⟩
  case h_11 =>
    simp only [bind_eq_ok_iff] at h
    obtain ⟨o, ho, _, -, _, -, heq⟩ := h
    cases heq
    exact ⟨List.forall_mem_singleton.2 (yields_of_readOperand ho), List.forall_mem_nil _,
      List.forall_mem_nil _, nofun⟩
  case h_12 =>
    simp only [bind_eq_ok_iff] at h
    obtain ⟨o, ho, _, -, place, hplace, _, -, heq⟩ := h
    cases heq
    exact ⟨List.forall_mem_singleton.2 (yields_of_readOperand ho),
      List.forall_mem_singleton.2 (yields_of_readPlace hplace), List.forall_mem_nil _, nofun⟩
  case h_13 | h_14 =>
    simp only [bind_eq_ok_iff] at h
    obtain ⟨_, -, _, -, heq⟩ := h
    cases heq
    exact ⟨List.forall_mem_nil _, List.forall_mem_nil _, List.forall_mem_nil _, nofun⟩
  case h_15 => cases h

theorem Terminator.readIn_of_read {t : Terminator} (h : Terminator.read names v = .ok t) :
    t.kind.ReadIn names v := by
  obtain ⟨word, fields, rfl, hterminator⟩ := exists_of_tagged h
  simp only [bind_eq_ok_iff] at hterminator
  obtain ⟨_, -, kind, hkind, ht⟩ := hterminator
  cases ht
  exact TerminatorKind.readIn_of_read hkind

/-! ## Bodies -/

theorem BasicBlock.exists_of_read {b : BasicBlock} (h : BasicBlock.read names v = .ok b) :
    (∀ s ∈ b.statements, v.Yields (Statement.read names) s) ∧
      v.Yields (Terminator.read names) b.terminator := by
  simp only [BasicBlock.read, bind_eq_ok_iff] at h
  obtain ⟨fields, hfields, items, hitems, statements, hstatements, member, hmember, terminator,
    hterminator, hb⟩ := h
  cases hb
  cases asObject_eq_ok_iff.1 hfields
  exact ⟨fun s hs => yields_of_field_elements hitems hstatements hs,
    (inside_of_require hmember).yields hterminator⟩

/-- What a body is made of has been read inside it. -/
structure Body.ReadIn (names : Names) (v : Value) (body : Body) : Prop where
  /-- Its blocks. -/
  blocks : ∀ b ∈ body.blocks, v.Yields (BasicBlock.read names) b
  /-- The types of its locals. -/
  locals : ∀ decl ∈ body.locals, v.Yields (Ty.read names) decl.ty
  /-- The places of its debug records. -/
  debugRecords : ∀ record ∈ body.debugRecords, v.Yields (Place.read names) record.place
  /-- The types that have been written down. -/
  userTypes : ∀ userType ∈ body.userTypes, v.Yields (Ty.read names) userType.inferred
  /-- The type of what is handed out. -/
  yieldType : ∀ ty, body.yieldType? = some ty → v.Yields (Ty.read names) ty
  /-- Its scopes. -/
  scopes : body.scopes ≠ []
  /-- Its locals are enough. -/
  checked : body.check = .ok ()

theorem yields_of_require_elements {α : Type} {what name : String} {read : Value → Outcome α}
    {found : Value} {items : List Value} {results : List α} {a : α}
    (hfound : v.require what name = .ok found) (hitems : found.elements = .ok items)
    (hresults : items.mapM read = .ok results) (ha : a ∈ results) : v.Yields read a := by
  obtain ⟨item, hitem, hread⟩ := exists_of_mem_mapM hresults ha
  exact ((inside_of_require hfound).trans (inside_of_elements hitems hitem)).yields hread

theorem readScopes_ne_nil {value : Value} {scopes : List Scope}
    (h : readScopes value = .ok scopes) : scopes ≠ [] := by
  unfold readScopes at h
  split at h
  · rename_i hgiven
    obtain ⟨items, hitems, hscopes⟩ := bind_eq_ok_iff.1 h
    have hlength := congrArg List.length (mapM_eq_ok_iff.1 hscopes)
    rw [List.length_map, List.length_map] at hlength
    rw [← List.length_pos_iff, ← hlength, List.length_pos_iff]
    exact elements_ne_nil hgiven hitems
  · cases h
    exact List.cons_ne_nil _ _

theorem LocalDecl.yields_ty {decl : LocalDecl} (h : LocalDecl.read names v = .ok decl) :
    v.Yields (Ty.read names) decl.ty := by
  simp only [LocalDecl.read, bind_eq_ok_iff] at h
  obtain ⟨member, hmember, ty, hty, _, -, _, -, _, -, _, -, hdecl⟩ := h
  cases hdecl
  exact (inside_of_require hmember).yields hty

theorem DebugRecord.yields_place {record : DebugRecord}
    (h : DebugRecord.read names v = .ok record) : v.Yields (Place.read names) record.place := by
  simp only [DebugRecord.read, bind_eq_ok_iff] at h
  obtain ⟨fields, hfields, _, -, _, -, place, hplace, hrecord⟩ := h
  cases hrecord
  cases asObject_eq_ok_iff.1 hfields
  exact yields_of_readPlace hplace

theorem UserType.yields_ty {userType : UserType} (h : UserType.read names v = .ok userType) :
    v.Yields (Ty.read names) userType.inferred := by
  simp only [UserType.read, bind_eq_ok_iff] at h
  obtain ⟨fields, hfields, _, -, _, -, member, hmember, ty, hty, huserType⟩ := h
  cases huserType
  cases asObject_eq_ok_iff.1 hfields
  exact (inside_of_member hmember).yields hty

theorem Body.readIn_of_read {body : Body} (h : Body.read names v = .ok body) :
    body.ReadIn names v := by
  simp only [Body.read, bind_eq_ok_iff] at h
  obtain ⟨blocksValue, hblocksValue, blockItems, hblockItems, blocks, hblocks, localsValue,
    hlocalsValue, localItems, hlocalItems, locals, hlocals, fields, hfields, scopes, hscopes,
    recordItems, hrecordItems, records, hrecords, userTypeItems, huserTypeItems, userTypes,
    huserTypes, argCount, -, hrest⟩ := h
  cases asObject_eq_ok_iff.1 hfields
  have hblock : ∀ b ∈ blocks, (Value.object fields).Yields (BasicBlock.read names) b :=
    fun b hb => yields_of_require_elements hblocksValue hblockItems hblocks hb
  have hlocal : ∀ decl ∈ locals, (Value.object fields).Yields (Ty.read names) decl.ty :=
    fun decl hdecl => (yields_of_require_elements hlocalsValue hlocalItems hlocals hdecl).bind
      fun w hw => LocalDecl.yields_ty hw
  have hrecord : ∀ record ∈ records, (Value.object fields).Yields (Place.read names) record.place :=
    fun record hrecord => (yields_of_field_elements hrecordItems hrecords hrecord).bind
      fun w hw => DebugRecord.yields_place hw
  have huserType : ∀ userType ∈ userTypes,
      (Value.object fields).Yields (Ty.read names) userType.inferred :=
    fun userType huserType => (yields_of_field_elements huserTypeItems huserTypes huserType).bind
      fun w hw => UserType.yields_ty hw
  split at hrest
  · simp only [bind_eq_ok_iff] at hrest
    obtain ⟨_, hnone, span, -, _, hcheck, hbody⟩ := hrest
    cases hnone
    cases hbody
    exact ⟨hblock, hlocal, hrecord, huserType, nofun, readScopes_ne_nil hscopes, hcheck⟩
  · rename_i hgiven
    simp only [bind_eq_ok_iff] at hrest
    obtain ⟨ty, hty, _, hsome, span, -, _, hcheck, hbody⟩ := hrest
    cases hsome
    cases hbody
    refine ⟨hblock, hlocal, hrecord, huserType, ?_, readScopes_ne_nil hscopes, hcheck⟩
    rintro _ ⟨⟩
    exact (inside_field hgiven).yields hty

namespace Body.ReadIn

variable {body : Body}

theorem value (h : body.ReadIn names v) {value : Rvalue} (hvalue : body.Assigns value) :
    v.Yields (Rvalue.read names) value := by
  obtain ⟨b, hb, s, hs, hkind⟩ := hvalue
  refine (h.blocks b hb).bind fun w hw => ?_
  refine ((BasicBlock.exists_of_read hw).1 s hs).bind fun u hu => ?_
  exact (Statement.readIn_of_read hu).value value hkind

theorem terminator (h : body.ReadIn names v) {b : BasicBlock} (hb : b ∈ body.blocks) :
    v.Yields (Terminator.read names) b.terminator :=
  (h.blocks b hb).bind fun _ hw => (BasicBlock.exists_of_read hw).2

theorem operand (h : body.ReadIn names v) {o : Operand} (ho : body.HasOperand o) :
    v.Yields (Operand.read names) o := by
  cases ho with
  | value hvalue ho =>
    exact (h.value hvalue).bind fun w hw => (Rvalue.readIn_of_read hw).operands o ho
  | terminator hb ho =>
    exact (h.terminator hb).bind fun w hw => (Terminator.readIn_of_read hw).operands o ho

theorem place (h : body.ReadIn names v) {place : Place} (hplace : body.HasPlace place) :
    v.Yields (Place.read names) place := by
  cases hplace with
  | statement hb hs hplace =>
    refine (h.blocks _ hb).bind fun w hw => ?_
    refine ((BasicBlock.exists_of_read hw).1 _ hs).bind fun u hu => ?_
    exact (Statement.readIn_of_read hu).places place hplace
  | value hvalue hplace =>
    exact (h.value hvalue).bind fun w hw => (Rvalue.readIn_of_read hw).places place hplace
  | terminator hb hplace =>
    exact (h.terminator hb).bind fun w hw => (Terminator.readIn_of_read hw).places place hplace
  | copy ho =>
    exact (h.operand ho).bind fun w hw => (Operand.exists_of_read hw).1 place (.inl rfl)
  | move ho =>
    exact (h.operand ho).bind fun w hw => (Operand.exists_of_read hw).1 place (.inr rfl)
  | debug hrecord => exact h.debugRecords _ hrecord

theorem ty (h : body.ReadIn names v) {ty : Ty} (hty : body.HasType ty) :
    v.Yields (Ty.read names) ty ∨ ty.consts = [] := by
  cases hty with
  | slot hdecl => exact .inl (h.locals _ hdecl)
  | field hplace hstep =>
    exact .inl ((h.place hplace).bind fun w hw => Place.yields_ty hw hstep)
  | value hvalue hty =>
    exact .inl ((h.value hvalue).bind fun w hw => (Rvalue.readIn_of_read hw).types ty hty)
  | terminator hb hty =>
    obtain ⟨w, hw, hread⟩ := h.terminator hb
    exact ((Terminator.readIn_of_read hread).types ty hty).imp (.trans hw) id
  | literal ho =>
    refine .inl ((h.operand ho).bind fun w hw => ?_)
    exact ((Operand.exists_of_read hw).2 _ rfl).bind fun u hu => (Const.exists_of_read hu).1
  | writtenDown huserType => exact .inl (h.userTypes _ huserType)
  | yielded hyield => exact .inl (h.yieldType ty hyield)

/-- Every constant that occurs in a body has been read inside it. -/
theorem const (h : body.ReadIn names v) {c : Const} (hc : body.Occurs c) :
    v.Yields (Const.read names) c := by
  cases hc with
  | literal ho => exact (h.operand ho).bind fun w hw => (Operand.exists_of_read hw).2 _ rfl
  | embedded hty hembeds =>
    rcases h.ty hty with hyields | hnone
    · exact hyields.bind fun _ hw => Ty.yields_embedded hembeds hw
    · -- a type without constants embeds none
      cases hembeds with
      | here hc =>
        rw [hnone] at hc
        cases hc
      | deeper houter _ =>
        rw [hnone] at houter
        cases houter

end Body.ReadIn

end MirListing
