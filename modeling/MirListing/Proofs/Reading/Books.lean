import MirListing.Proofs.Items.Resolution
import MirListing.Proofs.Reading.ShortForms

/-!
# Look-ups during a reading

A reading looks path texts up in the book of names, one after another, and what it looks up next may
depend on the answers so far.  `Reading` is such a course of look-ups as a tree, and `ByLookUps`
says of a reader that it has one: the reader takes nothing else from the book.  Every reader is of
this kind, down to that of an item (`Item.byLookUps`), since a reader is put together from others
and from look-ups, whatever the document.

A course can be followed in a book that stays as it is (`Reading.result`) and in one that keeps each
answer for the look-ups to come (`Reading.live`).  Both end alike, also where the reading fails on
the way, and the kept answers change none that the book gives later (`Reading.live_eq`).
-/

namespace MirListing

/-! ## Courses of look-ups -/

/-- A reading as a course of look-ups. -/
inductive Reading (α : Type)
  /-- The reading is over. -/
  | done (result : Outcome α)
  /-- A path text is looked up.  The reading goes on with the item, and fails if there is none. -/
  | lookUp (text : Spelling) (next : ItemId → Reading α)

namespace Reading

variable {α β : Type}

/-- How a reading ends with a book that stays as it is. -/
def result (names : Names) : Reading α → Outcome α
  | .done result => result
  | .lookUp text next => names.resolveText text >>= fun item => (next item).result names

/-- How a reading ends with a book that keeps its answers, and the book that it leaves. -/
def live (names : Names) : Reading α → Outcome α × Names
  | .done result => (result, names)
  | .lookUp text next =>
      match names.ask text with
      | .ok (item, names) => (next item).live names
      | .error failure => (.error failure, names)

/-- One reading after another. -/
def bind (next : α → Reading β) : Reading α → Reading β
  | .done (.ok a) => next a
  | .done (.error failure) => .done (.error failure)
  | .lookUp text rest => .lookUp text fun item => (rest item).bind next

theorem result_bind (names : Names) (next : α → Reading β) : ∀ r : Reading α,
    (r.bind next).result names = r.result names >>= fun a => (next a).result names
  | .done (.ok _) => rfl
  | .done (.error _) => rfl
  | .lookUp text rest => by
    simp only [bind, result, bind_assoc, fun item => result_bind names next (rest item)]

/-- The answers of the book alone decide how a reading ends. -/
theorem result_congr {names other : Names}
    (h : ∀ text, names.resolveText text = other.resolveText text) : ∀ r : Reading α,
    r.result names = r.result other
  | .done _ => rfl
  | .lookUp text next => by
    rw [result, result, h text, funext fun item => result_congr h (next item)]

/-- With a book that keeps its answers a reading ends as with one that does not, and the book gives
the same answers afterwards. -/
theorem live_eq : ∀ (r : Reading α) (names : Names), (r.live names).1 = r.result names ∧
    ∀ text, (r.live names).2.resolveText text = names.resolveText text
  | .done _, _ => ⟨rfl, fun _ => rfl⟩
  | .lookUp text next, names => by
    rw [live, result]
    rcases names.ask_eq text with
      ⟨failure, hasked, hresolve⟩ | ⟨item, after, hasked, hresolve, hsame⟩
    · rw [hasked, hresolve]
      exact ⟨rfl, fun _ => rfl⟩
    · rw [hasked, hresolve]
      obtain ⟨hends, hkeeps⟩ := live_eq (next item) after
      exact ⟨hends.trans (result_congr hsame _), fun text => (hkeeps text).trans (hsame text)⟩

end Reading

/-- A reader looks path texts up and takes nothing else from the book of names. -/
def ByLookUps {α : Type} (read : Names → Outcome α) : Prop :=
  ∃ r : Reading α, ∀ names, r.result names = read names

namespace ByLookUps

variable {α β : Type}

theorem const (o : Outcome α) : ByLookUps fun _ => o := ⟨.done o, fun _ => rfl⟩

theorem resolve (value : Value) : ByLookUps fun names => names.resolve value := by
  cases value with
  | spelled text =>
    exact ⟨.lookUp text fun item => .done (.ok item), fun names => bind_pure _⟩
  | null | bool | integer | number | array | object => exact const _

theorem bind {read : Names → Outcome α} {next : α → Names → Outcome β} (h : ByLookUps read)
    (hnext : ∀ a, ByLookUps (next a)) :
    ByLookUps fun names => read names >>= fun a => next a names := by
  obtain ⟨r, hr⟩ := h
  obtain ⟨k, hk⟩ := Classical.axiomOfChoice hnext
  exact ⟨r.bind k, fun names => by simp only [Reading.result_bind, hr, hk]⟩

/-- What is there already goes on as it is. -/
theorem ok_bind (a : α) {next : α → Names → Outcome β} (h : ByLookUps (next a)) :
    ByLookUps fun names => (Except.ok a : Outcome α) >>= fun a => next a names :=
  h

theorem mapM {read : Names → Value → Outcome α} : ∀ {items : List Value},
    (∀ v ∈ items, ByLookUps fun names => read names v) →
    ByLookUps fun names => items.mapM (read names)
  | [], _ => const _
  | v :: _, h => by
    simp only [List.mapM_cons]
    refine (h v List.mem_cons_self).bind fun _ => ?_
    exact (mapM fun w hw => h w (List.mem_cons_of_mem _ hw)).bind fun _ => const _

/-- To see what a reader does, it may be looked at with any book. -/
theorem ofResult {read : Names → Outcome α} (h : ∀ o, read Names.none = o → ByLookUps read) :
    ByLookUps read :=
  h _ rfl

end ByLookUps

/-! ## Types and constants -/

theorem ConstValue.byLookUps (value : Value) :
    ByLookUps fun names => ConstValue.read names value := by
  refine .bind (.const _) fun (kind, fields) => .ofResult fun o hread => ?_
  dsimp only at hread ⊢
  split at hread
  · exact .const _
  · exact .const _
  · exact .const _
  · exact .const _
  · exact .bind (.const _) fun _ => .bind (.resolve _) fun _ => .const _
  · exact .const _

mutual

theorem Ty.byLookUps : ∀ value : Value, ByLookUps fun names => Ty.read names value
  | .object fields => by
    simp only [Ty.read_object]
    refine .bind (.const _) fun name => ?_
    cases hentries : Fields.field? "consts" fields with
    | none => exact .const _
    | some value =>
      cases value with
      | array entries =>
        refine .bind (.mapM fun entry hentry => ?_) fun _ => .const _
        have hsmaller : sizeOf entry < sizeOf (Value.object fields) :=
          Nat.lt_trans (Value.sizeOf_mem_array hentry) (Fields.sizeOf_field hentries)
        exact Const.byLookUps entry
      | null | bool | integer | number | spelled | object => exact .const _
  | .spelled _ | .null | .bool _ | .integer _ | .number _ | .array _ => by
    simp only [Ty.read]
    exact .const _
termination_by value => sizeOf value
decreasing_by exact hsmaller

theorem Const.byLookUps : ∀ value : Value, ByLookUps fun names => Const.read names value
  | .object fields => by
    simp only [Const.read_object]
    cases hty : Fields.field? "ty" fields with
    | none =>
      simp only [Value.require, hty]
      exact .const _
    | some ty =>
      have hsmaller : sizeOf ty < sizeOf (Value.object fields) := Fields.sizeOf_field hty
      simp only [Value.require_object hty]
      refine .ok_bind ty (.bind (Ty.byLookUps ty) fun _ => .bind (.const _) fun value => ?_)
      exact .bind (ConstValue.byLookUps value) fun _ => .const _
  | .spelled _ | .null | .bool _ | .integer _ | .number _ | .array _ => by
    simp only [Const.read]
    exact .const _
termination_by value => sizeOf value
decreasing_by exact hsmaller

end

/-! ## Places and operands -/

theorem Projection.byLookUps (value : Value) :
    ByLookUps fun names => Projection.read names value := by
  refine .bind (.const _) fun (kind, fields) => .ofResult fun o hread => ?_
  dsimp only at hread ⊢
  split at hread
  · exact .const _
  · refine .bind (.const _) fun _ => .bind (.const _) fun ty => ?_
    exact .bind (Ty.byLookUps ty) fun _ => .const _
  all_goals exact .const _

theorem Place.byLookUps : ∀ value : Value, ByLookUps fun names => Place.read names value
  | .spelled _ => .const _
  | .null | .bool _ | .integer _ | .number _ | .array _ | .object _ => by
    refine .bind (.const _) fun _ => .bind (.const _) fun _ => ?_
    exact .bind (.mapM fun step _ => Projection.byLookUps step) fun _ => .const _

theorem readPlace_byLookUps (name : String) (fields : Fields) :
    ByLookUps fun names => readPlace names name fields :=
  .bind (.const _) Place.byLookUps

theorem Operand.byLookUps (value : Value) : ByLookUps fun names => Operand.read names value := by
  refine .bind (.const _) fun (kind, fields) => .ofResult fun o hread => ?_
  dsimp only at hread ⊢
  split at hread
  · exact .bind (.const _) fun place => .bind (Place.byLookUps place) fun _ => .const _
  · exact .bind (.const _) fun place => .bind (Place.byLookUps place) fun _ => .const _
  · refine .bind (.bind (.const _) fun _ => .bind (.const _) fun literal => ?_) fun _ => .const _
    exact .bind (Const.byLookUps literal) fun _ => .const _
  · exact .const _

theorem readOperand_byLookUps (name : String) (fields : Fields) :
    ByLookUps fun names => readOperand names name fields :=
  .bind (.const _) Operand.byLookUps

theorem Operand.readAll_byLookUps (value : Value) :
    ByLookUps fun names => Operand.readAll names value :=
  .bind (.const _) fun _ => .mapM fun operand _ => Operand.byLookUps operand

/-! ## Computed values -/

theorem readSubsts_byLookUps (fields : Fields) : ByLookUps fun names => readSubsts names fields :=
  .bind (.const _) fun _ => .mapM fun ty _ => Ty.byLookUps ty

theorem AggregateKind.byLookUps (value : Value) :
    ByLookUps fun names => AggregateKind.read names value := by
  refine .bind (.const _) fun (kind, fields) => .ofResult fun o hread => ?_
  dsimp only at hread ⊢
  split at hread
  · exact .bind (.const _) fun ty => .bind (Ty.byLookUps ty) fun _ => .const _
  · exact .const _
  · exact .const _
  · clear hread
    refine .bind (readSubsts_byLookUps fields) fun substs => .ofResult fun o hread => ?_
    split at hread
    · exact .bind (.const _) fun path => .bind (.resolve path) fun _ => .const _
    · refine .bind (.const _) fun _ => .bind (.const _) fun path => ?_
      exact .bind (.resolve path) fun _ => .const _
    · exact .const _

theorem readBinary_byLookUps (fields : Fields) :
    ByLookUps fun names => readBinary names fields := by
  refine .bind (.const _) fun _ => .bind (.const _) fun _ => .bind (.const _) fun left => ?_
  refine .bind (Operand.byLookUps left) fun _ => .bind (.const _) fun right => ?_
  exact .bind (Operand.byLookUps right) fun _ => .const _

theorem Rvalue.byLookUps (value : Value) : ByLookUps fun names => Rvalue.read names value := by
  refine .bind (.const _) fun (kind, fields) => .ofResult fun o hread => ?_
  dsimp only at hread ⊢
  split at hread
  · exact .bind (readOperand_byLookUps ..) fun _ => .const _
  · exact .bind (readOperand_byLookUps ..) fun _ => .const _
  · exact .bind (readPlace_byLookUps ..) fun _ => .const _
  · exact .bind (readPlace_byLookUps ..) fun _ => .const _
  · exact .bind (readPlace_byLookUps ..) fun _ => .const _
  · refine .bind (readOperand_byLookUps ..) fun _ => .bind (.const _) fun ty => ?_
    exact .bind (Ty.byLookUps ty) fun _ => .const _
  · exact .bind (readBinary_byLookUps fields) fun _ => .const _
  · exact .bind (readBinary_byLookUps fields) fun _ => .const _
  · refine .bind (.const _) fun _ => .bind (.const _) fun _ => ?_
    exact .bind (readOperand_byLookUps ..) fun _ => .const _
  · exact .bind (readPlace_byLookUps ..) fun _ => .const _
  · refine .bind (.const _) fun _ => .bind (.const _) fun _ => .bind (.const _) fun ty => ?_
    exact .bind (Ty.byLookUps ty) fun _ => .const _
  · refine .bind (.const _) fun kind => .bind (AggregateKind.byLookUps kind) fun _ => ?_
    exact .bind (Operand.readAll_byLookUps _) fun _ => .const _
  · exact .const _

/-! ## Statements and terminators -/

theorem StatementKind.byLookUps (kind : Spelling) (fields : Fields) :
    ByLookUps fun names => StatementKind.read names kind fields := by
  refine .ofResult fun o hread => ?_
  unfold StatementKind.read at hread ⊢
  split at hread
  · refine .bind (readPlace_byLookUps ..) fun _ => .bind (.const _) fun value => ?_
    exact .bind (Rvalue.byLookUps value) fun _ => .const _
  · exact .bind (readPlace_byLookUps ..) fun _ => .const _
  · exact .bind (readPlace_byLookUps ..) fun _ => .const _
  · exact .const _
  · exact .const _
  · exact .bind (readPlace_byLookUps ..) fun _ => .const _
  · exact .bind (readPlace_byLookUps ..) fun _ => .const _
  · exact .const _
  · exact .const _

theorem Statement.byLookUps (value : Value) :
    ByLookUps fun names => Statement.read names value :=
  .bind (.const _) fun _ => .bind (.const _) fun _ =>
    .bind (StatementKind.byLookUps ..) fun _ => .const _

theorem TerminatorKind.byLookUps (kind : Spelling) (fields : Fields) :
    ByLookUps fun names => TerminatorKind.read names kind fields := by
  refine .ofResult fun o hread => ?_
  unfold TerminatorKind.read at hread ⊢
  split at hread
  · exact .const _
  · exact .const _
  · exact .const _
  · exact .const _
  · exact .const _
  · exact .const _
  · refine .bind (readOperand_byLookUps ..) fun _ => ?_
    exact .bind (Ty.byLookUps _) fun _ => .const _
  · exact .bind (readPlace_byLookUps ..) fun _ => .const _
  · refine .bind (readPlace_byLookUps ..) fun _ => ?_
    exact .bind (readOperand_byLookUps ..) fun _ => .const _
  · refine .bind (readOperand_byLookUps ..) fun _ => .bind (Operand.readAll_byLookUps _) fun _ => ?_
    cases fields.field "destination" with
    | null => exact .const _
    | bool | integer | number | spelled | array | object =>
      exact .bind (Place.byLookUps _) fun _ => .const _
  · exact .bind (readOperand_byLookUps ..) fun _ => .const _
  · refine .bind (readOperand_byLookUps ..) fun _ => .bind (.const _) fun _ => ?_
    exact .bind (readPlace_byLookUps ..) fun _ => .const _
  · exact .const _
  · exact .const _
  · exact .const _

theorem Terminator.byLookUps (value : Value) :
    ByLookUps fun names => Terminator.read names value :=
  .bind (.const _) fun _ => .bind (.const _) fun _ =>
    .bind (TerminatorKind.byLookUps ..) fun _ => .const _

/-! ## Bodies -/

theorem BasicBlock.byLookUps (value : Value) :
    ByLookUps fun names => BasicBlock.read names value := by
  refine .bind (.const _) fun _ => .bind (.const _) fun _ => ?_
  refine .bind (.mapM fun statement _ => Statement.byLookUps statement) fun _ => ?_
  refine .bind (.const _) fun terminator => ?_
  exact .bind (Terminator.byLookUps terminator) fun _ => .const _

theorem LocalDecl.byLookUps (value : Value) :
    ByLookUps fun names => LocalDecl.read names value :=
  .bind (.const _) fun ty => .bind (Ty.byLookUps ty) fun _ => .const _

theorem DebugRecord.byLookUps (value : Value) :
    ByLookUps fun names => DebugRecord.read names value := by
  refine .bind (.const _) fun _ => .bind (.const _) fun _ => .bind (.const _) fun _ => ?_
  exact .bind (readPlace_byLookUps ..) fun _ => .const _

theorem UserType.byLookUps (value : Value) :
    ByLookUps fun names => UserType.read names value := by
  refine .bind (.const _) fun _ => .bind (.const _) fun _ => .bind (.const _) fun _ => ?_
  exact .bind (.const _) fun ty => .bind (Ty.byLookUps ty) fun _ => .const _

theorem Body.byLookUps (value : Value) : ByLookUps fun names => Body.read names value := by
  refine .bind (.const _) fun _ => .bind (.const _) fun _ => ?_
  refine .bind (.mapM fun block _ => BasicBlock.byLookUps block) fun _ => ?_
  refine .bind (.const _) fun _ => .bind (.const _) fun _ => ?_
  refine .bind (.mapM fun decl _ => LocalDecl.byLookUps decl) fun _ => ?_
  refine .bind (.const _) fun fields => .bind (.const _) fun _ => .bind (.const _) fun _ => ?_
  refine .bind (.mapM fun record _ => DebugRecord.byLookUps record) fun _ => ?_
  refine .bind (.const _) fun _ => ?_
  refine .bind (.mapM fun userType _ => UserType.byLookUps userType) fun _ => ?_
  refine .bind (.const _) fun _ => ?_
  dsimp only
  cases fields.field "yield_ty" with
  | null => exact .const _
  | bool | integer | number | spelled | array | object =>
    exact .bind (Ty.byLookUps _) fun _ => .const _

/-! ## Items -/

theorem Body.byLookUps? : ∀ value : Value, ByLookUps fun names => Body.read? names value
  | .null => .const _
  | .bool _ | .integer _ | .number _ | .spelled _ | .array _ | .object _ =>
    .bind (Body.byLookUps _) fun _ => .const _

theorem ConstValue.byLookUps? : ∀ value : Value, ByLookUps fun names => ConstValue.read? names value
  | .null => .const _
  | .bool _ | .integer _ | .number _ | .spelled _ | .array _ | .object _ =>
    .bind (ConstValue.byLookUps _) fun _ => .const _

/-- An item is read by look-ups. -/
theorem Item.byLookUps (value : Value) : ByLookUps fun names => Item.read names value := by
  refine .bind (.const _) fun fields => .bind (.const _) fun path => ?_
  refine .bind (.resolve path) fun id => .bind (.const _) fun kind? => ?_
  refine .bind (ConstValue.byLookUps? _) fun initializer? => ?_
  refine .bind (Body.byLookUps? _) fun body? => ?_
  refine .bind (.const _) fun entries => ?_
  exact .bind (.mapM fun body _ => Body.byLookUps body) fun _ => .const _

end MirListing
