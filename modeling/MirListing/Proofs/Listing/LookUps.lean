import MirListing.Proofs.Listing.Contradictions

/-!
# Look-ups of listings

A listing looks things up by their positions: the scopes that stand in a tree of scopes.  A position
at which nothing stands is a failure of its own, and no body is listed into one, whatever it holds
(`noLookUp_bodyListing`).  A listing only fails where something cannot be written down
(`Failure.OfWriting`).  For the parts outside the blocks that is known from why they fail; for the
blocks it follows from what statements and terminators write.
-/

namespace MirListing

/-- A failure that is not about a position at which nothing stands. -/
def Failure.NoLookUp (failure : Failure) : Prop :=
  failure ≠ .outOfRange ∧ failure ≠ .noScope ∧ failure ≠ .positionTooLarge

/-- A failure of writing something down: it has the wrong shape, a number in it is too large, or it
contradicts itself. -/
inductive Failure.OfWriting : Failure → Prop
  | wrongShape : OfWriting .wrongShape
  | overflow : OfWriting .overflow
  | document (fault : DocumentFault) : OfWriting (.document fault)
  | body (fault : BodyFault) : OfWriting (.body fault)

theorem Failure.OfWriting.noLookUp {failure : Failure} (h : failure.OfWriting) :
    failure.NoLookUp := by
  cases h <;> exact ⟨nofun, nofun, nofun⟩

theorem ofWriting_of_explained {ctx : Context} {source : BodySource} {body : Body}
    {failure : Failure} (h : Explained ctx source body failure) : failure.OfWriting := by
  rcases h with ⟨fault, rfl, -⟩ | ⟨rfl, -⟩
  · exact .body fault
  · exact .wrongShape

/-! ## Types and constants -/

theorem ofWriting_typeText (ty : Ty) : FailsOnly Failure.OfWriting ty.text := by
  unfold Ty.text
  split
  · exact failsOnly_ok _
  · exact failsOnly_error .wrongShape

theorem ofWriting_describeValue (value : ConstValue) :
    FailsOnly Failure.OfWriting value.describe := by
  cases value with
  | scalar bits size =>
    rw [ConstValue.describe]
    split
    · exact failsOnly_ok _
    · refine FailsOnly.bind ?_ fun _ => failsOnly_ok _
      unfold ConstValue.bitsText
      split
      · exact failsOnly_error (.document _)
      · split
        · exact failsOnly_error (.document _)
        · split
          · exact failsOnly_error (.document _)
          · exact failsOnly_ok _
  | pointer target offset => exact failsOnly_ok _
  | byRef a offset => exact failsOnly_ok _
  | slice a start stop => exact failsOnly_ok _
  | unevaluated item promoted => exact failsOnly_ok _

theorem ofWriting_describeAsConst (c : Const) : FailsOnly Failure.OfWriting c.describeValue := by
  unfold Const.describeValue ConstValue.describeAsConst
  split
  · exact ofWriting_describeValue _
  · exact (ofWriting_describeValue _).bind fun _ => failsOnly_ok _

theorem ofWriting_withTypeName (c : Const) : FailsOnly Failure.OfWriting c.withTypeName :=
  (ofWriting_describeValue _).bind fun _ => failsOnly_ok _

theorem ofWriting_suffixed (n : Int) (name : String) :
    FailsOnly Failure.OfWriting (Const.suffixed n name) := by
  unfold Const.suffixed
  split
  · exact failsOnly_ok _
  · exact failsOnly_error (.document _)

theorem ofWriting_characterText (bits : Int) :
    FailsOnly Failure.OfWriting (Const.characterText bits) := by
  unfold Const.characterText
  split
  · exact failsOnly_error .overflow
  · split
    · exact failsOnly_error (.document _)
    · exact failsOnly_ok _

theorem ofWriting_signedValue (bits size : Int) :
    FailsOnly Failure.OfWriting (Const.signedValue bits size) := by
  unfold Const.signedValue
  split
  · exact failsOnly_error (.document _)
  · split
    · exact failsOnly_ok _
    · split
      · exact failsOnly_error .overflow
      · exact failsOnly_ok _

theorem ofWriting_scalarText {name : String} {bits size : Int} {text : Outcome String}
    (h : Const.scalarText? name bits size = some text) : FailsOnly Failure.OfWriting text := by
  unfold Const.scalarText? at h
  split at h
  · exact Option.some.inj h ▸ failsOnly_ok _
  split at h
  · exact Option.some.inj h ▸ failsOnly_ok _
  split at h
  · exact Option.some.inj h ▸ failsOnly_ok _
  split at h
  · exact Option.some.inj h ▸ ofWriting_characterText bits
  split at h
  · exact Option.some.inj h ▸ ofWriting_suffixed bits name
  split at h
  · refine Option.some.inj h ▸ (ofWriting_signedValue bits size).bind fun n => ?_
    exact ofWriting_suffixed n name
  · cases h

theorem ofWriting_pretty (c : Const) : FailsOnly Failure.OfWriting c.pretty := by
  unfold Const.pretty
  split
  · exact failsOnly_ok _
  · rename_i bits size name _ _
    cases htext : Const.scalarText? name.plain bits size with
    | none => exact ofWriting_withTypeName c
    | some text => exact ofWriting_scalarText htext
  · exact failsOnly_error .wrongShape
  · exact failsOnly_error .wrongShape
  · exact ofWriting_withTypeName c

/-! ## Places, operands and computed values -/

theorem ofWriting_place (place : Place) : FailsOnly Failure.OfWriting place.describe := by
  obtain ⟨slot, steps⟩ := place
  show FailsOnly _ (Place.wrapAll ("_" ++ Text.decimal slot) steps)
  generalize "_" ++ Text.decimal slot = inner
  induction steps generalizing inner with
  | nil => exact failsOnly_ok _
  | cons step rest ih =>
    refine FailsOnly.bind ?_ ih
    cases step with
    | field number ty => exact (ofWriting_typeText ty).bind fun _ => failsOnly_ok _
    | downcast _ name => cases name <;> exact failsOnly_ok _
    | _ => exact failsOnly_ok _

theorem ofWriting_operand (o : Operand) : FailsOnly Failure.OfWriting o.describe := by
  cases o with
  | copy place => exact ofWriting_place place
  | move place => exact (ofWriting_place place).bind fun _ => failsOnly_ok _
  | constant k => exact (ofWriting_pretty k.literal).bind fun _ => failsOnly_ok _

theorem ofWriting_joined (operands : List Operand) :
    FailsOnly Failure.OfWriting (Operand.joined operands) :=
  (FailsOnly.mapM fun o _ => ofWriting_operand o).bind fun _ => failsOnly_ok _

theorem ofWriting_namedFields (labels : List Label) (operands : List Operand) :
    FailsOnly Failure.OfWriting (AggregateKind.namedFields labels operands) := by
  induction labels generalizing operands with
  | nil => exact failsOnly_ok _
  | cons label labels ih =>
    cases operands with
    | nil => exact failsOnly_ok _
    | cons o operands =>
      exact (ofWriting_operand o).bind fun _ => (ih operands).bind fun _ => failsOnly_ok _

theorem ofWriting_braced (head : String) (operands : List Operand) :
    FailsOnly Failure.OfWriting (AggregateKind.braced head operands) := by
  unfold AggregateKind.braced
  split
  · exact failsOnly_ok _
  · exact (ofWriting_joined operands).bind fun _ => failsOnly_ok _

theorem ofWriting_aggregate (kind : AggregateKind) (operands : List Operand) :
    FailsOnly Failure.OfWriting (kind.describe operands) := by
  cases kind with
  | array _ => exact (ofWriting_joined operands).bind fun _ => failsOnly_ok _
  | tuple =>
    simp only [AggregateKind.describe]
    split
    · exact (ofWriting_operand _).bind fun _ => failsOnly_ok _
    · exact (ofWriting_joined operands).bind fun _ => failsOnly_ok _
  | adt path variantName fieldNames userType =>
    cases fieldNames with
    | some labels => exact (ofWriting_namedFields labels operands).bind fun _ => failsOnly_ok _
    | none =>
      simp only [AggregateKind.describe]
      split
      · exact failsOnly_ok _
      · exact (ofWriting_joined operands).bind fun _ => failsOnly_ok _
  | closure item _ => exact ofWriting_braced _ operands
  | generator item _ movability => exact ofWriting_braced _ operands

theorem ofWriting_rvalue (value : Rvalue) : FailsOnly Failure.OfWriting value.describe := by
  cases value with
  | use o => exact ofWriting_operand o
  | repeated o _ => exact (ofWriting_operand o).bind fun _ => failsOnly_ok _
  | ref place _ _ => exact (ofWriting_place place).bind fun _ => failsOnly_ok _
  | addressOf place _ => exact (ofWriting_place place).bind fun _ => failsOnly_ok _
  | len place => exact (ofWriting_place place).bind fun _ => failsOnly_ok _
  | cast o ty _ =>
    exact (ofWriting_operand o).bind fun _ => (ofWriting_typeText ty).bind fun _ => failsOnly_ok _
  | binary _ left right =>
    exact (ofWriting_operand left).bind fun _ => (ofWriting_operand right).bind fun _ =>
      failsOnly_ok _
  | checkedBinary _ left right =>
    exact (ofWriting_operand left).bind fun _ => (ofWriting_operand right).bind fun _ =>
      failsOnly_ok _
  | unary _ o => exact (ofWriting_operand o).bind fun _ => failsOnly_ok _
  | discriminant place => exact (ofWriting_place place).bind fun _ => failsOnly_ok _
  | nullary _ ty => exact (ofWriting_typeText ty).bind fun _ => failsOnly_ok _
  | aggregate kind operands => exact ofWriting_aggregate kind operands

/-! ## Statements and terminators -/

theorem ofWriting_statement (kind : StatementKind) : FailsOnly Failure.OfWriting kind.describe := by
  cases kind with
  | assign place value =>
    exact (ofWriting_place place).bind fun _ =>
      (ofWriting_rvalue value).bind fun _ => failsOnly_ok _
  | fakeRead _ place => exact (ofWriting_place place).bind fun _ => failsOnly_ok _
  | setDiscriminant place _ => exact (ofWriting_place place).bind fun _ => failsOnly_ok _
  | retag place _ => exact (ofWriting_place place).bind fun _ => failsOnly_ok _
  | ascribeUserType place _ _ => exact (ofWriting_place place).bind fun _ => failsOnly_ok _
  | storageLive _ => exact failsOnly_ok _
  | storageDead _ => exact failsOnly_ok _
  | nop => exact failsOnly_ok _

theorem ofWriting_head (kind : TerminatorKind) : FailsOnly Failure.OfWriting kind.head := by
  cases kind with
  | switchInt scrutinee _ _ _ => exact (ofWriting_operand scrutinee).bind fun _ => failsOnly_ok _
  | drop place _ _ => exact (ofWriting_place place).bind fun _ => failsOnly_ok _
  | dropAndReplace place value _ _ =>
    exact (ofWriting_place place).bind fun _ =>
      (ofWriting_operand value).bind fun _ => failsOnly_ok _
  | call function arguments destination _ _ =>
    refine (ofWriting_operand function).bind fun _ => (ofWriting_joined arguments).bind fun _ => ?_
    cases destination with
    | none => exact failsOnly_ok _
    | some place => exact (ofWriting_place place).bind fun _ => failsOnly_ok _
  | assert condition _ _ _ _ => exact (ofWriting_operand condition).bind fun _ => failsOnly_ok _
  | yield value _ resumeArgument _ =>
    exact (ofWriting_place resumeArgument).bind fun _ => (ofWriting_operand value).bind fun _ =>
      failsOnly_ok _
  | _ => exact failsOnly_ok _

theorem ofWriting_successors (kind : TerminatorKind) :
    FailsOnly Failure.OfWriting kind.successors := by
  cases kind with
  | switchInt _ ty branches otherwise =>
    refine (FailsOnly.mapM fun branch _ => ?_).bind fun _ => failsOnly_ok _
    refine FailsOnly.bind ?_ fun _ => failsOnly_ok _
    unfold TerminatorKind.valueRole
    split
    · split
      · exact failsOnly_ok _
      · split <;> exact failsOnly_ok _
    · exact failsOnly_error .wrongShape
  | assert _ _ _ _ cleanup => cases cleanup <;> exact failsOnly_ok _
  | _ => exact failsOnly_ok _

theorem ofWriting_terminator (kind : TerminatorKind) : FailsOnly Failure.OfWriting kind.describe :=
  (ofWriting_head kind).bind fun _ => (ofWriting_successors kind).bind fun _ => failsOnly_ok _

/-! ## Comments -/

theorem ofWriting_spanText (m : SourceMap) (span : Span) :
    FailsOnly Failure.OfWriting (m.spanText span) := by
  unfold SourceMap.spanText
  split
  · exact failsOnly_ok _
  · refine FailsOnly.bind ?_ fun _ => failsOnly_ok _
    unfold SourceMap.fileName
    split
    · exact failsOnly_error .wrongShape
    · split
      · exact failsOnly_ok _
      · exact failsOnly_ok _
      · exact failsOnly_error .wrongShape

theorem ofWriting_comment (m : SourceMap) (info : SourceInfo) :
    FailsOnly Failure.OfWriting (m.comment info) :=
  (ofWriting_spanText m info.span).bind fun _ => failsOnly_ok _

theorem ofWriting_constantComments (m : SourceMap) (k : Constant) :
    ∀ comment ∈ k.comments m, FailsOnly Failure.OfWriting comment := by
  have hliteral : FailsOnly Failure.OfWriting k.literal.describe :=
    (ofWriting_typeText _).bind fun _ => (ofWriting_describeAsConst _).bind fun _ => failsOnly_ok _
  intro comment hcomment
  simp only [Constant.comments, List.cons_append, List.nil_append, List.mem_cons, List.mem_append,
    Option.mem_toList, Option.map_eq_some_iff, List.not_mem_nil, or_false] at hcomment
  rcases hcomment with rfl | rfl | rfl | rfl | rfl | ⟨index, -, rfl⟩ | rfl
  · exact failsOnly_ok _
  · exact (ofWriting_typeText _).bind fun _ => failsOnly_ok _
  · exact (ofWriting_describeAsConst _).bind fun _ => failsOnly_ok _
  · exact failsOnly_ok _
  · exact (ofWriting_spanText m k.span).bind fun _ => failsOnly_ok _
  · exact failsOnly_ok _
  · exact hliteral.bind fun _ => failsOnly_ok _

theorem ofWriting_substsComments (substs : List Ty) :
    ∀ comment ∈ substsComments substs, FailsOnly Failure.OfWriting comment := by
  have hsubsts : FailsOnly Failure.OfWriting (substsText substs) := by
    unfold substsText
    split
    · exact failsOnly_ok _
    · refine (FailsOnly.mapM fun ty _ => ?_).bind fun _ => failsOnly_ok _
      exact (ofWriting_typeText ty).bind fun _ => failsOnly_ok _
  intro comment hcomment
  unfold substsComments at hcomment
  split at hcomment
  · obtain ⟨line, -, rfl⟩ := List.mem_map.1 hcomment
    exact failsOnly_ok _
  · rename_i failure hfailure
    obtain rfl := List.mem_singleton.1 hcomment
    exact failsOnly_error (hsubsts failure hfailure)

theorem ofWriting_aggregateComments (kind : AggregateKind) :
    ∀ comment ∈ kind.comments, FailsOnly Failure.OfWriting comment := by
  have hok : ∀ lines : List String, ∀ comment ∈ lines.map (Except.ok : String → Outcome String),
      FailsOnly Failure.OfWriting comment := by
    intro lines comment hcomment
    obtain ⟨line, -, rfl⟩ := List.mem_map.1 hcomment
    exact failsOnly_ok line
  intro comment hcomment
  cases kind with
  | array _ => cases hcomment
  | tuple => cases hcomment
  | adt _ _ _ userType =>
    cases userType with
    | none => cases hcomment
    | some index => exact hok ["adt", "+ user_ty: " ++ userTypeText index] comment hcomment
  | closure item substs =>
    rcases List.mem_append.1 hcomment with hhead | hsubsts
    · exact hok ["closure", "+ def_id: " ++ item.describe] comment hhead
    · exact ofWriting_substsComments substs comment hsubsts
  | generator item substs movability =>
    rcases List.mem_append.1 hcomment with hfirst | hmovability
    · rcases List.mem_append.1 hfirst with hhead | hsubsts
      · exact hok ["generator", "+ def_id: " ++ item.describe] comment hhead
      · exact ofWriting_substsComments substs comment hsubsts
    · exact hok ["+ movability: " ++ movability.name] comment hmovability

theorem ofWriting_commentLines (m : SourceMap) (constants : List Constant)
    (kind? : Option AggregateKind) :
    ∀ comment ∈ commentLines m constants kind?, FailsOnly Failure.OfWriting comment := by
  intro comment hcomment
  rcases List.mem_append.1 hcomment with hconstant | hkind
  · obtain ⟨k, -, hmem⟩ := List.mem_flatMap.1 hconstant
    exact ofWriting_constantComments m k comment hmem
  · cases kind? with
    | none => cases hkind
    | some kind => exact ofWriting_aggregateComments kind comment hkind

/-! ## Bodies -/

variable {ctx : Context} {source : BodySource} {body : Body}

theorem ofWriting_nodes {block : BasicBlock} {node : Node} (h : node ∈ block.nodes ctx.sourceMap) :
    FailsOnly Failure.OfWriting node.text ∧
      ∀ comment ∈ node.comments, FailsOnly Failure.OfWriting comment := by
  rcases List.mem_append.1 h with hstatement | hterminator
  · obtain ⟨s, -, rfl⟩ := List.mem_map.1 hstatement
    exact ⟨ofWriting_statement s.kind, ofWriting_commentLines _ _ _⟩
  · obtain rfl := List.mem_singleton.1 hterminator
    exact ⟨ofWriting_terminator block.terminator.kind, ofWriting_commentLines _ _ _⟩

/-- The listing of a body fails only where something cannot be written down. -/
theorem ofWriting_functionListing (ctx : Context) (source : BodySource) (body : Body) :
    Listing.FailsOnly Failure.OfWriting (functionListing ctx source body) := by
  have hexplained : ∀ {l : Listing}, Listing.FailsOnly (Explained ctx source body) l →
      Listing.FailsOnly Failure.OfWriting l := fun h => h.mono fun _ => ofWriting_of_explained
  refine Listing.failsOnly_concat ?_
  simp only [List.mem_cons, List.not_mem_nil, or_false]
  rintro l (rfl | rfl | rfl | rfl | rfl | rfl | rfl)
  · exact hexplained failsOnly_signature
  · exact Listing.failsOnly_text _
  · exact hexplained failsOnly_scopesListing
  · exact Listing.failsOnly_text _
  · refine failsOnly_blocksFrom (fun block _ node hnode => ?_) 0
    exact ⟨ofWriting_comment _ _, ofWriting_nodes hnode⟩
  · exact Listing.failsOnly_text _
  · exact hexplained failsOnly_appendix

/-- No body is listed into a position at which nothing stands. -/
theorem noLookUp_bodyListing (ctx : Context) (source : BodySource) (body : Body) :
    Listing.FailsOnly Failure.NoLookUp (bodyListing ctx source body) := by
  have htypes : Listing.FailsOnly (Explained ctx source body)
      (userTypesListing ctx.sourceMap body.userTypes) := failsOnly_userTypesListing
  refine Listing.failsOnly_concat ?_
  simp only [List.mem_cons, List.not_mem_nil, or_false]
  rintro l (rfl | rfl | rfl | rfl)
  · exact Listing.failsOnly_point _
  · exact htypes.mono fun _ h => (ofWriting_of_explained h).noLookUp
  · exact (ofWriting_functionListing ctx source body).mono fun _ h => h.noLookUp
  · exact Listing.failsOnly_point _

end MirListing
