import MirListing.Listing.Body
import MirListing.Proofs.Listing.Reachable
import MirListing.Proofs.Memory.Exploration

/-!
# What a listing depends on

Contexts `Agree` on a body if they give the same answer to every question that a listing of the body
asks: about the item it belongs to, about the handles it can reach, and about the statics among
them.  Which handles these are is said by the first context alone.  The listings in contexts that
agree are the same (`Agree.bodyListing_eq`).

The idea is that of a walk in two graphs.  Where the graphs agree on all nodes that the walk visits
in one of them, it visits the same nodes in the other (`visit_congr`); and all that the two walks of
an appendix visit can be reached.

So what a body cannot reach may be changed in any way and any number of times (`UpdatedAside`): each
update keeps the agreement with the first context (`UpdatedAside.agree`).
-/

namespace MirListing

/-- A context gives the same answers as another to all that the listing of a body asks. -/
structure Agree (ctx other : Context) (source : BodySource) (body : Body) : Prop where
  sourceMap : ctx.sourceMap = other.sourceMap
  layout : ctx.layout = other.layout
  kind : ctx.items.kind? source.item = other.items.kind? source.item
  mutability : ctx.items.isMutableStatic source.item = other.items.isMutableStatic source.item
  entries : ∀ id, Reachable ctx.items ctx.directory body id →
    ctx.directory.get? id = other.directory.get? id
  foreign : ∀ id item, Reachable ctx.items ctx.directory body id →
    ctx.directory.get? id = some (.static item) →
    ctx.items.isForeign item = other.items.isForeign item
  /-- Of an evaluation that fails, it only matters that it does. -/
  values : ∀ id item, Reachable ctx.items ctx.directory body id →
    ctx.directory.get? id = some (.static item) →
    (ctx.items.evaluate item).toOption = (other.items.evaluate item).toOption

/-- An item is none of those that the listing of a body asks about. -/
def Unrelated (ctx : Context) (source : BodySource) (body : Body) (item : Item) : Prop :=
  ∀ asked, (asked = source.item ∨ ∃ id, Reachable ctx.items ctx.directory body id ∧
      ctx.directory.get? id = some (.static asked)) →
    asked.key?.isSome → item.id.key? ≠ asked.key?

/-- A context comes from another by updates that do not concern what a body can reach. -/
inductive UpdatedAside (ctx : Context) (source : BodySource) (body : Body) : Context → Prop
  | start : UpdatedAside ctx source body ctx
  | set {other : Context} {id : AllocId} (entry : GlobalAlloc) :
      UpdatedAside ctx source body other → ¬Reachable ctx.items ctx.directory body id →
      UpdatedAside ctx source body { other with directory := other.directory.set id entry }
  | deallocate {other : Context} {id : AllocId} :
      UpdatedAside ctx source body other → ¬Reachable ctx.items ctx.directory body id →
      UpdatedAside ctx source body { other with directory := other.directory.deallocate id }
  | register {other : Context} {item : Item} :
      UpdatedAside ctx source body other → Unrelated ctx source body item →
      UpdatedAside ctx source body { other with items := other.items.register item }

/-! ## Statics -/

/-- Results that agree are the same value or two failures. -/
theorem same_of_toOption_eq {ε α : Type} {a b : Except ε α} (h : a.toOption = b.toOption) :
    (∃ value, a = .ok value ∧ b = .ok value) ∨
      ∃ fault fault', a = .error fault ∧ b = .error fault' := by
  cases a with
  | ok value =>
    cases b with
    | ok value' => exact .inl ⟨value, rfl, congrArg _ (Option.some.inj h).symm⟩
    | error fault => cases h
  | error fault =>
    cases b with
    | ok value => cases h
    | error fault' => exact .inr ⟨fault, fault', rfl, rfl⟩

section

variable {items other : ItemTable} {item : ItemId}

theorem listedMemory?_static_congr (hforeign : items.isForeign item = other.isForeign item)
    (hvalue : (items.evaluate item).toOption = (other.evaluate item).toOption) :
    (GlobalAlloc.static item).listedMemory? items =
      (GlobalAlloc.static item).listedMemory? other := by
  simp only [GlobalAlloc.listedMemory?, hforeign]
  obtain ⟨value, hok, hok'⟩ | ⟨_, _, hfails, hfails'⟩ := same_of_toOption_eq hvalue
  · rw [hok, hok']
  · rw [hfails, hfails']

theorem staticListing_congr (layout : Layout)
    (hforeign : items.isForeign item = other.isForeign item)
    (hvalue : (items.evaluate item).toOption = (other.evaluate item).toOption) :
    staticListing items layout item = staticListing other layout item := by
  simp only [staticListing, hforeign]
  obtain ⟨value, hok, hok'⟩ | ⟨_, _, hfails, hfails'⟩ := same_of_toOption_eq hvalue
  · rw [hok, hok']
  · rw [hfails, hfails']

end

/-! ## The two walks -/

/-- What has been collected can be reached. -/
theorem reachable_of_mem_collect {items : ItemTable} {d : Directory} {body : Body} {id : AllocId}
    (hid : id ∈ d.collect body.allocIds) : Reachable items d body id :=
  Directory.reached_listed_iff.1 (.root hid)

namespace Agree

variable {ctx other : Context} {source : BodySource} {body : Body}

theorem memoryTargets_eq (h : Agree ctx other source body) {id : AllocId}
    (hid : Reachable ctx.items ctx.directory body id) :
    ctx.directory.memoryTargets id = other.directory.memoryTargets id := by
  rw [Directory.memoryTargets, h.entries id hid, Directory.memoryTargets]

theorem listedTargets_eq (h : Agree ctx other source body) {id : AllocId}
    (hid : Reachable ctx.items ctx.directory body id) :
    ctx.directory.listedTargets ctx.items id = other.directory.listedTargets other.items id := by
  rw [Directory.listedTargets, Directory.listedTargets, ← h.entries id hid]
  cases hentry : ctx.directory.get? id with
  | none => rfl
  | some entry =>
    have hlisted : entry.listedMemory? ctx.items = entry.listedMemory? other.items := by
      cases entry with
      | function _ => rfl
      | memory _ => rfl
      | static item =>
        exact listedMemory?_static_congr (h.foreign id item hid hentry)
          (h.values id item hid hentry)
    simp only [Option.map_some, Option.getD_some, GlobalAlloc.listedTargets, hlisted]

/-- The first walk collects the same handles. -/
theorem collect_eq (h : Agree ctx other source body) :
    ctx.directory.collect body.allocIds = other.directory.collect body.allocIds := by
  unfold Directory.collect
  congr 1
  refine visit_congr (ctx.directory.complements_unseenTargets GlobalAlloc.memoryTargets _)
    (other.directory.complements_unseenTargets GlobalAlloc.memoryTargets _) fun id hid => ?_
  have hcollected : id ∈ ctx.directory.collect body.allocIds := List.mem_mergeSort.2 hid
  exact h.memoryTargets_eq (reachable_of_mem_collect hcollected)

/-- The second walk lists the same handles in the same order. -/
theorem appendixOrder_eq (h : Agree ctx other source body) :
    appendixOrder ctx.items ctx.directory body =
      appendixOrder other.items other.directory body := by
  obtain ⟨-, hreachable⟩ := nodup_and_mem_appendixOrder ctx.items ctx.directory body
  simp only [appendixOrder, ← h.collect_eq]
  refine visit_congr
    (ctx.directory.complements_unseenTargets (GlobalAlloc.listedTargets ctx.items) _)
    (other.directory.complements_unseenTargets (GlobalAlloc.listedTargets other.items) _)
    fun id hid => ?_
  exact h.listedTargets_eq ((hreachable id).1 hid)

/-! ## The listing -/

theorem appendixEntry_eq (h : Agree ctx other source body) {id : AllocId}
    (hid : Reachable ctx.items ctx.directory body id) :
    appendixEntry ctx id = appendixEntry other id := by
  have hentry : entryListing ctx.items ctx.layout (ctx.directory.get? id) =
      entryListing other.items other.layout (other.directory.get? id) := by
    rw [← h.entries id hid, ← h.layout]
    cases hentry : ctx.directory.get? id with
    | none => rfl
    | some entry =>
      cases entry with
      | function _ => rfl
      | memory _ => rfl
      | static item =>
        exact staticListing_congr _ (h.foreign id item hid hentry) (h.values id item hid hentry)
  rw [appendixEntry, hentry, appendixEntry]

theorem appendix_eq (h : Agree ctx other source body) :
    appendix ctx body = appendix other body := by
  obtain ⟨-, hreachable⟩ := nodup_and_mem_appendixOrder ctx.items ctx.directory body
  rw [appendix, appendix, ← h.appendixOrder_eq]
  congr 1
  apply List.map_congr_left
  intro id hid
  exact h.appendixEntry_eq ((hreachable id).1 hid)

theorem signature_eq (h : Agree ctx other source body) :
    signature ctx.items source body = signature other.items source body := by
  simp only [signature, signatureWords, h.kind, h.mutability]

/-- Contexts that agree on a body list it in the same way. -/
theorem bodyListing_eq (h : Agree ctx other source body) :
    bodyListing ctx source body = bodyListing other source body := by
  simp only [bodyListing, functionListing, h.signature_eq, h.appendix_eq, h.sourceMap]

end Agree

/-! ## Updates -/

section

variable {t : ItemTable} {item : Item} {id : ItemId}

/-- A registration changes nothing about other items. -/
theorem get?_register_of_ne (h : id.key?.isSome → item.id.key? ≠ id.key?) :
    (t.register item).get? id = t.get? id := by
  rw [ItemTable.get?_register, if_neg]
  rintro ⟨heq, hsome⟩
  exact h hsome heq

theorem answers_register_of_ne (h : id.key?.isSome → item.id.key? ≠ id.key?) :
    (t.register item).kind? id = t.kind? id ∧
      (t.register item).isMutableStatic id = t.isMutableStatic id ∧
      (t.register item).isForeign id = t.isForeign id ∧
      (t.register item).evaluate id = t.evaluate id := by
  simp only [ItemTable.kind?, ItemTable.isMutableStatic, ItemTable.isForeign, ItemTable.evaluate,
    get?_register_of_ne h, and_self]

end

section

variable {ctx other : Context} {source : BodySource} {body : Body}

theorem Agree.refl (ctx : Context) (source : BodySource) (body : Body) :
    Agree ctx ctx source body where
  sourceMap := rfl
  layout := rfl
  kind := rfl
  mutability := rfl
  entries _ _ := rfl
  foreign _ _ _ _ := rfl
  values _ _ _ _ := rfl

/-- A directory that differs for one handle that cannot be reached makes no difference. -/
theorem Agree.withDirectory (h : Agree ctx other source body) {d : Directory} {id : AllocId}
    (hid : ¬Reachable ctx.items ctx.directory body id)
    (hd : ∀ x, x ≠ id → d.get? x = other.directory.get? x) :
    Agree ctx { other with directory := d } source body :=
  { h with
    entries := fun x hx => by
      rw [h.entries x hx, hd x]
      rintro rfl
      exact hid hx }

theorem Agree.register (h : Agree ctx other source body) {item : Item}
    (hitem : Unrelated ctx source body item) :
    Agree ctx { other with items := other.items.register item } source body := by
  obtain ⟨hkind, hmutable, -, -⟩ :=
    @answers_register_of_ne other.items item source.item (hitem _ (.inl rfl))
  refine { h with kind := ?_, mutability := ?_, foreign := ?_, values := ?_ }
  · exact h.kind.trans hkind.symm
  · exact h.mutability.trans hmutable.symm
  · intro id asked hid hentry
    obtain ⟨-, -, hforeign, -⟩ :=
      @answers_register_of_ne other.items item asked (hitem _ (.inr ⟨id, hid, hentry⟩))
    exact (h.foreign id asked hid hentry).trans hforeign.symm
  · intro id asked hid hentry
    obtain ⟨-, -, -, hvalue⟩ :=
      @answers_register_of_ne other.items item asked (hitem _ (.inr ⟨id, hid, hentry⟩))
    rw [h.values id asked hid hentry, hvalue]

/-- Updates aside keep the agreement with the context they began in. -/
theorem UpdatedAside.agree (h : UpdatedAside ctx source body other) :
    Agree ctx other source body := by
  induction h with
  | start => exact .refl ctx source body
  | set entry _ hid ih =>
    refine ih.withDirectory hid fun x hx => ?_
    rw [Directory.get?_set, if_neg (Ne.symm hx)]
  | deallocate _ hid ih =>
    refine ih.withDirectory hid fun x hx => ?_
    rw [Directory.get?_deallocate, if_neg (Ne.symm hx)]
  | register _ hitem ih => exact ih.register hitem

end

/-! ## The dependence -/

/-- The listing of a body depends on no more than what the body can reach: contexts that agree on it
list the same pieces, up to the same failure if there is one.  In particular, no number of updates
to handles that it cannot reach, and no registrations of items that it does not ask about, change
its listing. -/
theorem listing_depends_on_reachable (ctx : Context) (source : BodySource) (body : Body) :
    (∀ other, Agree ctx other source body →
      bodyListing other source body = bodyListing ctx source body) ∧
    ∀ other, UpdatedAside ctx source body other →
      bodyListing other source body = bodyListing ctx source body :=
  ⟨fun _ h => h.bodyListing_eq.symm, fun _ h => h.agree.bodyListing_eq.symm⟩

/-- The main body of an item that is not registered. -/
def ringSource : BodySource := { item := { crate := .string "crate", path := [{ name := "f" }] } }

/-- An item that `ringBody` does not ask about. -/
def strayItem : Item :=
  { id := { crate := .string "crate", path := [{ name := "g" }] }, kind? := some .struct }

/-- `ring` after two handles that `ringBody` cannot reach have been set and one of them deallocated,
and after `strayItem` has been registered. -/
def ringAside : Context :=
  { ring with
    directory := ((ring.directory.set ⟨7⟩ (.memory ringMemory)).set ⟨-3⟩
      (.function (.string "g"))).deallocate ⟨7⟩
    items := ring.items.register strayItem }

theorem updatedAside_ringAside : UpdatedAside ring ringSource ringBody ringAside := by
  have hreachable : ∀ id, Reachable ring.items ring.directory ringBody id ↔
      id ∈ [⟨0⟩, ⟨1⟩, ⟨2⟩] := by
    intro id
    rw [← appendixOrder_ring]
    exact ((nodup_and_mem_appendixOrder ring.items ring.directory ringBody).2 id).symm
  have hstatic : ∀ id item, Reachable ring.items ring.directory ringBody id →
      ring.directory.get? id = some (.static item) → item = ringStatic.id := by
    intro id item hid hentry
    have hcases := (hreachable id).1 hid
    simp only [List.mem_cons, List.not_mem_nil, or_false] at hcases
    obtain rfl | rfl | rfl := hcases
    · cases hentry
    · exact (GlobalAlloc.static.inj (Option.some.inj hentry)).symm
    · cases hentry
  have hfar : ∀ {id}, id ∉ [⟨0⟩, ⟨1⟩, ⟨2⟩] → ¬Reachable ring.items ring.directory ringBody id :=
    fun hid => mt (hreachable _).1 hid
  refine .register (.deallocate (.set _ (.set _ .start (hfar ?_)) (hfar ?_)) (hfar ?_)) ?_
  · decide
  · decide
  · decide
  · rintro asked (rfl | ⟨id, hid, hentry⟩) -
    · decide
    · obtain rfl := hstatic id asked hid hentry
      decide

theorem listing_depends_on_reachable_ringAside :
    Agree ring ringAside ringSource ringBody ∧
      UpdatedAside ring ringSource ringBody ringAside ∧
      (bodyListing ringAside ringSource ringBody).render =
        (bodyListing ring ringSource ringBody).render := by
  have hagree := updatedAside_ringAside.agree
  exact ⟨hagree, updatedAside_ringAside,
    congrArg Listing.render ((listing_depends_on_reachable ring ringSource ringBody).1 _ hagree)⟩

end MirListing
