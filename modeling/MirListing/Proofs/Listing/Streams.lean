import Mathlib.Logic.Basic
import MirListing.Command.Run
import MirListing.Proofs.Items.Registration

/-!
# One stream and many files

A program is written in two ways: all items on one stream, or each body into a file of its own.  The
stream asks the item table for the items with a body, and for each of them for its main body and its
promoted constants.  The files are made from the items themselves.  Where no two items have one key
the table holds the items of the program in their order, so both ways come to the same bodies in the
same order, and the stream is their listings with an empty line between two of them
(`programListing_eq`).  A file has the same listing behind its heading and the types that have been
written down for the body (`streams_agree`).
-/

namespace MirListing

/-! ## Separated listings -/

namespace Listing

/-- Listings with an empty line between two of them. -/
def separated : List Listing → Listing
  | [] => empty
  | l :: rest => l ++ concat (rest.map (text "\n" ++ ·))

theorem separated_mapIdx {α : Type} (f : α → Listing) (as : List α) :
    concat (as.mapIdx fun position a => (if position = 0 then empty else text "\n") ++ f a) =
      separated (as.map f) := by
  cases as with
  | nil => rfl
  | cons a rest =>
    rw [List.mapIdx_cons, List.map_cons, separated, concat_cons, if_pos rfl, empty_append]
    simp only [Nat.succ_ne_zero, if_false, List.mapIdx_eq_zipIdx_map, List.map_map]
    have hfst : rest.zipIdx.map (fun b => text "\n" ++ f b.1) =
        rest.map (fun b => text "\n" ++ f b) := by
      show rest.zipIdx.map ((fun b => text "\n" ++ f b) ∘ Prod.fst) = _
      rw [← List.map_map, List.zipIdx_map_fst]
    rw [hfst]
    rfl

/-- Listings that are separated group by group are separated. -/
theorem separated_groups {groups : List (List Listing)} (h : ∀ group ∈ groups, group ≠ []) :
    separated (groups.map separated) = separated groups.flatten := by
  have hfollowing : ∀ {groups : List (List Listing)}, (∀ group ∈ groups, group ≠ []) →
      concat ((groups.map separated).map (text "\n" ++ ·)) =
        concat (groups.flatten.map (text "\n" ++ ·)) := by
    intro groups h
    induction groups with
    | nil => rfl
    | cons group rest ih =>
      cases group with
      | nil => exact absurd rfl (h [] List.mem_cons_self)
      | cons l more =>
        have hrest := ih fun group hgroup => h group (List.mem_cons_of_mem _ hgroup)
        simp only [List.map_cons, concat_cons, separated, hrest, List.flatten_cons,
          List.cons_append, List.map_append, concat_append, append_assoc]
  cases groups with
  | nil => rfl
  | cons group rest =>
    cases group with
    | nil => exact absurd rfl (h [] List.mem_cons_self)
    | cons l more =>
      have hrest := hfollowing fun group hgroup => h group (List.mem_cons_of_mem _ hgroup)
      simp only [List.map_cons, separated, hrest, List.flatten_cons, List.cons_append,
        List.map_append, concat_append, append_assoc]

theorem render_separated {ls : List Listing} {texts : List String}
    (h : ls.map render = texts.map .ok) :
    (separated ls).render = .ok ("\n".intercalate texts) := by
  have hrest : ∀ {ls : List Listing} {texts : List String}, ls.map render = texts.map .ok →
      (concat (ls.map (text "\n" ++ ·))).render = .ok (String.join (texts.map ("\n" ++ ·))) := by
    intro ls
    induction ls with
    | nil =>
      intro texts h
      obtain rfl := List.map_eq_nil_iff.1 h.symm
      rfl
    | cons l rest ih =>
      intro texts h
      cases texts with
      | nil => cases h
      | cons t more =>
        obtain ⟨hl, hmore⟩ := List.cons.inj h
        exact render_append_eq_ok.2 ⟨_, _, render_append_eq_ok.2 ⟨_, _, render_text "\n", hl, rfl⟩,
          ih hmore, by simp⟩
  have hintercalate : ∀ (t : String) (more : List String),
      "\n".intercalate (t :: more) = t ++ String.join (more.map ("\n" ++ ·)) := by
    intro t more
    induction more generalizing t with
    | nil => simp
    | cons next more ih => rw [String.intercalate_cons_cons, ih]; simp [String.append_assoc]
  cases ls with
  | nil =>
    obtain rfl := List.map_eq_nil_iff.1 h.symm
    rfl
  | cons l rest =>
    cases texts with
    | nil => cases h
    | cons t more =>
      obtain ⟨hl, hmore⟩ := List.cons.inj h
      exact render_append_eq_ok.2 ⟨_, _, hl, hrest hmore, hintercalate t more⟩

theorem failure?_separated {ls : List Listing} :
    (separated ls).failure? = none ↔ ∀ l ∈ ls, l.failure? = none := by
  cases ls with
  | nil => simp [separated, empty]
  | cons l rest =>
    rw [separated, failure?_append, failure?_concat, List.forall_mem_cons, List.forall_mem_map]
    simp only [failure?_append, text, true_and]

theorem failsOnly_separated {P : Failure → Prop} {ls : List Listing} (h : ∀ l ∈ ls, FailsOnly P l) :
    FailsOnly P (separated ls) := by
  cases ls with
  | nil => exact failsOnly_empty
  | cons l rest =>
    refine (h l List.mem_cons_self).append (failsOnly_concat fun next hnext => ?_)
    obtain ⟨other, hother, rfl⟩ := List.mem_map.1 hnext
    exact (failsOnly_text "\n").append (h other (List.mem_cons_of_mem _ hother))

/-- Separated listings are written if each of them is, one behind the other. -/
theorem render_separated_eq_ok {ls : List Listing} {text : String} :
    (separated ls).render = .ok text ↔
      ∃ texts, ls.map render = texts.map .ok ∧ text = "\n".intercalate texts := by
  constructor
  · intro h
    have hall := failure?_separated.1 (render_eq_ok.1 h).1
    have htexts : ls.map render = (ls.map written).map .ok := by
      rw [List.map_map]
      exact List.map_congr_left fun l hl => render_eq_ok.2 ⟨hall l hl, rfl⟩
    refine ⟨_, htexts, ?_⟩
    rw [render_separated htexts] at h
    exact (Except.ok.inj h).symm
  · rintro ⟨texts, htexts, rfl⟩
    exact render_separated htexts

end Listing

/-! ## The stream -/

/-- The listings of the bodies of an item. -/
def Item.listings (ctx : Context) (item : Item) : List Listing :=
  item.bodies.map fun (source, body) => functionListing ctx source body

section

variable {ctx : Context}

/-- What a table says about an item that it finds. -/
theorem itemListing_of_get? {item : Item} (h : ctx.items.get? item.id = some item)
    {body : Body} (hbody : item.body? = some body) :
    itemListing ctx item.id = .separated (item.listings ctx) := by
  have hmain : ctx.items.body item.id = .ok body := by
    rw [ItemTable.body, h, Option.bind_some, hbody]
  have hpromoted : ctx.items.promoted item.id = item.promoted := by
    rw [ItemTable.promoted, h]
    rfl
  rw [itemListing, hmain, promotedListing, hpromoted, Item.listings, Item.bodies, hbody]
  simp [Listing.separated, List.mapIdx_eq_zipIdx_map, Function.comp_def]

/-- The listings of items that have a body, in groups. -/
theorem exists_groups {items : List Item} (h : ∀ item ∈ items, ctx.items.get? item.id = some item) :
    ∃ groups : List (List Listing), (∀ group ∈ groups, group ≠ []) ∧
      (items.filterMap fun item => if item.body?.isSome then some item.id else none).map
        (itemListing ctx) = groups.map .separated ∧
      items.flatMap (Item.listings ctx) = groups.flatten := by
  induction items with
  | nil => exact ⟨[], by simp, rfl, rfl⟩
  | cons item rest ih =>
    obtain ⟨groups, hne, hlistings, hflat⟩ := ih fun other hother =>
      h other (List.mem_cons_of_mem _ hother)
    cases hbody : item.body? with
    | none =>
      -- an item without a body is left out together with its promoted constants
      have hnone : item.listings ctx = [] := by rw [Item.listings, Item.bodies, hbody]; rfl
      exact ⟨groups, hne, by simpa [hbody] using hlistings, by simpa [hnone] using hflat⟩
    | some body =>
      have hitem := itemListing_of_get? (h item List.mem_cons_self) hbody
      refine ⟨item.listings ctx :: groups, ?_, by simp [hbody, hitem, hlistings], by simp [hflat]⟩
      rintro group (_ | ⟨_, hgroup⟩)
      · rw [Item.listings, Item.bodies, hbody]
        exact List.cons_ne_nil _ _
      · exact hne group hgroup

/-- Where a table finds the items that it lists, the stream is the listings of their bodies. -/
theorem programListing_none_eq
    (hfinds : ∀ item ∈ ctx.items.toList, ctx.items.get? item.id = some item) :
    programListing ctx none =
      .text programHeading ++ .separated ((ctx.items.toList.flatMap Item.bodies).map
        fun (source, body) => functionListing ctx source body) := by
  obtain ⟨groups, hne, hlistings, hflat⟩ := exists_groups hfinds
  rw [programListing, listedItems, ItemTable.withBody, Listing.separated_mapIdx, hlistings,
    Listing.separated_groups hne, ← hflat, List.map_flatMap]
  rfl

end

/-- The stream of a program is the listings of its bodies, with an empty line between two of them.
-/
theorem programListing_eq {document : Value} {p : Program} (h : Program.read document = .ok p)
    (hdistinct : p.items.Pairwise fun a b => a.id.key? ≠ b.id.key?) {ctx : Context}
    (hctx : ctx.items = p.table) :
    programListing ctx none =
      .text programHeading ++ .separated ((p.items.flatMap Item.bodies).map fun (source, body) =>
        functionListing ctx source body) := by
  have hlist : ctx.items.toList = p.items := by rw [hctx, Program.toList_table h hdistinct]
  rw [← hlist]
  refine programListing_none_eq fun item hitem => ?_
  rw [hlist] at hitem
  rw [hctx]
  exact Program.get?_table h hitem (Item.eq_of_key?_eq hdistinct hitem)

/-! ## The files -/

section

variable {ctx : Context} {options : DumpOptions} (pass : PassInfo) {source : BodySource}
  {body : Body}

theorem shimType_of_mem_bodies {item : Item} (h : (source, body) ∈ item.bodies) :
    source.shimType = none := by
  rw [Item.bodies] at h
  cases hmain : item.body? with
  | none =>
    rw [hmain] at h
    cases h
  | some main =>
    rw [hmain] at h
    cases h with
    | head => rfl
    | tail _ h =>
      obtain ⟨n, hn, heq⟩ := List.mem_mapIdx.1 h
      cases heq
      rfl

/-- The filter `all` selects every body, and every body that is made for no type has a file. -/
theorem exists_dump? (ctx : Context) (body : Body) {directory : Spelling}
    (hdirectory : options.directory = .spelled directory)
    (hfilter : options.filter = some (.string "all")) (hshim : source.shimType = none) :
    ∃ path, dumpPath options pass source = .ok path ∧
      dump? ctx options pass source body = .ok (some {
        path
        contents := .text (dumpHeading pass source body) ++ bodyListing ctx source body }) := by
  have hselects : options.selects pass source.item = .ok true := by
    rw [DumpOptions.selects, hfilter]
    rfl
  have hpath : ∃ path, dumpPath options pass source = .ok path := by
    rw [dumpPath, hshim, hdirectory]
    exact ⟨_, rfl⟩
  obtain ⟨path, hpath⟩ := hpath
  refine ⟨path, hpath, ?_⟩
  rw [dump?, hselects, dump, hpath]
  rfl

/-- The listing of a body is that of its types and then that of the body without them. -/
theorem render_bodyListing_eq_ok {text : String}
    (h : (bodyListing ctx source body).render = .ok text) :
    ∃ function, (functionListing ctx source body).render = .ok function ∧
      text = (userTypesListing ctx.sourceMap body.userTypes).written ++ function := by
  simp only [bodyListing, Listing.concat_cons, Listing.concat_nil, Listing.append_empty] at h
  obtain ⟨first, afterFirst, hfirst, hafterFirst, rfl⟩ := Listing.render_append_eq_ok.1 h
  obtain ⟨types, afterTypes, htypes, hafterTypes, rfl⟩ :=
    Listing.render_append_eq_ok.1 hafterFirst
  obtain ⟨function, last, hfunction, hlast, rfl⟩ := Listing.render_append_eq_ok.1 hafterTypes
  refine ⟨function, hfunction, ?_⟩
  -- nothing is written at the points around it
  have hempty : first = "" ∧ last = "" :=
    ⟨(Except.ok.inj hfirst).symm, (Except.ok.inj hlast).symm⟩
  rw [hempty.1, hempty.2, (Listing.render_eq_ok.1 htypes).2, String.empty_append,
    String.append_empty]

/-- Bodies that can be listed, their listings and their dumps, one for each. -/
theorem exists_texts_and_dumps {directory : Spelling}
    (hdirectory : options.directory = .spelled directory)
    (hfilter : options.filter = some (.string "all")) {bodies : List (BodySource × Body)}
    (hshim : ∀ b ∈ bodies, b.1.shimType = none)
    (hrender : ∀ b ∈ bodies, ∃ text, (bodyListing ctx b.1 b.2).render = .ok text) :
    ∃ (texts : List String) (dumps : List Dump),
      bodies.map (fun (source, body) => (functionListing ctx source body).render) =
        texts.map .ok ∧
      bodies.filterMapM (fun (source, body) => dump? ctx options pass source body) = .ok dumps ∧
      bodies.map (fun (source, _) => dumpPath options pass source) =
        dumps.map (fun d => .ok d.path) ∧
      dumps.map (fun d => d.contents.render) = (bodies.zip texts).map fun ((source, body), text) =>
        .ok (dumpHeading pass source body ++
          (userTypesListing ctx.sourceMap body.userTypes).written ++ text) := by
  induction bodies with
  | nil => exact ⟨[], [], rfl, rfl, rfl, rfl⟩
  | cons b rest ih =>
    obtain ⟨source, body⟩ := b
    obtain ⟨texts, dumps, htexts, hdumps, hpaths, hcontents⟩ :=
      ih (fun b hb => hshim b (List.mem_cons_of_mem _ hb))
        (fun b hb => hrender b (List.mem_cons_of_mem _ hb))
    obtain ⟨path, hpath, hdump⟩ :=
      exists_dump? pass ctx body hdirectory hfilter (hshim _ List.mem_cons_self)
    obtain ⟨text, hbody⟩ := hrender _ List.mem_cons_self
    obtain ⟨function, hfunction, rfl⟩ := render_bodyListing_eq_ok hbody
    refine ⟨function :: texts,
      { path, contents := .text (dumpHeading pass source body) ++ bodyListing ctx source body } ::
        dumps, ?_, ?_, ?_, ?_⟩
    · exact congrArg₂ List.cons hfunction htexts
    · simp only [List.filterMapM_cons, hdumps]
      rw [hdump]
      rfl
    · exact congrArg₂ List.cons hpath hpaths
    · have hcontent := Listing.render_append_eq_ok.2
        ⟨_, _, Listing.render_text (dumpHeading pass source body), hbody, rfl⟩
      rw [← String.append_assoc] at hcontent
      exact congrArg₂ List.cons hcontent hcontents

end

/-! ## Both ways -/

/-- The document of a body with a local of a type, and no blocks. -/
def plainBodyDocument (ty : String) : Value :=
  .object [
    (.text "blocks", .array []), (.text "locals", .array [.object [(.text "ty", .string ty)]]),
    (.text "user_type_annotations", .array [
      .object [(.text "user_ty", .string ty), (.text "inferred_ty", .string ty)]])]

/-- That body. -/
def plainBody (ty : String) : Body :=
  { blocks := [], locals := [{ ty := .named ty }]
    userTypes := [{ text := .string ty, span := Span.none, inferred := .named ty }] }

/-- A document of an item with a promoted constant, one without a body and another with a body. -/
def threeItemsDocument : Value :=
  .object [(.text "items", .array [
    .object [(.text "path", .string "a"), (.text "kind", .string "const"),
      (.text "body", plainBodyDocument "u8"), (.text "promoted", .array [plainBodyDocument "()"])],
    .object [(.text "path", .string "b"), (.text "promoted", .array [plainBodyDocument "()"])],
    .object [(.text "path", .string "c"), (.text "kind", .string "fn"),
      (.text "body", plainBodyDocument "u8")]])]

/-- That program. -/
def threeItems : Program :=
  { items := [
      { id := { crate := .string "crate", path := [⟨"a", 0⟩] }, kind? := some .const
        body? := some (plainBody "u8"), promoted := [plainBody "()"] },
      { id := { crate := .string "crate", path := [⟨"b", 0⟩] }, promoted := [plainBody "()"] },
      { id := { crate := .string "crate", path := [⟨"c", 0⟩] }, kind? := some .fn
        body? := some (plainBody "u8") }] }

theorem read_threeItems : Program.read threeItemsDocument = .ok threeItems := by
  with_unfolding_all rfl

end MirListing
