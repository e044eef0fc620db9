import MirListing.Dump.Basic
import MirListing.Proofs.Text.Numerals
import MirListing.Proofs.Text.Pieces

/-!
# Names that tell bodies apart

The name of a dump file is made of the item's components with dashes between them, a dash and the
number of the promoted constant if there is one, and a part that is the same for all bodies
(`behindBody`).  Nothing says where a component ends and the next begins but the dash, so names are
told apart only if the components are `Plain`: no dash and no bracket in the name, and not a number.

Then cutting the name at the dashes gives the components back, and the last piece says whether it is
the number of a promoted constant, because only that is all digits.  The name has no slash and is no
point, so in the directory it is one more name (`join_parse_of_segment`).
-/

namespace MirListing

/-! ## Components -/

/-- A component whose name can be told from what stands around it in a file name. -/
structure Component.Plain (c : Component) : Prop where
  /-- It has no dash. -/
  dash : '-' ∉ c.name.toList
  /-- It has no bracket. -/
  bracket : '[' ∉ c.name.toList
  /-- It has no slash. -/
  slash : '/' ∉ c.name.toList
  /-- It is no number, and not empty. -/
  letter : ∃ x ∈ c.name.toList, x.isDigit = false

namespace Component

variable {c d : Component}

/-- The disambiguator between brackets. -/
def bracketed (c : Component) : String :=
  if c.disambiguator = 0 then "" else "[" ++ c.disambiguator.repr ++ "]"

theorem fileText_eq (c : Component) : c.fileText = c.name ++ c.bracketed := by
  unfold fileText bracketed
  split
  · exact String.append_empty.symm
  · simp only [String.append_assoc]

theorem mem_bracketed {x : Char} (h : x ∈ c.bracketed.toList) :
    x = '[' ∨ x.isDigit = true ∨ x = ']' := by
  unfold bracketed at h
  split at h
  · cases h
  · rw [String.toList_append, String.toList_append, List.mem_append, List.mem_append] at h
    obtain (hopen | hdigit) | hclose := h
    · exact .inl (List.mem_singleton.1 hopen)
    · exact .inr (.inl (Text.isDigit_of_mem_repr hdigit))
    · exact .inr (.inr (List.mem_singleton.1 hclose))

theorem notMem_fileText {x : Char} (hname : x ∉ c.name.toList)
    (hx : x ≠ '[' ∧ x.isDigit = false ∧ x ≠ ']') : x ∉ c.fileText.toList := by
  intro h
  rw [fileText_eq, String.toList_append, List.mem_append] at h
  obtain hmem | hmem := h
  · exact hname hmem
  · obtain heq | hdigit | heq := mem_bracketed hmem
    · exact hx.1 heq
    · exact Bool.false_ne_true (hx.2.1.symm.trans hdigit)
    · exact hx.2.2 heq

theorem Plain.exists_letter (h : c.Plain) : ∃ x ∈ c.fileText.toList, x.isDigit = false := by
  obtain ⟨x, hx, hletter⟩ := h.letter
  rw [fileText_eq, String.toList_append]
  exact ⟨x, List.mem_append_left _ hx, hletter⟩

theorem bracketed_inj (h : c.bracketed = d.bracketed) : c.disambiguator = d.disambiguator := by
  unfold bracketed at h
  split at h
  · split at h
    · simp_all
    · exact absurd (congrArg String.toList h) (by simp)
  · split at h
    · exact absurd (congrArg String.toList h) (by simp)
    · rw [String.append_left_inj, String.append_right_inj] at h
      exact Text.eq_of_repr_eq h

/-- What stands behind a name begins with a bracket, if there is anything. -/
theorem head?_bracketed : ∀ x ∈ c.bracketed.toList.head?, ¬x ≠ '[' := by
  intro x hx
  unfold bracketed at hx
  split at hx
  · cases hx
  · simp only [String.toList_append, List.append_assoc] at hx
    exact not_not_intro (Option.some.inj hx).symm

theorem Plain.fileText_inj (hc : c.Plain) (hd : d.Plain) (h : c.fileText = d.fileText) :
    c = d := by
  have hchars := congrArg String.toList h
  rw [fileText_eq, fileText_eq, String.toList_append, String.toList_append] at hchars
  obtain ⟨hname, hbracketed⟩ := append_inj_of_run
    (fun x hx => ne_of_mem_of_not_mem hx hc.bracket)
    (fun x hx => ne_of_mem_of_not_mem hx hd.bracket)
    head?_bracketed head?_bracketed hchars
  obtain ⟨name, number⟩ := c
  obtain ⟨name', number'⟩ := d
  obtain rfl : name = name' := String.toList_inj.1 hname
  obtain rfl : number = number' := bracketed_inj (String.toList_inj.1 hbracketed)
  rfl

end Component

/-! ## Bodies -/

/-- The pieces of an item's name are its components; a name of nothing is one empty piece. -/
theorem ItemId.cut_fileText {item : ItemId} (h : ∀ c ∈ item.path, c.Plain) :
    Text.cut '-' item.fileText.toList =
      if item.path = [] then [[]] else item.path.map fun c => c.fileText.toList := by
  have htext : item.fileText.toList =
      ['-'].intercalate (item.path.map fun c => c.fileText.toList) := by
    rw [fileText, String.toList_intercalate, List.map_map]
    rfl
  rw [htext]
  split
  · rename_i hnil
    rw [hnil]
    rfl
  · rename_i hne
    refine Text.cut_intercalate (fun hnil => hne (List.map_eq_nil_iff.1 hnil)) ?_
    intro piece hpiece
    obtain ⟨c, hc, rfl⟩ := List.mem_map.1 hpiece
    exact Component.notMem_fileText (h c hc).dash (by decide)

/-- The name of an item tells its components. -/
theorem ItemId.path_eq_of_fileText_eq {item other : ItemId} (h : ∀ c ∈ item.path, c.Plain)
    (hother : ∀ c ∈ other.path, c.Plain) (htext : item.fileText = other.fileText) :
    item.path = other.path := by
  -- a component is no empty piece, so it does not look like the name of nothing
  have hempty : ∀ components : List Component, (∀ c ∈ components, c.Plain) →
      [[]] ≠ components.map fun c => c.fileText.toList := by
    intro components hplain heq
    obtain ⟨c, hc, hnil⟩ := List.mem_map.1 (heq ▸ List.mem_singleton_self [])
    obtain ⟨x, hx, -⟩ := (hplain c hc).exists_letter
    rw [hnil] at hx
    cases hx
  have hcut := congrArg (fun name => Text.cut '-' name.toList) htext
  simp only [cut_fileText h, cut_fileText hother] at hcut
  split at hcut
  · rename_i hnil
    split at hcut
    · rename_i hnil'
      rw [hnil, hnil']
    · exact absurd hcut (hempty _ hother)
  · split at hcut
    · exact absurd hcut.symm (hempty _ h)
    · refine eq_of_map_eq (fun c hc d hd heq => ?_) hcut
      exact (h c hc).fileText_inj (hother d hd) (String.toList_inj.1 heq)

/-- A piece that is the number of a promoted constant. -/
def IsNumber (piece : List Char) : Prop := piece ≠ [] ∧ ∀ x ∈ piece, x.isDigit = true

theorem ItemId.not_isNumber_of_mem_cut {item : ItemId} (h : ∀ c ∈ item.path, c.Plain)
    {piece : List Char} (hpiece : piece ∈ Text.cut '-' item.fileText.toList) : ¬IsNumber piece := by
  rintro ⟨hne, hdigits⟩
  rw [cut_fileText h] at hpiece
  split at hpiece
  · exact hne (List.mem_singleton.1 hpiece)
  · obtain ⟨c, hc, rfl⟩ := List.mem_map.1 hpiece
    obtain ⟨x, hx, hletter⟩ := (h c hc).exists_letter
    exact Bool.false_ne_true (hletter.symm.trans (hdigits x hx))

theorem isNumber_repr (n : Nat) : IsNumber n.repr.toList := by
  refine ⟨?_, fun x hx => Text.isDigit_of_mem_repr hx⟩
  rw [Nat.toList_repr]
  exact Nat.toDigits_ne_nil

namespace BodySource

/-- A body that can be told from others by the name of its file. -/
structure Plain (source : BodySource) : Prop where
  /-- Its components can. -/
  components : ∀ c ∈ source.item.path, c.Plain
  /-- The number of a promoted constant is a natural one. -/
  promoted : source.promoted = none ∨ ∃ n : Nat, source.promoted = some (.integer n)
  /-- It is not made for a type. -/
  shimType : source.shimType = none

/-- What a file name says of a body. -/
def fileText (source : BodySource) : String :=
  source.item.fileText ++ DumpName.promotedText source.promoted

variable {source other : BodySource}

theorem shown_natCast (n : Nat) : (Value.integer n).shown = n.repr := by
  rw [Value.shown, Value.quoted]
  · rfl
  · exact nofun

theorem toList_promotedText (n : Nat) :
    (DumpName.promotedText (some (.integer n))).toList = '-' :: n.repr.toList := by
  rw [DumpName.promotedText, shown_natCast, String.toList_append]
  rfl

/-- The number of a promoted constant as a piece of a name. -/
def numberPieces (promoted : Option Label) : List (List Char) :=
  (promoted.map fun number => number.shown.toList).toList

theorem numberPieces_natCast (n : Nat) : numberPieces (some (.integer n)) = [n.repr.toList] := by
  rw [← shown_natCast n]
  rfl

/-- The number of a promoted constant is one more piece of the name. -/
theorem Plain.cut_fileText (h : source.Plain) :
    Text.cut '-' source.fileText.toList =
      Text.cut '-' source.item.fileText.toList ++ numberPieces source.promoted := by
  obtain hnone | ⟨n, hsome⟩ := h.promoted
  · rw [fileText, hnone, DumpName.promotedText, String.append_empty]
    exact (List.append_nil _).symm
  · have hdash : '-' ∉ n.repr.toList := fun hmem =>
      absurd (Text.isDigit_of_mem_repr hmem) (by decide)
    have htext : source.fileText.toList = source.item.fileText.toList ++ '-' :: n.repr.toList := by
      rw [fileText, hsome, String.toList_append, toList_promotedText]
    rw [htext, Text.cut_append, Text.cut_of_notMem hdash, hsome, numberPieces_natCast]

theorem Plain.isNumber_of_mem (h : source.Plain) {piece : List Char}
    (hpiece : piece ∈ numberPieces source.promoted) : IsNumber piece := by
  obtain hnone | ⟨n, hsome⟩ := h.promoted
  · rw [hnone] at hpiece
    cases hpiece
  · rw [hsome, numberPieces_natCast] at hpiece
    obtain rfl := List.mem_singleton.1 hpiece
    exact isNumber_repr n

theorem Plain.promoted_eq (h : source.Plain) (hother : other.Plain)
    (hpieces : numberPieces source.promoted = numberPieces other.promoted) :
    source.promoted = other.promoted := by
  obtain hnone | ⟨n, hsome⟩ := h.promoted
  · obtain hnone' | ⟨n', hsome'⟩ := hother.promoted
    · rw [hnone, hnone']
    · rw [hnone, hsome'] at hpieces
      cases hpieces
  · obtain hnone' | ⟨n', hsome'⟩ := hother.promoted
    · rw [hsome, hnone'] at hpieces
      cases hpieces
    · rw [hsome, hsome', numberPieces_natCast, numberPieces_natCast] at hpieces
      obtain rfl := Text.eq_of_repr_eq (String.toList_inj.1 (List.singleton_inj.1 hpieces))
      rw [hsome, hsome']

/-- What a file name says of a body tells its components and its number. -/
theorem fileText_eq_iff (h : source.Plain) (hother : other.Plain) :
    source.fileText = other.fileText ↔
      source.item.path = other.item.path ∧ source.promoted = other.promoted := by
  constructor
  · intro heq
    have hcut := congrArg (fun name => Text.cut '-' name.toList) heq
    simp only [h.cut_fileText, hother.cut_fileText] at hcut
    -- the pieces of the components are no numbers, and what comes behind them is one
    obtain ⟨hitem, hnumber⟩ := append_inj_of_run
      (fun _ => ItemId.not_isNumber_of_mem_cut h.components)
      (fun _ => ItemId.not_isNumber_of_mem_cut hother.components)
      (fun _ hmem => not_not_intro (h.isNumber_of_mem (List.mem_of_mem_head? hmem)))
      (fun _ hmem => not_not_intro (hother.isNumber_of_mem (List.mem_of_mem_head? hmem))) hcut
    have htext := String.toList_inj.1 (Text.cut_injective '-' hitem)
    exact ⟨ItemId.path_eq_of_fileText_eq h.components hother.components htext,
      h.promoted_eq hother hnumber⟩
  · rintro ⟨hpath, hpromoted⟩
    rw [fileText, fileText, ItemId.fileText, ItemId.fileText, hpath, hpromoted]

theorem Plain.slash_notMem_fileText (h : source.Plain) : '/' ∉ source.fileText.toList := by
  rw [fileText, String.toList_append, List.mem_append, not_or]
  constructor
  · rw [ItemId.fileText, String.toList_intercalate, List.map_map]
    intro hmem
    obtain hdash | ⟨piece, hpiece, hslash⟩ := Text.mem_intercalate hmem
    · exact absurd hdash (by decide)
    · obtain ⟨c, hc, rfl⟩ := List.mem_map.1 hpiece
      exact Component.notMem_fileText (h.components c hc).slash (by decide) hslash
  · obtain hnone | ⟨n, hsome⟩ := h.promoted
    · rw [hnone]
      exact List.not_mem_nil
    · rw [hsome, toList_promotedText]
      intro hmem
      obtain hdash | hdigit := List.mem_cons.1 hmem
      · exact absurd hdash (by decide)
      · exact absurd (Text.isDigit_of_mem_repr hdigit) (by decide)

end BodySource

/-! ## Files -/

/-- A file of a dump directly inside a directory. -/
def FilePath.IsDumpIn (directory p : FilePath) : Prop :=
  ∃ rest, '/' ∉ ("rustc." ++ rest).toList ∧
    p = { directory with names := directory.names ++ ["rustc." ++ rest] }

/-- A name without a slash is one name below the directory. -/
theorem FilePath.join_parse_of_segment (directory : FilePath) {rest : String}
    (h : '/' ∉ ("rustc." ++ rest).toList) :
    directory.join (parse ("rustc." ++ rest)) =
      { directory with names := directory.names ++ ["rustc." ++ rest] } := by
  have hroot : rootOf ("rustc." ++ rest).toList = .here := by
    rw [String.toList_append]
    rfl
  have hnames : (parse ("rustc." ++ rest)).names = ["rustc." ++ rest] := by
    have hne : ∀ name : String, name.toList.length < 2 → "rustc." ++ rest ≠ name := by
      rintro _ hlength rfl
      rw [String.toList_append, List.length_append] at hlength
      exact absurd hlength (Nat.not_lt.2 (Nat.le_add_right_of_le (by decide)))
    have hempty := hne "" (by decide)
    have hpoint := hne "." (by decide)
    rw [parse, Text.cutString, Text.cut_of_notMem h, List.map_singleton, String.ofList_toList,
      List.filter_cons_of_pos (by simp only [bne_iff_ne, Bool.and_eq_true]; exact ⟨hempty, hpoint⟩)]
    rfl
  have hhere : (parse ("rustc." ++ rest)).root = .here := hroot
  rw [join, if_pos hhere, hnames]

namespace DumpName

/-- What stands behind the body in a file name; it is the same for all bodies. -/
def behindBody (n : DumpName) : String :=
  n.passText ++ "." ++ n.pass.shown ++ "." ++ n.disambiguator.shown ++ "." ++ n.extension.shown

/-- The name for one body. -/
def forBody (n : DumpName) (source : BodySource) : DumpName :=
  { n with promoted := source.promoted, shimType := source.shimType }

/-- Nothing in a file name has a slash, apart from the body. -/
structure Slashless (n : DumpName) : Prop where
  /-- The number of the pass has none. -/
  passNumber : ∀ number ∈ n.passNumber, '/' ∉ number.shown.toList
  /-- The name of the pass has none. -/
  pass : '/' ∉ n.pass.shown.toList
  /-- What tells the dumps around a pass apart has none. -/
  disambiguator : '/' ∉ n.disambiguator.shown.toList
  /-- The ending has none. -/
  extension : '/' ∉ n.extension.shown.toList

variable {n : DumpName} {source : BodySource}

theorem slash_notMem_passText (h : n.Slashless) : '/' ∉ n.passText.toList := by
  unfold passText
  split
  · exact List.not_mem_nil
  · split
    · decide
    · rename_i number hnumber
      rw [String.toList_append, List.mem_append, not_or]
      exact ⟨by decide, h.passNumber number hnumber⟩

theorem slash_notMem_behindBody (h : n.Slashless) : '/' ∉ n.behindBody.toList := by
  have hpoint : '/' ∉ ".".toList := by decide
  simp only [behindBody, String.toList_append, List.mem_append, not_or]
  exact ⟨⟨⟨⟨⟨⟨slash_notMem_passText h, hpoint⟩, h.pass⟩, hpoint⟩, h.disambiguator⟩, hpoint⟩,
    h.extension⟩

theorem fileText_forBody (hshim : source.shimType = none) :
    (n.forBody source).fileText source.item.fileText =
      .ok ("rustc." ++ (source.fileText ++ n.behindBody)) := by
  have hmade : (n.forBody source).fileText source.item.fileText =
      .ok ("rustc." ++ source.item.fileText ++ "" ++ promotedText source.promoted ++ n.passText ++
        "." ++ n.pass.shown ++ "." ++ n.disambiguator.shown ++ "." ++ n.extension.shown) := by
    rw [fileText, forBody, hshim]
    rfl
  simp only [hmade, BodySource.fileText, behindBody, String.append_assoc, String.empty_append]

/-- The file of a body stands in the directory under a name of its own. -/
theorem path_forBody (h : n.Slashless) (hsource : source.Plain) (directory : Spelling) :
    '/' ∉ ("rustc." ++ (source.fileText ++ n.behindBody)).toList ∧
      (n.forBody source).path (.spelled directory) source.item.fileText =
        .ok { FilePath.parse directory.plain with
          names := (FilePath.parse directory.plain).names ++
            ["rustc." ++ (source.fileText ++ n.behindBody)] } := by
  have hslash : '/' ∉ ("rustc." ++ (source.fileText ++ n.behindBody)).toList := by
    simp only [String.toList_append, List.mem_append, not_or]
    exact ⟨by decide, hsource.slash_notMem_fileText, slash_notMem_behindBody h⟩
  refine ⟨hslash, ?_⟩
  rw [path, fileText_forBody hsource.shimType]
  exact congrArg Except.ok (FilePath.join_parse_of_segment _ hslash)

end DumpName

/-- What the names of the dumps of a pass have in common, with any ending. -/
def PassInfo.dumpName (pass : PassInfo) (options : DumpOptions) (extension : Label) : DumpName :=
  { passNumber := pass.number, excludePassNumber := options.excludePassNumber, pass := pass.name,
    disambiguator := pass.disambiguator, extension }

/-- The file of the dump of a body, with any ending. -/
def dumpPathAs (extension : Label) (options : DumpOptions) (pass : PassInfo) (source : BodySource) :
    Outcome FilePath :=
  ((pass.dumpName options extension).forBody source).path options.directory source.item.fileText

/-- Bodies whose names can be told apart are dumped to files of their own, directly inside the
directory of dumps; `dumpPath` is the case of the ending `mir`. -/
theorem dump_files_tell_bodies_apart {options : DumpOptions} {pass : PassInfo} {extension : Label}
    {directory : Spelling} {source other : BodySource}
    (hdirectory : options.directory = .spelled directory)
    (hname : (pass.dumpName options extension).Slashless)
    (hsource : source.Plain) (hother : other.Plain) :
    dumpPathAs (.string "mir") = dumpPath ∧
      ∃ p q, dumpPathAs extension options pass source = .ok p ∧
        dumpPathAs extension options pass other = .ok q ∧
        (FilePath.parse directory.plain).IsDumpIn p ∧
        (FilePath.parse directory.plain).IsDumpIn q ∧
        (p = q ↔ source.item.path = other.item.path ∧ source.promoted = other.promoted) := by
  obtain ⟨hslash, hp⟩ := DumpName.path_forBody hname hsource directory
  obtain ⟨hslash', hq⟩ := DumpName.path_forBody hname hother directory
  refine ⟨rfl, _, _, ?_, ?_, ⟨_, hslash, rfl⟩, ⟨_, hslash', rfl⟩, ?_⟩
  · rw [dumpPathAs, hdirectory]
    exact hp
  · rw [dumpPathAs, hdirectory]
    exact hq
  · rw [← BodySource.fileText_eq_iff hsource hother]
    constructor
    · intro heq
      have hnames := List.append_cancel_left (FilePath.mk.inj heq).2
      have hfile := List.singleton_inj.1 hnames
      rwa [String.append_right_inj, String.append_left_inj] at hfile
    · intro heq
      rw [heq]

/-- Two closures of one function, the first with a promoted constant, below a directory that is not
in normal form. -/
theorem dump_files_tell_closures_apart :
    let options : DumpOptions := { directory := .string "./out//x/" }
    let pass : PassInfo := { number := some (.integer 3), name := .string "Inline" }
    let path (n : Nat) : List Component := [⟨"foo", 0⟩, ⟨"\x7b\x7bclosure\x7d\x7d", n⟩]
    let first : BodySource :=
      { item := { crate := .string "crate", path := path 1 }, promoted := some (.integer 0) }
    let second : BodySource := { item := { crate := .string "crate", path := path 10 } }
    ∃ p q, dumpPath options pass first = .ok p ∧ dumpPath options pass second = .ok q ∧ p ≠ q := by
  intro options pass path first second
  have hname : (pass.dumpName options (.string "mir")).Slashless := by
    constructor
    · rintro _ ⟨⟩
      decide +kernel
    all_goals decide +kernel
  have hcomponents : ∀ n, ∀ c ∈ path n, c.Plain := by
    have hclosure : (Component.mk "\x7b\x7bclosure\x7d\x7d" 0).Plain :=
      ⟨by decide, by decide, by decide, 'c', by decide, by decide⟩
    intro n c hc
    obtain rfl | hc := List.mem_cons.1 hc
    · exact ⟨by decide, by decide, by decide, 'f', by decide, by decide⟩
    · obtain rfl := List.mem_singleton.1 hc
      exact ⟨hclosure.dash, hclosure.bracket, hclosure.slash, hclosure.letter⟩
  have hfirst : first.Plain := ⟨hcomponents 1, .inr ⟨0, rfl⟩, rfl⟩
  have hsecond : second.Plain := ⟨hcomponents 10, .inl rfl, rfl⟩
  obtain ⟨-, p, q, hp, hq, -, -, hiff⟩ := dump_files_tell_bodies_apart rfl hname hfirst hsecond
  refine ⟨p, q, hp, hq, fun heq => ?_⟩
  exact absurd (hiff.1 heq).2 (by decide)

end MirListing
