import MirListing.Dump.Filter
import MirListing.Proofs.Text.Pieces

/-!
# What a filter means

A filter is known from its written form: reading a text gives groups that write the text again
(`text_parse`), and groups that are `WellFormed` are read back from what they write (`parse_text`).
So every text writes exactly one filter, the empty text too, which has one group of one empty term.

What a filter selects is said by its groups.  A bar between two texts puts their groups side by side
(`groups_parse_bar`), and an ampersand between texts of one group each puts their terms side by side
(`groups_parse_ampersand`).  So the bar means *or* and the ampersand *and*, also where one of the
texts is empty.
-/

namespace MirListing.Filter

/-! ## Written forms -/

/-- A filter as it is written: there are groups and terms in them, and no term has a separator. -/
structure WellFormed (f : Filter) : Prop where
  /-- There is a group. -/
  groups : f.groups ≠ []
  /-- Each group has a term. -/
  terms : ∀ group ∈ f.groups, group ≠ []
  /-- No term would be cut. -/
  uncut : ∀ group ∈ f.groups, ∀ term ∈ group, '|' ∉ term ∧ '&' ∉ term

theorem wellFormed_parse (filter : String) : (parse filter).WellFormed where
  groups hnil := Text.cut_ne_nil _ _ (List.map_eq_nil_iff.1 hnil)
  terms group hgroup := by
    obtain ⟨text, -, rfl⟩ := List.mem_map.1 hgroup
    exact Text.cut_ne_nil _ _
  uncut group hgroup term hterm := by
    obtain ⟨text, htext, rfl⟩ := List.mem_map.1 hgroup
    refine ⟨fun hbar => Text.notMem_of_mem_cut htext ?_, Text.notMem_of_mem_cut hterm⟩
    -- a character of a term is one of the group that the term was cut from
    rw [← Text.intercalate_cut '&' text]
    exact Text.mem_intercalate_of_mem hterm hbar

/-- A filter that has been read writes the text that it was read from. -/
theorem text_parse (filter : String) : (parse filter).text = filter.toList := by
  have hgroup : List.intercalate ['&'] ∘ Text.cut '&' = id :=
    funext (Text.intercalate_cut '&')
  rw [text, parse, List.map_map, hgroup, List.map_id, Text.intercalate_cut]

/-- A filter with a written form is read back from it. -/
theorem parse_text {f : Filter} (h : f.WellFormed) : parse (String.ofList f.text) = f := by
  have hne : f.groups.map (List.intercalate ['&']) ≠ [] := fun hnil =>
    h.groups (List.map_eq_nil_iff.1 hnil)
  have hbar : ∀ text ∈ f.groups.map (List.intercalate ['&']), '|' ∉ text := by
    intro text htext hmem
    obtain ⟨group, hgroup, rfl⟩ := List.mem_map.1 htext
    obtain hsame | ⟨term, hterm, hc⟩ := Text.mem_intercalate hmem
    · cases hsame
    · exact (h.uncut group hgroup term hterm).1 hc
  have hback : ∀ group ∈ f.groups, Text.cut '&' (List.intercalate ['&'] group) = group :=
    fun group hgroup => Text.cut_intercalate (h.terms group hgroup) fun term hterm =>
      (h.uncut group hgroup term hterm).2
  rw [parse, String.toList_ofList, text, Text.cut_intercalate hne hbar, List.map_map,
    List.map_congr_left (f := Text.cut '&' ∘ List.intercalate ['&']) (g := id) hback, List.map_id]

theorem groups_parse_bar (filter other : String) :
    (parse (filter ++ "|" ++ other)).groups = (parse filter).groups ++ (parse other).groups := by
  have htext : (filter ++ "|" ++ other).toList = filter.toList ++ '|' :: other.toList := by
    simp
  rw [parse, htext, Text.cut_append, List.map_append]
  rfl

/-- Texts without a bar are one group each, and they stay one group. -/
theorem groups_parse_ampersand {filter other : String} (h : '|' ∉ filter.toList)
    (hother : '|' ∉ other.toList) :
    (parse filter).groups = [Text.cut '&' filter.toList] ∧
      (parse other).groups = [Text.cut '&' other.toList] ∧
      (parse (filter ++ "&" ++ other)).groups =
        [Text.cut '&' filter.toList ++ Text.cut '&' other.toList] := by
  have htext : (filter ++ "&" ++ other).toList = filter.toList ++ '&' :: other.toList := by
    simp
  have hboth : '|' ∉ filter.toList ++ '&' :: other.toList := by
    simp [h, hother]
  refine ⟨?_, ?_, ?_⟩
  · rw [parse, Text.cut_of_notMem h, List.map_singleton]
  · rw [parse, Text.cut_of_notMem hother, List.map_singleton]
  · rw [parse, htext, Text.cut_of_notMem hboth, List.map_singleton, Text.cut_append]

/-! ## Selection -/

/-- A term matches the name of a pass and the path of an item: it is `all`, or part of one of
them. -/
def Matches (pass item : String) (term : List Char) : Prop :=
  term = "all".toList ∨ term <:+: pass.toList ∨ term <:+: item.toList

/-- A filter wants the dump of a pass and an item. -/
def Wants (filter pass item : String) : Prop :=
  enabled (some (.string filter)) (.string pass) (.string item) = .ok true

variable {pass item : String}

theorem occursIn_iff_isInfix {part text : List Char} :
    Text.occursIn part text = true ↔ part <:+: text := by
  rw [Text.occursIn_iff]
  exact exists_congr fun before => exists_congr fun after => eq_comm

theorem matchesTexts_iff {term : List Char} :
    matchesTexts pass item term = true ↔ Matches pass item term := by
  rw [matchesTexts, Bool.or_eq_true, Bool.or_eq_true, beq_iff_eq, occursIn_iff_isInfix,
    occursIn_iff_isInfix, or_assoc, Matches]

/-- The empty term is part of every name. -/
theorem matches_nil : Matches pass item [] := .inr (.inl (List.nil_infix))

theorem enabled_text (filter pass item : String) :
    enabled (some (.string filter)) (.string pass) (.string item) =
      .ok ((parse filter).groups.any fun group => group.all (matchesTexts pass item)) :=
  selects_text (parse filter) pass item

/-- A filter wants what one of its groups matches with all its terms. -/
theorem wants_iff {filter : String} :
    Wants filter pass item ↔
      ∃ group ∈ (parse filter).groups, ∀ term ∈ group, Matches pass item term := by
  simp only [Wants, enabled_text, Except.ok.injEq, List.any_eq_true, List.all_eq_true,
    matchesTexts_iff]

theorem wants_bar {filter other : String} :
    Wants (filter ++ "|" ++ other) pass item ↔ Wants filter pass item ∨ Wants other pass item := by
  simp only [wants_iff, groups_parse_bar, List.mem_append, or_and_right, exists_or]

theorem wants_ampersand {filter other : String} (h : '|' ∉ filter.toList)
    (hother : '|' ∉ other.toList) :
    Wants (filter ++ "&" ++ other) pass item ↔ Wants filter pass item ∧ Wants other pass item := by
  obtain ⟨hgroup, hotherGroup, hboth⟩ := groups_parse_ampersand h hother
  simp only [wants_iff, hgroup, hotherGroup, hboth, List.mem_singleton, exists_eq_left,
    List.forall_mem_append]

/-- Reading and writing filters undo each other, and a filter selects what its groups say: some
group matches with all its terms.  The bar means *or*, and between texts of one group the ampersand
means *and*. -/
theorem means_its_groups (filter : String) :
    ((parse filter).WellFormed ∧ String.ofList (parse filter).text = filter) ∧
      (∀ f : Filter, f.WellFormed → parse (String.ofList f.text) = f) ∧
      ∀ pass item : String,
        (∃ wanted, enabled (some (.string filter)) (.string pass) (.string item) = .ok wanted) ∧
        (Wants filter pass item ↔
          ∃ group ∈ (parse filter).groups, ∀ term ∈ group, Matches pass item term) ∧
        (Matches pass item [] ∧ Wants "" pass item) ∧
        ∀ other : String,
          (Wants (filter ++ "|" ++ other) pass item ↔
            Wants filter pass item ∨ Wants other pass item) ∧
          ('|' ∉ filter.toList → '|' ∉ other.toList →
            (Wants (filter ++ "&" ++ other) pass item ↔
              Wants filter pass item ∧ Wants other pass item)) := by
  refine ⟨⟨wellFormed_parse filter, ?_⟩, fun f => parse_text, fun pass item => ?_⟩
  · rw [text_parse, String.ofList_toList]
  · have hempty : Wants "" pass item :=
      wants_iff.2 ⟨[[]], List.mem_singleton_self _, fun term hterm => by
        obtain rfl := List.mem_singleton.1 hterm
        exact matches_nil⟩
    exact ⟨⟨_, enabled_text filter pass item⟩, wants_iff, ⟨matches_nil, hempty⟩,
      fun other => ⟨wants_bar, wants_ampersand⟩⟩

/-- An empty term between two ampersands asks for nothing. -/
theorem means_its_groups_doubled :
    '|' ∉ "nll&".toList ∧ '|' ∉ "foo".toList ∧ (parse "nll&").WellFormed ∧
      parse (String.ofList (parse "nll&").text) = ⟨[["nll".toList, []]]⟩ ∧
      Wants ("nll&" ++ "&" ++ "foo") "nll" "a::foo" := by
  have hfirst : '|' ∉ "nll&".toList := by decide
  have hsecond : '|' ∉ "foo".toList := by decide
  obtain ⟨⟨hformed, -⟩, hback, hselects⟩ := means_its_groups "nll&"
  obtain ⟨-, -, -, hother⟩ := hselects "nll" "a::foo"
  refine ⟨hfirst, hsecond, hformed, (hback _ hformed).trans (by decide), ?_⟩
  exact ((hother "foo").2 hfirst hsecond).2 ⟨rfl, rfl⟩

end MirListing.Filter
