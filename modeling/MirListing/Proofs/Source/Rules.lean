import MirListing.Proofs.OrderedMaps
import MirListing.Source.Map

/-!
# Which rule of a source map is applied

The beginnings that fit one name are beginnings of each other, so of two that are equally long there
is only one: the longest that fits is unique (`LongestFit.unique`).  Looking a name up finds it
(`longestRule?_eq_some_iff`), whatever the order of the rules.

So a map that rules have been added to one after another is known by the beginnings that were given
and the last replacement of each.  This says what it makes of a name, that rules for different
beginnings may be added in any order, and which rules are idle for a name (`replaces_longest`).
-/

namespace MirListing.SourceMap

/-! ## Beginnings that fit -/

/-- A beginning fits a name. -/
def Fits (name start : String) : Prop := start.toList <+: name.toList

/-- A beginning is the longest of those that fit a name. -/
structure LongestFit (starts : List String) (name start : String) : Prop where
  /-- It is given. -/
  mem : start ∈ starts
  /-- It fits. -/
  fits : Fits name start
  /-- No other that fits is longer. -/
  longest : ∀ other ∈ starts, Fits name other → other.length ≤ start.length

variable {m : SourceMap} {starts : List String} {name start : String}

theorem startsWith_iff : startsWith name start = true ↔ Fits name start :=
  List.isPrefixOf_iff_prefix

theorem Fits.exists_rest (h : Fits name start) : ∃ rest, name = start ++ rest := by
  obtain ⟨rest, hrest⟩ := h
  exact ⟨String.ofList rest, String.toList_inj.1 (by simp [hrest])⟩

/-- Of one length at most one beginning fits. -/
theorem Fits.eq_of_length {other : String} (h : Fits name start) (hother : Fits name other)
    (hlength : start.length = other.length) : start = other := by
  rw [← String.length_toList, ← String.length_toList] at hlength
  have hhead := List.prefix_of_prefix_length_le h hother (Nat.le_of_eq hlength)
  exact String.toList_inj.1 (hhead.eq_of_length hlength)

theorem LongestFit.unique {other : String} (h : LongestFit starts name start)
    (hother : LongestFit starts name other) : start = other :=
  h.fits.eq_of_length hother.fits
    (Nat.le_antisymm (hother.longest _ h.mem h.fits) (h.longest _ hother.mem hother.fits))

theorem longestFit_congr {others : List String} (h : ∀ s, s ∈ starts ↔ s ∈ others) :
    LongestFit starts name start ↔ LongestFit others name start := by
  constructor
  · intro hlongest
    exact ⟨(h _).1 hlongest.mem, hlongest.fits, fun s hs => hlongest.longest s ((h s).2 hs)⟩
  · intro hlongest
    exact ⟨(h _).2 hlongest.mem, hlongest.fits, fun s hs => hlongest.longest s ((h s).1 hs)⟩

/-- A beginning that makes no difference to a name: it does not fit, or a longer one does. -/
def Idle (starts : List String) (name idle : String) : Prop :=
  ¬Fits name idle ∨ ∃ longer ∈ starts, Fits name longer ∧ idle.length < longer.length

theorem LongestFit.ne_of_idle {idle : String} (h : LongestFit starts name start)
    (hidle : Idle starts name idle) : start ≠ idle := by
  rintro rfl
  rcases hidle with hnot | ⟨longer, hmem, hfits, hlt⟩
  · exact hnot h.fits
  · exact absurd (h.longest longer hmem hfits) (Nat.not_le.2 hlt)

theorem Idle.concat {idle : String} (h : Idle starts name idle) (last : String) :
    Idle (starts ++ [last]) name idle :=
  h.imp_right fun ⟨longer, hmem, hlonger⟩ => ⟨longer, List.mem_append_left _ hmem, hlonger⟩

theorem longestFit_concat {idle : String} (hidle : Idle starts name idle) :
    LongestFit (starts ++ [idle]) name start ↔ LongestFit starts name start := by
  constructor
  · intro h
    have hmem := (List.mem_append.1 h.mem).resolve_right fun hlast =>
      h.ne_of_idle (hidle.concat idle) (List.mem_singleton.1 hlast)
    exact ⟨hmem, h.fits, fun other hother => h.longest other (List.mem_append_left _ hother)⟩
  · intro h
    refine ⟨List.mem_append_left _ h.mem, h.fits, fun other hother hfits => ?_⟩
    obtain hother | rfl := List.mem_append.1 hother |>.imp_right List.mem_singleton.1
    · exact h.longest other hother hfits
    · obtain hnot | ⟨longer, hmem, hlonger, hlt⟩ := hidle
      · exact absurd hfits hnot
      · exact Nat.le_trans (Nat.le_of_lt hlt) (h.longest longer hmem hlonger)

/-! ## Looking a rule up -/

theorem mem_foldl_longer (rule : String × Label) (rules : List (String × Label)) :
    rules.foldl longer rule ∈ rule :: rules := by
  induction rules generalizing rule with
  | nil => exact List.mem_cons_self
  | cons next rest ih =>
    rw [List.foldl_cons]
    rcases List.mem_cons.1 (ih (longer rule next)) with hfirst | hrest
    · rw [hfirst, longer]
      split
      · exact List.mem_cons_of_mem _ List.mem_cons_self
      · exact List.mem_cons_self
    · exact List.mem_cons_of_mem _ (List.mem_cons_of_mem _ hrest)

theorem length_le_foldl_longer (rule : String × Label) (rules : List (String × Label)) :
    ∀ other ∈ rule :: rules, other.1.length ≤ (rules.foldl longer rule).1.length := by
  induction rules generalizing rule with
  | nil =>
    intro other hother
    obtain rfl := List.mem_singleton.1 hother
    exact Nat.le_refl _
  | cons next rest ih =>
    have hboth : rule.1.length ≤ (longer rule next).1.length ∧
        next.1.length ≤ (longer rule next).1.length := by
      rw [longer]
      split <;> omega
    have hlonger := ih (longer rule next) _ List.mem_cons_self
    rw [List.foldl_cons]
    simp only [List.mem_cons, forall_eq_or_imp]
    exact ⟨Nat.le_trans hboth.1 hlonger, Nat.le_trans hboth.2 hlonger,
      fun other hother => ih (longer rule next) other (List.mem_cons_of_mem _ hother)⟩

/-- Either no beginning fits, or the rule that is found has the longest one. -/
theorem longestRule?_cases (m : SourceMap) (name : String) :
    (m.longestRule? name = none ∧ ∀ start ∈ m.rules.keys, ¬Fits name start) ∨
      ∃ rule ∈ m.rules.entries, m.longestRule? name = some rule ∧
        LongestFit m.rules.keys name rule.1 := by
  unfold longestRule?
  split
  · rename_i hnone
    refine .inl ⟨rfl, fun start hstart hfits => ?_⟩
    obtain ⟨rule, hrule, rfl⟩ := List.mem_map.1 hstart
    exact List.filter_eq_nil_iff.1 hnone rule hrule (startsWith_iff.2 hfits)
  · rename_i first rest hfitting
    have hmem := mem_foldl_longer first rest
    rw [← hfitting, List.mem_filter] at hmem
    refine .inr ⟨_, hmem.1, rfl, List.mem_map_of_mem hmem.1, startsWith_iff.1 hmem.2, ?_⟩
    intro start hstart hfits
    obtain ⟨rule, hrule, rfl⟩ := List.mem_map.1 hstart
    refine length_le_foldl_longer first rest rule ?_
    rw [← hfitting]
    exact List.mem_filter.2 ⟨hrule, startsWith_iff.2 hfits⟩

theorem longestRule?_eq_none_iff :
    m.longestRule? name = none ↔ ∀ start ∈ m.rules.keys, ¬Fits name start := by
  obtain ⟨hnone, hnot⟩ | ⟨rule, -, hsome, hlongest⟩ := longestRule?_cases m name
  · exact iff_of_true hnone hnot
  · rw [hsome]
    exact iff_of_false nofun fun hnot => hnot _ hlongest.mem hlongest.fits

/-- The rule that is applied is one of the rules. -/
theorem mem_of_longestRule? {rule : String × Label} (h : m.longestRule? name = some rule) :
    rule ∈ m.rules.entries := by
  obtain ⟨hnone, -⟩ | ⟨found, hmem, hsome, -⟩ := longestRule?_cases m name
  · rw [hnone] at h
    cases h
  · rw [hsome] at h
    obtain rfl := Option.some.inj h
    exact hmem

/-- A rule is found if its beginning is the longest that fits. -/
theorem longestRule?_eq_some_iff (hnodup : m.rules.keys.Nodup) {replacement : Label} :
    m.longestRule? name = some (start, replacement) ↔
      LongestFit m.rules.keys name start ∧ m.rules.get? start = some replacement := by
  rw [← OrderedMap.mem_entries_iff hnodup]
  obtain ⟨hnone, hnot⟩ | ⟨⟨found, value⟩, hmem, hsome, hlongest⟩ := longestRule?_cases m name
  · rw [hnone]
    exact ⟨nofun, fun h => absurd h.1.fits (hnot _ h.1.mem)⟩
  · rw [hsome, Option.some_inj, Prod.mk.injEq]
    constructor
    · rintro ⟨rfl, rfl⟩
      exact ⟨hlongest, hmem⟩
    · rintro ⟨hlongest', hmem'⟩
      obtain rfl := hlongest.unique hlongest'
      rw [OrderedMap.mem_entries_iff hnodup] at hmem hmem'
      exact ⟨rfl, Option.some.inj (hmem.symm.trans hmem')⟩

/-! ## Rules added one after another -/

/-- The source map after rules have been added. -/
def ofRules (rules : List (String × Label)) : SourceMap :=
  rules.foldl (fun m rule => m.add rule.1 rule.2) {}

/-- What the replacement of a beginning and the rest of a name make; the replacement must be a
text. -/
def replaced (rest : String) : Label → Outcome String
  | .spelled replacement => .ok (replacement.plain ++ rest)
  | _ => .error .wrongShape

variable {rules others : List (String × Label)}

theorem ofRules_eq (rules : List (String × Label)) :
    ofRules rules = { rules := OrderedMap.ofList rules } := by
  induction rules using List.reverseRecOn with
  | nil => rfl
  | append_singleton rules rule ih =>
    rw [ofRules] at ih ⊢
    rw [List.foldl_append, ih, OrderedMap.ofList_concat]
    rfl

theorem longestRule?_ofRules {replacement : Label} :
    (ofRules rules).longestRule? name = some (start, replacement) ↔
      LongestFit (rules.map Prod.fst) name start ∧
        OrderedMap.lastPut? rules start = some replacement := by
  rw [ofRules_eq, longestRule?_eq_some_iff (OrderedMap.nodup_keys_ofList rules),
    OrderedMap.get?_ofList, longestFit_congr fun _ => OrderedMap.mem_keys_ofList]

theorem longestRule?_ofRules_eq_none_iff :
    (ofRules rules).longestRule? name = none ↔ ∀ start ∈ rules.map Prod.fst, ¬Fits name start := by
  rw [ofRules_eq, longestRule?_eq_none_iff]
  exact forall_congr' fun _ => imp_congr_left OrderedMap.mem_keys_ofList

/-- A name without a beginning that fits stays as it is. -/
theorem fileName_of_not_fits {span : Span}
    (h : ∀ start ∈ rules.map Prod.fst, ¬Fits span.file start) :
    (ofRules rules).fileName span = .ok span.file := by
  rw [fileName, longestRule?_ofRules_eq_none_iff.2 h, ofRules_eq]
  rfl

/-- The longest beginning that fits a name is replaced. -/
theorem fileName_of_longestFit {span : Span} {rest : String} {replacement : Label}
    (h : LongestFit (rules.map Prod.fst) span.file start) (hrest : span.file = start ++ rest)
    (hlast : OrderedMap.lastPut? rules start = some replacement) :
    (ofRules rules).fileName span = replaced rest replacement := by
  have hdrop : String.ofList (span.file.toList.drop start.length) = rest := by
    rw [hrest, String.toList_append, ← String.length_toList, List.drop_left, String.ofList_toList]
  rw [fileName, longestRule?_ofRules.2 ⟨h, hlast⟩, ofRules_eq]
  cases replacement with
  | spelled text => exact congrArg (fun rest => Except.ok (text.plain ++ rest)) hdrop
  | null | bool | integer | number | array | object => rfl

/-- A look-up depends on the rule that it finds alone. -/
theorem fileName_congr {span : Span}
    (h : ∀ start replacement, (ofRules rules).longestRule? span.file = some (start, replacement) ↔
      (ofRules others).longestRule? span.file = some (start, replacement)) :
    (ofRules rules).fileName span = (ofRules others).fileName span := by
  have hsame : (ofRules rules).longestRule? span.file = (ofRules others).longestRule? span.file :=
    Option.ext fun ⟨start, replacement⟩ => h start replacement
  rw [fileName, fileName, hsame, ofRules_eq, ofRules_eq]

/-- Rules with the same last replacements do the same. -/
theorem fileName_of_lastPut {span : Span}
    (h : ∀ start, OrderedMap.lastPut? rules start = OrderedMap.lastPut? others start) :
    (ofRules rules).fileName span = (ofRules others).fileName span := by
  have hstarts : ∀ start, start ∈ rules.map Prod.fst ↔ start ∈ others.map Prod.fst := by
    intro start
    rw [OrderedMap.mem_keys_iff_lastPut?, h start, ← OrderedMap.mem_keys_iff_lastPut?]
  refine fileName_congr fun start replacement => ?_
  rw [longestRule?_ofRules, longestRule?_ofRules, h start, longestFit_congr hstarts]

/-- A rule that is idle for a name changes nothing about it. -/
theorem fileName_add_of_idle {span : Span} {idle : String}
    (hidle : Idle (rules.map Prod.fst) span.file idle) (replacement : Label) :
    ((ofRules rules).add idle replacement).fileName span = (ofRules rules).fileName span := by
  have hadd : (ofRules rules).add idle replacement = ofRules (rules ++ [(idle, replacement)]) := by
    rw [ofRules, ofRules, List.foldl_append]
    rfl
  rw [hadd]
  refine fileName_congr fun start other => ?_
  rw [longestRule?_ofRules, longestRule?_ofRules, List.map_append, List.map_singleton,
    longestFit_concat hidle]
  refine and_congr_right fun hlongest => ?_
  rw [OrderedMap.lastPut?_concat, if_neg (Ne.symm (hlongest.ne_of_idle hidle))]

/-- What a source map makes of the name of a file, whatever rules have been added to it.  Where no
beginning fits, the name stays as it is; otherwise the longest that fits is replaced, once, by what
was given for it last.  The order between rules for different beginnings does not matter, and a rule
changes nothing if its beginning does not fit or is shorter than the longest that does. -/
theorem replaces_longest (rules : List (String × Label)) (span : Span) :
    ((∀ start ∈ rules.map Prod.fst, ¬Fits span.file start) ∧
          (ofRules rules).fileName span = .ok span.file ∨
        ∃ start rest replacement, LongestFit (rules.map Prod.fst) span.file start ∧
          span.file = start ++ rest ∧ OrderedMap.lastPut? rules start = some replacement ∧
          (ofRules rules).fileName span = replaced rest replacement) ∧
      (∀ others : List (String × Label),
        (∀ start, (others.filter fun rule => rule.1 = start) =
          rules.filter fun rule => rule.1 = start) →
        (ofRules others).fileName span = (ofRules rules).fileName span) ∧
      ∀ (idle : String) (replacement : Label), Idle (rules.map Prod.fst) span.file idle →
        ((ofRules rules).add idle replacement).fileName span = (ofRules rules).fileName span := by
  refine ⟨?_, fun others horder => ?_, fun idle replacement hidle =>
    fileName_add_of_idle hidle replacement⟩
  · cases hrule : (ofRules rules).longestRule? span.file with
    | none =>
      have hnot := longestRule?_ofRules_eq_none_iff.1 hrule
      exact .inl ⟨hnot, fileName_of_not_fits hnot⟩
    | some rule =>
      obtain ⟨start, replacement⟩ := rule
      obtain ⟨hlongest, hlast⟩ := longestRule?_ofRules.1 hrule
      obtain ⟨rest, hrest⟩ := hlongest.fits.exists_rest
      exact .inr ⟨start, rest, replacement, hlongest, hrest, hlast,
        fileName_of_longestFit hlongest hrest hlast⟩
  · refine fileName_of_lastPut fun start => ?_
    rw [OrderedMap.lastPut?, OrderedMap.lastPut?, horder start]

/-- Rules for a directory, a part of it and everything, one of them given twice. -/
def nestedRules : List (String × Label) :=
  [("/w/", .string "A/"), ("", .string "E:"), ("/w/src", .string "S"), ("/w/", .string "/w/src")]

/-- The same, in another order. -/
def nestedRulesAside : List (String × Label) :=
  [("/w/src", .string "S"), ("/w/", .string "A/"), ("/w/", .string "/w/src"), ("", .string "E:")]

/-- A file below the directory alone gets its last replacement, which is not replaced again; a rule
for less than the directory makes no difference. -/
theorem replaces_longest_nested :
    (∀ start, (nestedRulesAside.filter fun rule => rule.1 = start) =
        nestedRules.filter fun rule => rule.1 = start) ∧
      Idle (nestedRules.map Prod.fst) "/w/lib" "/w" ∧
      (ofRules nestedRulesAside).fileName ⟨"/w/lib", 1, 1, 1, 1⟩ = .ok "/w/srclib" ∧
      ((ofRules nestedRules).add "/w" (.string "B")).fileName ⟨"/w/lib", 1, 1, 1, 1⟩ =
        .ok "/w/srclib" := by
  have horder : ∀ start, (nestedRulesAside.filter fun rule => rule.1 = start) =
      nestedRules.filter fun rule => rule.1 = start := by
    intro start
    by_cases hdirectory : "/w/" = start
    · subst hdirectory
      rfl
    by_cases hpart : "/w/src" = start
    · subst hpart
      rfl
    by_cases hall : "" = start
    · subst hall
      rfl
    simp [nestedRules, nestedRulesAside, hdirectory, hpart, hall]
  have hidle : Idle (nestedRules.map Prod.fst) "/w/lib" "/w" := by
    refine .inr ⟨"/w/", by simp [nestedRules], ?_, by decide⟩
    exact ⟨"lib".toList, by decide⟩
  obtain ⟨-, hothers, hadd⟩ := replaces_longest nestedRules ⟨"/w/lib", 1, 1, 1, 1⟩
  have hname : (ofRules nestedRules).fileName ⟨"/w/lib", 1, 1, 1, 1⟩ = .ok "/w/srclib" := by
    with_unfolding_all rfl
  exact ⟨horder, hidle, (hothers _ horder).trans hname, (hadd _ _ hidle).trans hname⟩

end MirListing.SourceMap
