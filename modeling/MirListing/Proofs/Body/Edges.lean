import MirListing.Body.Terminator
import MirListing.Proofs.Listing.Failing
import MirListing.Proofs.Text.Numerals

/-!
# Edges in the written form

The written form of a terminator ends in its edges: nothing if there are none, the target of a lone
edge, and the roles and targets of several edges between brackets.  Whether there are none, one or
more is seen at once (`withEdges_cases`), and a target ends where a comma or a bracket comes, so
edges with the same roles are known from the form (`eq_of_withEdges_eq`).

The roles follow from the kind and the number of edges, with one exception.  A call that only
returns and one that only unwinds have a lone edge each, and a lone edge is written without its
role.  So two terminators that differ in their targets alone are written alike if their edges are
the same, or if they are two such calls with one target (`describe_eq_iff_edges`).
-/

namespace MirListing.TerminatorKind

/-! ## Written edges -/

/-- An edge between brackets. -/
def edgeText (edge : String × Int) : String := edge.1 ++ ": " ++ targetText edge.2

/-- What stands behind the opening bracket of several edges. -/
def edgesText (edges : List (String × Int)) : String := ", ".intercalate (edges.map edgeText) ++ "]"

/-- What stands behind an edge, given those that come next. -/
def behindEdge : List (String × Int) → String
  | [] => "]"
  | rest => ", " ++ edgesText rest

theorem targetText_inj {target target' : Int} (h : targetText target = targetText target') :
    target = target' :=
  Text.decimal_inj ((String.append_right_inj "bb").1 h)

theorem edgesText_cons (role : String) (target : Int) (rest : List (String × Int)) :
    edgesText ((role, target) :: rest) =
      role ++ ": bb" ++ (Text.decimal target ++ behindEdge rest) := by
  have hcolon : ": bb" = ": " ++ "bb" := rfl
  cases rest with
  | nil =>
    simp only [edgesText, edgeText, targetText, behindEdge, List.map_cons, List.map_nil,
      String.intercalate_singleton, String.append_assoc, hcolon]
  | cons edge rest =>
    simp only [edgesText, edgeText, targetText, behindEdge, List.map_cons,
      String.intercalate_cons_cons, String.append_assoc, hcolon]

/-- No target goes on behind its edge. -/
theorem not_isNumeral_behindEdge (rest : List (String × Int)) :
    ∀ c ∈ (behindEdge rest).toList.head?, ¬Text.IsNumeral c := by
  have hfirst : (behindEdge rest).toList.head? = some ']' ∨
      (behindEdge rest).toList.head? = some ',' := by
    cases rest with
    | nil => exact .inl rfl
    | cons edge rest =>
      right
      rw [behindEdge, String.toList_append]
      · rfl
      · exact nofun
  intro c hc
  rcases hfirst with heq | heq <;> rw [heq] at hc <;> obtain rfl := Option.some.inj hc <;>
    simp [Text.IsNumeral]

/-- Several edges are known from their form if their roles are. -/
theorem eq_of_edgesText_eq {edges edges' : List (String × Int)}
    (hroles : edges.map Prod.fst = edges'.map Prod.fst) (h : edgesText edges = edgesText edges') :
    edges = edges' := by
  induction edges generalizing edges' with
  | nil => exact (List.map_eq_nil_iff.1 hroles.symm).symm
  | cons edge rest ih =>
    obtain ⟨role, target⟩ := edge
    cases edges' with
    | nil => cases hroles
    | cons edge' rest' =>
      obtain ⟨role', target'⟩ := edge'
      obtain ⟨rfl, hrest⟩ := List.cons.inj hroles
      rw [edgesText_cons, edgesText_cons, String.append_right_inj] at h
      obtain ⟨rfl, hbehind⟩ := Text.decimal_append_inj (not_isNumeral_behindEdge rest)
        (not_isNumeral_behindEdge rest') h
      cases rest with
      | nil => rw [List.map_eq_nil_iff.1 hrest.symm]
      | cons edge rest =>
        cases rest' with
        | nil => cases hrest
        | cons edge' rest' =>
          have hsame := (String.append_right_inj ", ").1 hbehind
          rw [ih hrest hsame]

/-! ## Forms of none, one and several -/

/-- What stands behind a head. -/
def behindHead : List (String × Int) → String
  | [] => ""
  | [(_, target)] => " -> " ++ targetText target
  | edges => " -> [" ++ edgesText edges

theorem withEdges_eq (head : String) (edges : List (String × Int)) :
    withEdges head edges = head ++ behindHead edges := by
  match edges with
  | [] => exact String.append_empty.symm
  | [_] => exact String.append_assoc ..
  | edge :: edge' :: rest =>
    calc
      withEdges head (edge :: edge' :: rest)
        = head ++ " -> [" ++ ", ".intercalate ((edge :: edge' :: rest).map edgeText) ++ "]" := rfl
      _ = head ++ behindHead (edge :: edge' :: rest) := by
        simp only [behindHead, edgesText, String.append_assoc]

/-- What two lists of edges have in common if they are written alike behind one head. -/
theorem withEdges_cases {head : String} {edges edges' : List (String × Int)}
    (h : withEdges head edges = withEdges head edges') :
    (edges = [] ∧ edges' = []) ∨
      (∃ role role' target, edges = [(role, target)] ∧ edges' = [(role', target)]) ∨
      (2 ≤ edges.length ∧ 2 ≤ edges'.length ∧ edgesText edges = edgesText edges') := by
  rw [withEdges_eq, withEdges_eq, String.append_right_inj] at h
  have hchars := congrArg String.toList h
  match edges, edges' with
  | [], [] => exact .inl ⟨rfl, rfl⟩
  | [(role, target)], [(role', target')] =>
    obtain rfl := targetText_inj ((String.append_right_inj " -> ").1 h)
    exact .inr (.inl ⟨role, role', target, rfl, rfl⟩)
  | _ :: _ :: _, _ :: _ :: _ =>
    have htext := (String.append_right_inj " -> [").1 h
    exact .inr (.inr ⟨Nat.le_add_left .., Nat.le_add_left .., htext⟩)
  -- an arrow follows the head or not, and a bracket follows the arrow or not
  | [], [_] | [], _ :: _ :: _ | [_], [] | [_], _ :: _ :: _ | _ :: _ :: _, [] | _ :: _ :: _, [_] =>
    simp [behindHead, targetText] at hchars

/-- A lone edge shows its target. -/
theorem target_eq_of_withEdges_eq {head role role' : String} {target target' : Int}
    (h : withEdges head [(role, target)] = withEdges head [(role', target')]) :
    target = target' := by
  rw [withEdges_eq, withEdges_eq, String.append_right_inj] at h
  exact targetText_inj ((String.append_right_inj " -> ").1 h)

/-- Two edges at most are as many as the form shows. -/
theorem length_eq_of_withEdges_eq {head : String} {edges edges' : List (String × Int)}
    (h : withEdges head edges = withEdges head edges') (hle : edges.length ≤ 2)
    (hle' : edges'.length ≤ 2) : edges.length = edges'.length := by
  obtain ⟨rfl, rfl⟩ | ⟨_, _, _, rfl, rfl⟩ | ⟨hmany, hmany', -⟩ := withEdges_cases h
  · rfl
  · rfl
  · omega

/-- Edges with the same roles are known from the form. -/
theorem eq_of_withEdges_eq {head : String} {edges edges' : List (String × Int)}
    (hroles : edges.map Prod.fst = edges'.map Prod.fst)
    (h : withEdges head edges = withEdges head edges') : edges = edges' := by
  obtain ⟨rfl, rfl⟩ | ⟨role, role', target, rfl, rfl⟩ | ⟨-, -, htext⟩ := withEdges_cases h
  · rfl
  · obtain ⟨rfl, -⟩ := List.cons.inj hroles
    rfl
  · exact eq_of_edgesText_eq hroles htext

/-! ## Terminators that differ in their targets -/

/-- Terminators of one kind that differ in their targets alone, or in having them. -/
inductive SameButTargets : TerminatorKind → TerminatorKind → Prop
  | goto {target target' : Int} : SameButTargets (.goto target) (.goto target')
  | switchInt {scrutinee : Operand} {ty : Ty} {branches branches' : List (Int × Int)}
      {otherwise otherwise' : Int} : branches.map Prod.fst = branches'.map Prod.fst →
      SameButTargets (.switchInt scrutinee ty branches otherwise)
        (.switchInt scrutinee ty branches' otherwise')
  | resume : SameButTargets .resume .resume
  | abort : SameButTargets .abort .abort
  | return : SameButTargets .return .return
  | unreachable : SameButTargets .unreachable .unreachable
  | generatorDrop : SameButTargets .generatorDrop .generatorDrop
  | drop {place : Place} {target target' : Int} {unwind unwind' : Option Int} :
      SameButTargets (.drop place target unwind) (.drop place target' unwind')
  | dropAndReplace {place : Place} {value : Operand} {target target' : Int}
      {unwind unwind' : Option Int} :
      SameButTargets (.dropAndReplace place value target unwind)
        (.dropAndReplace place value target' unwind')
  | call {function : Operand} {arguments : List Operand} {destination : Option Place}
      {target target' cleanup cleanup' : Option Int} :
      SameButTargets (.call function arguments destination target cleanup)
        (.call function arguments destination target' cleanup')
  | assert {condition : Operand} {expected : Bool} {message : Label} {target target' : Int}
      {cleanup cleanup' : Option Int} :
      SameButTargets (.assert condition expected message target cleanup)
        (.assert condition expected message target' cleanup')
  | yield {value : Operand} {next next' : Int} {resumeArgument : Place}
      {dropped dropped' : Option Int} :
      SameButTargets (.yield value next resumeArgument dropped)
        (.yield value next' resumeArgument dropped')
  | falseEdges {realTarget realTarget' imaginaryTarget imaginaryTarget' : Int} :
      SameButTargets (.falseEdges realTarget imaginaryTarget)
        (.falseEdges realTarget' imaginaryTarget')
  | falseUnwind {realTarget realTarget' : Int} {unwind unwind' : Option Int} :
      SameButTargets (.falseUnwind realTarget unwind) (.falseUnwind realTarget' unwind')

/-- One call that goes on only where it returns, and only where it unwinds. -/
inductive ReturnsOrUnwinds : TerminatorKind → TerminatorKind → Prop
  | mk {function : Operand} {arguments : List Operand} {destination : Option Place} {target : Int} :
      ReturnsOrUnwinds (.call function arguments destination (some target) none)
        (.call function arguments destination none (some target))

variable {a b : TerminatorKind}

/-- The head does not depend on the targets. -/
theorem SameButTargets.head_eq (h : SameButTargets a b) : a.head = b.head := by
  cases h <;> rfl

/-- A switch has the roles of its numbers, and that of all others. -/
theorem roles_switchInt {scrutinee : Operand} {ty : Ty} {branches : List (Int × Int)}
    {otherwise : Int} {edges : List (String × Int)}
    (h : (switchInt scrutinee ty branches otherwise).successors = .ok edges) :
    ∃ roles, (branches.map Prod.fst).mapM (valueRole ty) = .ok roles ∧
      edges.map Prod.fst = roles ++ ["otherwise"] := by
  obtain ⟨taken, htaken, hedges⟩ := bind_eq_ok_iff.1 h
  obtain rfl := Except.ok.inj hedges
  have hroles : branches.mapM (fun branch => valueRole ty branch.1) = .ok (taken.map Prod.fst) := by
    refine mapM_map_of_mapM (fun branch edge hedge => ?_) htaken
    obtain ⟨role, hrole, heq⟩ := bind_eq_ok_iff.1 hedge
    obtain rfl := Except.ok.inj heq
    exact hrole
  refine ⟨taken.map Prod.fst, ?_, by simp⟩
  rw [List.mapM_map]
  exact hroles

theorem length_optionalEdge_le (role : String) (edge : Option Int) :
    (optionalEdge role edge).length ≤ 1 := by
  cases edge <;> simp [optionalEdge]

/-- An edge that may be absent is there if the form shows it. -/
theorem roles_optionalEdge {head first role : String} {target target' : Int}
    {last last' : Option Int}
    (h : withEdges head ((first, target) :: optionalEdge role last) =
      withEdges head ((first, target') :: optionalEdge role last')) :
    ((first, target) :: optionalEdge role last).map Prod.fst =
      ((first, target') :: optionalEdge role last').map Prod.fst := by
  have hlength := length_eq_of_withEdges_eq h (Nat.succ_le_succ (length_optionalEdge_le role last))
    (Nat.succ_le_succ (length_optionalEdge_le role last'))
  cases last with
  | none =>
    cases last' with
    | none => rfl
    | some => cases hlength
  | some =>
    cases last' with
    | none => cases hlength
    | some => rfl

/-- Calls with as many edges have the same roles, or a lone edge each. -/
theorem roles_call {head : String} {function : Operand} {arguments : List Operand}
    {destination : Option Place} {target target' cleanup cleanup' : Option Int}
    (h : withEdges head (optionalEdge "return" target ++ optionalEdge "unwind" cleanup) =
      withEdges head (optionalEdge "return" target' ++ optionalEdge "unwind" cleanup')) :
    (optionalEdge "return" target ++ optionalEdge "unwind" cleanup).map Prod.fst =
        (optionalEdge "return" target' ++ optionalEdge "unwind" cleanup').map Prod.fst ∨
      ReturnsOrUnwinds (.call function arguments destination target cleanup)
        (.call function arguments destination target' cleanup') ∨
      ReturnsOrUnwinds (.call function arguments destination target' cleanup')
        (.call function arguments destination target cleanup) := by
  have hle : ∀ edge edge' : Option Int,
      (optionalEdge "return" edge ++ optionalEdge "unwind" edge').length ≤ 2 := by
    intro edge edge'
    rw [List.length_append]
    exact Nat.add_le_add (length_optionalEdge_le _ edge) (length_optionalEdge_le _ edge')
  have hlength := length_eq_of_withEdges_eq h (hle target cleanup) (hle target' cleanup')
  match target, cleanup, target', cleanup' with
  | none, none, none, none | some _, none, some _, none | none, some _, none, some _
  | some _, some _, some _, some _ => exact .inl rfl
  | some target, none, none, some cleanup' =>
    obtain rfl := target_eq_of_withEdges_eq h
    exact .inr (.inl .mk)
  | none, some cleanup, some target', none =>
    obtain rfl := target_eq_of_withEdges_eq h
    exact .inr (.inr .mk)
  | none, none, some _, _ | none, none, _, some _ | some _, _, none, none | _, some _, none, none
  | some _, some _, some _, none | some _, some _, none, some _ | some _, none, some _, some _
  | none, some _, some _, some _ => simp [optionalEdge] at hlength

/-- Terminators that differ in their targets alone and are written alike have the same roles, or are
calls with a lone edge each. -/
theorem SameButTargets.roles_eq (h : SameButTargets a b) {head : String}
    {edges edges' : List (String × Int)} (ha : a.successors = .ok edges)
    (hb : b.successors = .ok edges') (htext : withEdges head edges = withEdges head edges') :
    edges.map Prod.fst = edges'.map Prod.fst ∨ ReturnsOrUnwinds a b ∨ ReturnsOrUnwinds b a := by
  cases h with
  | switchInt hvalues =>
    left
    obtain ⟨roles, hroles, heq⟩ := roles_switchInt ha
    obtain ⟨roles', hroles', heq'⟩ := roles_switchInt hb
    rw [hvalues, hroles'] at hroles
    rw [heq, heq', Except.ok.inj hroles]
  | call =>
    obtain rfl := Except.ok.inj ha
    obtain rfl := Except.ok.inj hb
    exact roles_call htext
  | drop | dropAndReplace | yield | falseUnwind =>
    obtain rfl := Except.ok.inj ha
    obtain rfl := Except.ok.inj hb
    exact .inl (roles_optionalEdge htext)
  | @assert _ _ _ _ _ cleanup cleanup' =>
    left
    cases cleanup <;> cases cleanup' <;> obtain rfl := Except.ok.inj ha <;>
      obtain rfl := Except.ok.inj hb
    · rfl
    · cases length_eq_of_withEdges_eq htext (by simp) (by simp)
    · cases length_eq_of_withEdges_eq htext (by simp) (by simp)
    · rfl
  | goto | resume | abort | «return» | unreachable | generatorDrop | falseEdges =>
    obtain rfl := Except.ok.inj ha
    obtain rfl := Except.ok.inj hb
    exact .inl rfl

theorem describe_eq_ok_iff {kind : TerminatorKind} {text : String} :
    kind.describe = .ok text ↔
      ∃ head edges, kind.head = .ok head ∧ kind.successors = .ok edges ∧
        withEdges head edges = text := by
  rw [describe, bind_eq_ok_iff]
  constructor
  · rintro ⟨head, hhead, hrest⟩
    obtain ⟨edges, hedges, htext⟩ := bind_eq_ok_iff.1 hrest
    exact ⟨head, edges, hhead, hedges, Except.ok.inj htext⟩
  · rintro ⟨head, edges, hhead, hedges, htext⟩
    exact ⟨head, hhead, bind_eq_ok_iff.2 ⟨edges, hedges, congrArg Except.ok htext⟩⟩

/-- Calls with a lone edge each are written alike. -/
theorem ReturnsOrUnwinds.describe_eq (h : ReturnsOrUnwinds a b) : a.describe = b.describe := by
  cases h
  rfl

/-- Of two terminators that differ in their targets alone, the written forms are the same just if
the edges are, with their roles and targets, or if both are one call, which only returns here and
only unwinds there, to one target. -/
theorem describe_eq_iff_edges (h : SameButTargets a b) {text : String}
    (ha : a.describe = .ok text) :
    ∃ edges, a.successors = .ok edges ∧
      (b.describe = .ok text ↔
        b.successors = .ok edges ∨ ReturnsOrUnwinds a b ∨ ReturnsOrUnwinds b a) := by
  obtain ⟨head, edges, hhead, hedges, htext⟩ := describe_eq_ok_iff.1 ha
  refine ⟨edges, hedges, ?_, ?_⟩
  · intro hb
    obtain ⟨head', edges', hhead', hedges', htext'⟩ := describe_eq_ok_iff.1 hb
    rw [← h.head_eq, hhead] at hhead'
    obtain rfl := Except.ok.inj hhead'
    have hsame := htext.trans htext'.symm
    rcases h.roles_eq hedges hedges' hsame with hroles | hcalls
    · rw [hedges', eq_of_withEdges_eq hroles hsame]
      exact .inl rfl
    · exact .inr hcalls
  · rintro (hb | hcalls | hcalls)
    · exact describe_eq_ok_iff.2 ⟨head, edges, h.head_eq ▸ hhead, hb, htext⟩
    · rw [← hcalls.describe_eq, ha]
    · rw [hcalls.describe_eq, ha]

/-- A switch over a byte. -/
def byteSwitch (second : Int) : TerminatorKind :=
  .switchInt (.copy ⟨1, []⟩) (.named "u8") [(0, 1), (1, second)] 3

theorem describe_eq_iff_edges_byteSwitch :
    SameButTargets (byteSwitch 2) (byteSwitch 22) ∧
      (byteSwitch 2).describe = .ok "switchInt(_1) -> [0_u8: bb1, 1_u8: bb2, otherwise: bb3]" ∧
      (byteSwitch 22).describe ≠ .ok "switchInt(_1) -> [0_u8: bb1, 1_u8: bb2, otherwise: bb3]" := by
  have hsame : SameButTargets (byteSwitch 2) (byteSwitch 22) := .switchInt rfl
  have htext : (byteSwitch 2).describe =
      .ok "switchInt(_1) -> [0_u8: bb1, 1_u8: bb2, otherwise: bb3]" := by rfl
  obtain ⟨edges, hedges, hiff⟩ := describe_eq_iff_edges hsame htext
  refine ⟨hsame, htext, fun h => ?_⟩
  have hfirst : (byteSwitch 2).successors =
      .ok [("0_u8", 1), ("1_u8", 2), ("otherwise", 3)] := by rfl
  have hsecond : (byteSwitch 22).successors =
      .ok [("0_u8", 1), ("1_u8", 22), ("otherwise", 3)] := by rfl
  rcases hiff.1 h with hother | hcalls | hcalls
  · rw [← hedges, hfirst, hsecond] at hother
    simp at hother
  · cases hcalls
  · cases hcalls

/-- A call of a local that only returns, and one that only unwinds, are written alike, but their
edges have different roles. -/
theorem not_edges_of_describe_loneCalls :
    SameButTargets (.call (.copy ⟨1, []⟩) [] none (some 2) none)
        (.call (.copy ⟨1, []⟩) [] none none (some 2)) ∧
      (call (.copy ⟨1, []⟩) [] none (some 2) none).describe = .ok "_1() -> bb2" ∧
      (call (.copy ⟨1, []⟩) [] none none (some 2)).describe = .ok "_1() -> bb2" ∧
      (call (.copy ⟨1, []⟩) [] none (some 2) none).successors = .ok [("return", 2)] ∧
      (call (.copy ⟨1, []⟩) [] none none (some 2)).successors = .ok [("unwind", 2)] := by
  exact ⟨.call, rfl, rfl, rfl, rfl⟩

end MirListing.TerminatorKind
