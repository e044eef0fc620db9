import Mathlib.Data.List.Forall2
import MirListing.Proofs.Listing.Failing
import MirListing.Proofs.Reading.Inside
import MirListing.Reader.Rvalue

/-!
# Operands in the written form of a computed value

Every kind of computed value writes its operands one after the other with something between them, so
the written forms of the operands occur in the whole in order, and none overlaps another
(`OccurInOrder`).  The operands stand in the order in which they were read
(`Rvalue.operands_of_read`).

A structure with named fields is the exception: it pairs names with operands, and nothing relates
their numbers.  An operand without a name is left out without a word (`Rvalue.describe_named`), so
the written form is that of a value with fewer operands.  This can happen only if there are fewer
names than operands (`Rvalue.LacksNames`).
-/

namespace MirListing

/-! ## Texts in a text -/

/-- Texts that occur in a text one after the other, none overlapping the next. -/
def OccurInOrder : List String → String → Prop
  | [], _ => True
  | part :: parts, text =>
      ∃ before after, text = before ++ part ++ after ∧ OccurInOrder parts after

namespace OccurInOrder

variable {parts others : List String} {text other : String}

theorem prepend (before : String) (h : OccurInOrder parts text) :
    OccurInOrder parts (before ++ text) := by
  cases parts with
  | nil => trivial
  | cons part rest =>
    obtain ⟨between, after, rfl, hafter⟩ := h
    exact ⟨before ++ between, after, by simp only [String.append_assoc], hafter⟩

/-- What occurs in a text and what occurs in the text behind it. -/
theorem append (h : OccurInOrder parts text) (hother : OccurInOrder others other) :
    OccurInOrder (parts ++ others) (text ++ other) := by
  induction parts generalizing text with
  | nil => exact hother.prepend text
  | cons part rest ih =>
    obtain ⟨before, after, rfl, hafter⟩ := h
    exact ⟨before, after ++ other, by simp only [String.append_assoc], ih hafter⟩

theorem within (h : OccurInOrder parts text) (after : String) :
    OccurInOrder parts (text ++ after) := by
  have hnothing : OccurInOrder [] after := trivial
  have hboth := h.append hnothing
  rwa [List.append_nil] at hboth

theorem self (text : String) : OccurInOrder [text] text :=
  ⟨"", "", by simp, trivial⟩

/-- A character of one of the texts is one of the whole. -/
theorem mem_toList (h : OccurInOrder parts text) {part : String} (hpart : part ∈ parts) {x : Char}
    (hx : x ∈ part.toList) : x ∈ text.toList := by
  induction parts generalizing text with
  | nil => cases hpart
  | cons first rest ih =>
    obtain ⟨before, after, rfl, hafter⟩ := h
    rw [String.toList_append, String.toList_append]
    obtain rfl | hrest := List.mem_cons.1 hpart
    · exact List.mem_append_left _ (List.mem_append_right _ hx)
    · exact List.mem_append_right _ (ih hafter hrest)

/-- Texts with something between them occur in the whole, also if each is only a part of what stands
there for it. -/
theorem intercalate {separator : String} {pieces : List String}
    (h : List.Forall₂ (fun part piece => OccurInOrder [part] piece) parts pieces) :
    OccurInOrder parts (separator.intercalate pieces) := by
  induction h with
  | nil => trivial
  | cons hfirst hrest ih =>
    cases hrest with
    | nil =>
      rw [String.intercalate_singleton]
      exact hfirst
    | cons =>
      rw [String.intercalate_cons_cons]
      exact (hfirst.within separator).append ih

end OccurInOrder

/-! ## Operands in a text -/

/-- The written forms of operands occur in a text, in order. -/
def Operand.ShownIn (operands : List Operand) (text : String) : Prop :=
  ∃ texts, operands.mapM describe = .ok texts ∧ OccurInOrder texts text

namespace Operand.ShownIn

variable {operands others : List Operand} {text other : String}

theorem nil (text : String) : ShownIn [] text := ⟨[], rfl, trivial⟩

theorem single {o : Operand} (h : o.describe = .ok text) : ShownIn [o] text := by
  refine ⟨[text], ?_, .self text⟩
  rw [List.mapM_cons, h]
  rfl

theorem prepend (before : String) (h : ShownIn operands text) :
    ShownIn operands (before ++ text) := by
  obtain ⟨texts, htexts, horder⟩ := h
  exact ⟨texts, htexts, horder.prepend before⟩

theorem within (h : ShownIn operands text) (after : String) : ShownIn operands (text ++ after) := by
  obtain ⟨texts, htexts, horder⟩ := h
  exact ⟨texts, htexts, horder.within after⟩

theorem append (h : ShownIn operands text) (hother : ShownIn others other) :
    ShownIn (operands ++ others) (text ++ other) := by
  obtain ⟨texts, htexts, horder⟩ := h
  obtain ⟨texts', htexts', horder'⟩ := hother
  refine ⟨texts ++ texts', ?_, horder.append horder'⟩
  rw [mapM_eq_ok_iff] at htexts htexts' ⊢
  rw [List.map_append, List.map_append, htexts, htexts']

theorem of_joined (h : joined operands = .ok text) : ShownIn operands text := by
  obtain ⟨texts, htexts, h⟩ := bind_eq_ok_iff.1 h
  cases h
  exact ⟨texts, htexts, .intercalate (List.forall₂_same.2 fun part _ => .self part)⟩

/-- What is shown in a part is shown in the whole. -/
theorem between {written : Outcome String} {before after : String}
    (hwritten : ∀ inner, written = .ok inner → ShownIn operands inner)
    (h : (do return before ++ (← written) ++ after : Outcome String) = .ok text) :
    ShownIn operands text := by
  obtain ⟨inner, hinner, h⟩ := bind_eq_ok_iff.1 h
  cases h
  exact ((hwritten inner hinner).prepend before).within after

end Operand.ShownIn

/-! ## Named fields -/

namespace AggregateKind

/-- An operand without a name is left out. -/
theorem namedFields_take (names : List Label) (operands : List Operand) :
    namedFields names (operands.take names.length) = namedFields names operands := by
  induction names generalizing operands with
  | nil => rfl
  | cons name rest ih =>
    cases operands with
    | nil => rfl
    | cons o others => rw [List.length_cons, List.take_succ_cons, namedFields, namedFields, ih]

/-- Each field shows its operand behind its name. -/
theorem forall₂_of_namedFields {names : List Label} {operands : List Operand} {fields : List String}
    (h : namedFields names operands = .ok fields) :
    ∃ texts, (operands.take names.length).mapM Operand.describe = .ok texts ∧
      List.Forall₂ (fun part piece => OccurInOrder [part] piece) texts fields := by
  induction names generalizing operands fields with
  | nil =>
    cases h
    exact ⟨[], rfl, .nil⟩
  | cons name rest ih =>
    cases operands with
    | nil =>
      cases h
      exact ⟨[], rfl, .nil⟩
    | cons o others =>
      simp only [namedFields, bind_eq_ok_iff] at h
      obtain ⟨text, ho, restFields, hrest, h⟩ := h
      cases h
      obtain ⟨texts, htexts, hfields⟩ := ih hrest
      refine ⟨text :: texts, ?_, .cons ((OccurInOrder.self text).prepend _) hfields⟩
      rw [List.length_cons, List.take_succ_cons, List.mapM_cons, ho, htexts]
      rfl

theorem shownIn_of_braced {head text : String} {operands : List Operand}
    (h : braced head operands = .ok text) : Operand.ShownIn operands text := by
  unfold braced at h
  split at h
  · rename_i hempty
    rw [List.isEmpty_iff.1 hempty]
    exact .nil text
  · exact .between (fun _ => .of_joined) h

/-- The operands that a form has room for: where fields have names, as many as there are names. -/
def named (operands : List Operand) : AggregateKind → List Operand
  | .adt _ _ (some names) _ => operands.take names.length
  | _ => operands

/-- There are fewer names of fields than operands. -/
def LacksNames (operands : List Operand) : AggregateKind → Prop
  | .adt _ _ (some names) _ => names.length < operands.length
  | _ => False

variable {kind : AggregateKind} {operands : List Operand}

/-- An operand without a name leaves no trace. -/
theorem describe_named (kind : AggregateKind) (operands : List Operand) :
    kind.describe (kind.named operands) = kind.describe operands := by
  unfold named
  split
  · rw [describe, describe, namedFields_take]
  · rfl

theorem named_of_not_lacksNames (h : ¬kind.LacksNames operands) :
    kind.named operands = operands := by
  unfold named
  split
  · exact List.take_of_length_le (Nat.not_lt.1 h)
  · rfl

theorem named_isPrefix (kind : AggregateKind) (operands : List Operand) :
    kind.named operands <+: operands := by
  unfold named
  split
  · exact List.take_prefix _ _
  · exact List.prefix_refl _

theorem length_named_lt (h : kind.LacksNames operands) :
    (kind.named operands).length < operands.length := by
  unfold LacksNames at h
  split at h
  · exact Nat.lt_of_le_of_lt (List.length_take_le _ _) h
  · exact h.elim

theorem shownIn_of_describe {text : String} (h : kind.describe operands = .ok text) :
    Operand.ShownIn (kind.named operands) text := by
  unfold describe at h
  split at h
  case h_1 => exact .between (fun _ => .of_joined) h
  case h_2 =>
    split at h
    · exact .between (fun _ => .single) h
    · exact .between (fun _ => .of_joined) h
  case h_3 =>
    simp only [bind_eq_ok_iff] at h
    obtain ⟨fields, hfields, h⟩ := h
    cases h
    obtain ⟨texts, htexts, horder⟩ := forall₂_of_namedFields hfields
    exact ⟨texts, htexts, ((OccurInOrder.intercalate horder).prepend _).within _⟩
  case h_4 =>
    split at h
    · rename_i hempty
      cases List.isEmpty_iff.1 hempty
      exact .nil text
    · exact .between (fun _ => .of_joined) h
  case h_5 | h_6 => exact shownIn_of_braced h

end AggregateKind

/-! ## Computed values -/

namespace Rvalue

/-- A value with only those operands that its form has room for. -/
def named : Rvalue → Rvalue
  | .aggregate kind operands => .aggregate kind (kind.named operands)
  | value => value

/-- There are fewer names of fields than operands. -/
def LacksNames : Rvalue → Prop
  | .aggregate kind operands => kind.LacksNames operands
  | _ => False

variable {value : Rvalue} {text : String}

theorem describe_named (value : Rvalue) : value.named.describe = value.describe := by
  cases value with
  | aggregate kind operands => exact kind.describe_named operands
  | _ => rfl

theorem named_of_not_lacksNames (h : ¬value.LacksNames) : value.named = value := by
  cases value with
  | aggregate kind operands =>
    exact congrArg (aggregate kind) (AggregateKind.named_of_not_lacksNames h)
  | _ => rfl

theorem operands_named_isPrefix (value : Rvalue) : value.named.operands <+: value.operands := by
  cases value with
  | aggregate kind operands => exact kind.named_isPrefix operands
  | _ => exact List.prefix_refl _

theorem length_operands_named_lt (h : value.LacksNames) :
    value.named.operands.length < value.operands.length := by
  cases value with
  | aggregate kind operands => exact AggregateKind.length_named_lt h
  | _ => exact h.elim

/-- Every written form shows the operands that it has room for. -/
theorem shownIn_of_describe (h : value.describe = .ok text) :
    Operand.ShownIn value.named.operands text := by
  cases value with
  | use operand => exact .single h
  | repeated operand count =>
    simp only [describe, bind_eq_ok_iff] at h
    obtain ⟨shown, hshown, h⟩ := h
    cases h
    exact ((((Operand.ShownIn.single hshown).prepend _).within _).within _).within _
  | ref | addressOf | len | discriminant | nullary => exact .nil text
  | cast operand ty kind =>
    simp only [describe, bind_eq_ok_iff] at h
    obtain ⟨shown, hshown, _, -, h⟩ := h
    cases h
    exact (((((Operand.ShownIn.single hshown).within _).within _).within _).within _).within _
  | unary op operand => exact .between (fun _ => .single) h
  | binary op left right | checkedBinary op left right =>
    simp only [describe, bind_eq_ok_iff] at h
    obtain ⟨first, hfirst, second, hsecond, h⟩ := h
    cases h
    exact ((((Operand.ShownIn.single hfirst).prepend _).within _).append (.single hsecond)).within _
  | aggregate kind operands => exact kind.shownIn_of_describe h

/-- The operands of a computed value as a document gives them, in the order in which they are
read. -/
def operandEntries (v : Value) : Outcome (List Value) := do
  let (kind, fields) ← v.tagged "rvalue"
  match kind with
  | .text "use" | .text "repeat" | .text "cast" | .text "unary_op" =>
      return [← fields.member "operand"]
  | .text "binary_op" | .text "checked_binary_op" =>
      let left ← fields.member "lhs"
      return [left, ← fields.member "rhs"]
  | .text "aggregate" => (fields.field "operands").elementsIfGiven
  | _ => .ok []

variable {names : Names} {v : Value}

theorem mapM_of_readOperand {fields : Fields} {name : String} {o : Operand}
    (h : readOperand names name fields = .ok o) :
    (do return [← fields.member name] : Outcome (List Value)) >>=
      List.mapM (Operand.read names) = .ok [o] := by
  obtain ⟨entry, hentry, ho⟩ := bind_eq_ok_iff.1 h
  rw [hentry]
  show List.mapM (Operand.read names) [entry] = _
  rw [List.mapM_cons, ho]
  rfl

theorem mapM_of_readBinary {fields : Fields} {op : BinaryOperator} {left right : Operand}
    (h : readBinary names fields = .ok (op, left, right)) :
    (do let left ← fields.member "lhs"
        return [left, ← fields.member "rhs"] : Outcome (List Value)) >>=
      List.mapM (Operand.read names) = .ok [left, right] := by
  simp only [readBinary, bind_eq_ok_iff] at h
  obtain ⟨_, -, _, -, first, hfirst, _, hleft, second, hsecond, _, hright, heq⟩ := h
  cases heq
  rw [hfirst, hsecond]
  show List.mapM (Operand.read names) [first, second] = _
  rw [List.mapM_cons, hleft, List.mapM_cons, hright]
  rfl

/-- The operands of a computed value stand in the order in which they were read. -/
theorem operands_of_read (h : Rvalue.read names v = .ok value) :
    operandEntries v >>= List.mapM (Operand.read names) = .ok value.operands := by
  obtain ⟨⟨kind, fields⟩, htagged, h⟩ := bind_eq_ok_iff.1 h
  rw [operandEntries, htagged]
  simp only at h
  split at h
  case h_1 =>
    simp only [bind_eq_ok_iff] at h
    obtain ⟨o, ho, heq⟩ := h
    cases heq
    exact mapM_of_readOperand ho
  case h_2 =>
    simp only [bind_eq_ok_iff] at h
    obtain ⟨o, ho, _, -, heq⟩ := h
    cases heq
    exact mapM_of_readOperand ho
  case h_3 | h_4 =>
    simp only [bind_eq_ok_iff] at h
    obtain ⟨_, -, _, -, heq⟩ := h
    cases heq
    rfl
  case h_5 | h_10 =>
    simp only [bind_eq_ok_iff] at h
    obtain ⟨_, -, heq⟩ := h
    cases heq
    rfl
  case h_6 =>
    simp only [bind_eq_ok_iff] at h
    obtain ⟨o, ho, _, -, _, -, heq⟩ := h
    cases heq
    exact mapM_of_readOperand ho
  case h_7 | h_8 =>
    simp only [bind_eq_ok_iff] at h
    obtain ⟨⟨op, left, right⟩, hoperands, heq⟩ := h
    cases heq
    exact mapM_of_readBinary hoperands
  case h_9 =>
    simp only [bind_eq_ok_iff] at h
    obtain ⟨_, -, _, -, o, ho, heq⟩ := h
    cases heq
    exact mapM_of_readOperand ho
  case h_11 =>
    simp only [bind_eq_ok_iff] at h
    obtain ⟨_, -, _, -, _, -, _, -, heq⟩ := h
    cases heq
    rfl
  case h_12 =>
    simp only [bind_eq_ok_iff] at h
    obtain ⟨_, -, _, -, operands, hoperands, heq⟩ := h
    cases heq
    exact hoperands
  case h_13 => cases h

/-- The operands of a computed value occur in its written form in the order in which they were read,
if no name of a field is missing.  Otherwise those without a name leave no trace: the written form
is that of the value without them, and shows the others in order. -/
theorem operands_occur_in_order (hread : Rvalue.read names v = .ok value)
    (h : value.describe = .ok text) :
    operandEntries v >>= List.mapM (Operand.read names) = .ok value.operands ∧
      (¬value.LacksNames → Operand.ShownIn value.operands text) ∧
      (value.LacksNames →
        value.named.operands <+: value.operands ∧
        value.named.operands.length < value.operands.length ∧
        value.named.describe = .ok text ∧ Operand.ShownIn value.named.operands text) := by
  refine ⟨operands_of_read hread, fun hnames => ?_, fun hlacks => ?_⟩
  · have hshown := shownIn_of_describe h
    rwa [named_of_not_lacksNames hnames] at hshown
  · exact ⟨operands_named_isPrefix value, length_operands_named_lt hlacks,
      (describe_named value).trans h, shownIn_of_describe h⟩

/-- A structure with two operands and the names of its fields, as a document states it. -/
def twoOperands (fieldNames : List String) : Value :=
  .object [(.text "kind", .string "aggregate"),
    (.text "aggregate", .object [(.text "kind", .string "adt"), (.text "path", .string "S"),
      (.text "fields", .array (fieldNames.map .string))]),
    (.text "operands", .array [
      .object [(.text "kind", .string "copy"), (.text "place", .string "_1")],
      .object [(.text "kind", .string "move"), (.text "place", .string "_2")]])]

/-- The same, read. -/
def twoFields (fieldNames : List String) : Rvalue :=
  .aggregate (.adt (.string "S") .null (some (fieldNames.map .string)) none)
    [.copy { slot := 1 }, .move { slot := 2 }]

theorem read_twoOperands (names : Names) (fieldNames : List String) :
    Rvalue.read names (twoOperands fieldNames) = .ok (twoFields fieldNames) := by rfl

/-- With a name for each, both operands are shown; with one name, the first is. -/
theorem operands_occur_in_order_of_two :
    Operand.ShownIn (twoFields ["a", "b"]).operands "S \x7b a: _1, b: move _2 \x7d" ∧
      Operand.ShownIn (twoFields ["a"]).named.operands "S \x7b a: _1 \x7d" := by
  have htwo : (twoFields ["a", "b"]).describe = .ok "S \x7b a: _1, b: move _2 \x7d" := by rfl
  have hone : (twoFields ["a"]).describe = .ok "S \x7b a: _1 \x7d" := by rfl
  have hnames : ¬(twoFields ["a", "b"]).LacksNames := show ¬2 < 2 by decide
  have hlacks : (twoFields ["a"]).LacksNames := show 1 < 2 by decide
  exact ⟨(operands_occur_in_order (read_twoOperands .none _) htwo).2.1 hnames,
    ((operands_occur_in_order (read_twoOperands .none _) hone).2.2 hlacks).2.2.2⟩

/-- With one name for two operands the second is read and not shown. -/
theorem operand_without_name_lost :
    Rvalue.read .none (twoOperands ["a"]) = .ok (twoFields ["a"]) ∧
      (twoFields ["a"]).describe = .ok "S \x7b a: _1 \x7d" ∧
      ¬Operand.ShownIn (twoFields ["a"]).operands "S \x7b a: _1 \x7d" := by
  refine ⟨read_twoOperands .none ["a"], by rfl, ?_⟩
  rintro ⟨texts, htexts, horder⟩
  have hdescribed :
      (twoFields ["a"]).operands.mapM Operand.describe = .ok ["_1", "move _2"] := by rfl
  obtain rfl := Except.ok.inj (hdescribed.symm.trans htexts)
  have hmem : 'v' ∈ "S \x7b a: _1 \x7d".toList :=
    horder.mem_toList (List.mem_cons_of_mem _ (List.mem_singleton_self "move _2")) (by decide)
  exact absurd hmem (by decide)

end Rvalue

end MirListing
