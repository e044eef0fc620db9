import Mathlib.Data.List.TakeWhile
import Mathlib.Data.Nat.Digits.Lemmas
import MirListing.Proofs.Lists
import MirListing.Text.Numeral

/-!
# Numerals in a text

The decimal form of an integer is made of digits and, at the front, a sign.  So different integers
have different forms, and a form can be told from what stands behind it unless that begins with a
character of a numeral (`decimal_append_inj`).

A text of decimal digits is read as the number that it writes, whatever scripts the digits are from,
unless there are more of them than the digit limit (`readInteger_of_isDecimal`).  So a natural
number is read back from its decimal form (`readInteger_repr`).

Hexadecimal digits write one number (`WritesHex.unique`), also behind padding zeros, and a number
that fits into the padded width has just so many digits (`length_hexPadded_of_lt`).
-/

namespace MirListing.Text

/-- The characters that a decimal form is made of. -/
def IsNumeral (c : Char) : Prop := c.isDigit = true ∨ c = '-'

theorem isDigit_of_mem_repr {n : Nat} {c : Char} (h : c ∈ n.repr.toList) : c.isDigit = true := by
  rw [Nat.toList_repr] at h
  exact Nat.isDigit_of_mem_toDigits (by decide) (by decide) h

theorem isNumeral_of_mem_decimal {n : Int} {c : Char} (h : c ∈ (decimal n).toList) :
    IsNumeral c := by
  cases n with
  | ofNat n => exact .inl (isDigit_of_mem_repr h)
  | negSucc n =>
    rw [decimal, String.toList_append, List.mem_append] at h
    rcases h with hsign | hdigit
    · exact .inr (List.mem_singleton.1 hsign)
    · exact .inl (isDigit_of_mem_repr hdigit)

theorem eq_of_repr_eq {m n : Nat} (h : m.repr = n.repr) : m = n := by
  have hdigits : Nat.toDigits 10 m = Nat.toDigits 10 n := by
    rw [← Nat.toList_repr, ← Nat.toList_repr, h]
  have hvalue := congrArg (fun digits => Nat.ofDigitChars 10 digits 0) hdigits
  simpa only [Nat.ofDigitChars_toDigits (b := 10) (by decide) (by decide)] using hvalue

/-- A form without a sign is not one with a sign. -/
theorem repr_ne_negative (m n : Nat) : m.repr ≠ "-" ++ n.repr := by
  intro h
  have hsign : '-' ∈ m.repr.toList := by
    rw [h, String.toList_append]
    exact List.mem_append_left _ List.mem_cons_self
  exact absurd (isDigit_of_mem_repr hsign) (by decide)

/-- Different integers are written differently. -/
theorem decimal_inj {m n : Int} (h : decimal m = decimal n) : m = n := by
  cases m with
  | ofNat m =>
    cases n with
    | ofNat n => rw [eq_of_repr_eq h]
    | negSucc n => exact absurd h (repr_ne_negative m (n + 1))
  | negSucc m =>
    cases n with
    | ofNat n => exact absurd h.symm (repr_ne_negative n (m + 1))
    | negSucc n =>
      have hnext := eq_of_repr_eq ((String.append_right_inj "-").1 h)
      rw [Nat.succ.inj hnext]

/-- A decimal form ends where a character comes that belongs to no numeral. -/
theorem decimal_append_inj {m n : Int} {rest rest' : String}
    (hrest : ∀ c ∈ rest.toList.head?, ¬IsNumeral c)
    (hrest' : ∀ c ∈ rest'.toList.head?, ¬IsNumeral c)
    (h : decimal m ++ rest = decimal n ++ rest') : m = n ∧ rest = rest' := by
  have hchars := congrArg String.toList h
  rw [String.toList_append, String.toList_append] at hchars
  obtain ⟨hnumber, hbehind⟩ := append_inj_of_run (fun _ hc => isNumeral_of_mem_decimal hc)
    (fun _ hc => isNumeral_of_mem_decimal hc) hrest hrest' hchars
  exact ⟨decimal_inj (String.toList_inj.1 hnumber), String.toList_inj.1 hbehind⟩

/-! ## Reading digits -/

/-- The value of a decimal digit; zero for any other character. -/
def digitValue (c : Char) : Nat := (decimalValue? c).getD 0

theorem decimalValue?_of_isDecimal {c : Char} (h : isDecimal c = true) :
    decimalValue? c = some (digitValue c) := by
  obtain ⟨value, hvalue⟩ := Option.isSome_iff_exists.1 h
  rw [digitValue, hvalue, Option.getD_some]

theorem digitValue_lt {c : Char} (h : isDecimal c = true) : digitValue c < 10 :=
  decimalValue?_lt (decimalValue?_of_isDecimal h)

theorem decimalValue?_of_isDigit {c : Char} (h : c.isDigit = true) :
    decimalValue? c = some (c.toNat - '0'.toNat) := by
  have hrange : 0x30 ≤ c.toNat ∧ c.toNat < 0x30 + 10 := by
    simp only [Char.isDigit, Bool.and_eq_true, decide_eq_true_eq, ge_iff_le,
      UInt32.le_iff_toNat_le] at h
    exact ⟨h.1, Nat.lt_succ_of_le h.2⟩
  rw [decimalValue?, zeros, List.find?_cons_of_pos (by simpa using hrange)]
  rfl

theorem isDecimal_of_isDigit {c : Char} (h : c.isDigit = true) : isDecimal c = true := by
  rw [isDecimal, decimalValue?_of_isDigit h]
  rfl

/-- A blank is no digit of any script. -/
theorem isDigit_of_isBlank {c : Char} (h : isBlank c = true) : isDigit c = false := by
  have hpoint : c.toNat ∈ [0x20, 0x09, 0x0a, 0x0b, 0x0c, 0x0d] ++ wideBlanks := by
    simp only [isBlank, isPlainBlank, Bool.or_eq_true, Bool.and_eq_true, beq_iff_eq,
      decide_eq_true_eq, List.contains_iff_mem] at h
    rw [List.mem_append]
    obtain (rfl | hcontrol) | hwide := h
    · exact .inl List.mem_cons_self
    · simp only [List.mem_cons]
      omega
    · exact .inr hwide
  rw [isDigit, isDecimal, decimalValue?]
  generalize c.toNat = point at hpoint
  revert point
  decide

theorem ofDigits_eq (digits : List Nat) : ofDigits digits = Nat.ofDigits 10 digits.reverse := by
  rw [ofDigits, Nat.ofDigits_eq_foldr, List.foldr_reverse]
  simp only [Nat.cast_id, Nat.add_comm]

theorem ungroup_of_isDecimal {text : List Char} (hne : text ≠ [])
    (h : ∀ c ∈ text, isDecimal c = true) : ungroup text = some (text.map digitValue) := by
  induction text with
  | nil => exact absurd rfl hne
  | cons c rest ih =>
    have hc := decimalValue?_of_isDecimal (h c List.mem_cons_self)
    cases rest with
    | nil =>
      rw [ungroup, hc]
      rfl
    | cons d rest =>
      have hd := h d (List.mem_cons_of_mem _ List.mem_cons_self)
      have hrest := ih (List.cons_ne_nil _ _) fun x hx => h x (List.mem_cons_of_mem _ hx)
      rw [ungroup, hc, hrest]
      · rfl
      · exact List.cons_ne_nil _ _
      · -- a digit is no underscore
        intro _ heq
        obtain ⟨rfl, -⟩ := List.cons.inj heq
        exact absurd hd (by decide)

/-- A text of digits has no blank and no sign in front. -/
theorem readInteger_of_digits {text : List Char} (h : ∀ c ∈ text, isDigit c = true) :
    readInteger text = (readUnsigned text).map fun n => (n : Int) := by
  have hdrop : text.dropWhile isBlank = text := by
    cases text with
    | nil => rfl
    | cons c rest =>
      refine List.dropWhile_cons_of_neg fun hblank => ?_
      exact Bool.false_ne_true ((isDigit_of_isBlank hblank).symm.trans (h c List.mem_cons_self))
  rw [readInteger, hdrop]
  split
  · exact absurd (h '-' List.mem_cons_self) (by decide)
  · exact absurd (h '+' List.mem_cons_self) (by decide)
  · rfl

/-- Decimal digits are read as the number that they write, if there are not too many. -/
theorem readInteger_of_isDecimal {text : List Char} (hne : text ≠ [])
    (h : ∀ c ∈ text, isDecimal c = true) :
    readInteger text =
      if digitLimit < text.length then .error (.tooLong text.length)
      else .ok (ofDigits (text.map digitValue) : Int) := by
  have hpart : ∀ c ∈ text, (isDecimal c || c == '_') = true := by
    intro c hc
    rw [h c hc, Bool.true_or]
  have htake := List.takeWhile_eq_self_iff.2 hpart
  have hdrop := List.dropWhile_eq_nil_iff.2 hpart
  rw [readInteger_of_digits fun c hc => isDigit_of_isDecimal (h c hc)]
  simp only [readUnsigned, htake, hdrop, ungroup_of_isDecimal hne h, List.length_map]
  split <;> rfl

/-- Digits that have been read are decimal ones. -/
theorem isDecimal_of_readInteger {text : List Char} {n : Int} (h : ∀ c ∈ text, isDigit c = true)
    (hread : readInteger text = .ok n) : ∀ c ∈ text, isDecimal c = true := by
  rw [readInteger_of_digits h] at hread
  have hblank : (text.dropWhile fun c => isDecimal c || c == '_').all isBlank = true := by
    simp only [readUnsigned] at hread
    split at hread
    · cases hread
    · split at hread
      · cases hread
      · split at hread
        · assumption
        · cases hread
  -- what stands behind the numeral is blank, and no digit is
  have hnothing : (text.dropWhile fun c => isDecimal c || c == '_') = [] := by
    refine List.eq_nil_iff_forall_not_mem.2 fun c hc => ?_
    have hdigit := h c (List.dropWhile_subset _ hc)
    have hno := isDigit_of_isBlank (List.all_eq_true.1 hblank c hc)
    exact Bool.false_ne_true (hno.symm.trans hdigit)
  intro c hc
  have hpart := List.dropWhile_eq_nil_iff.1 hnothing c hc
  rw [Bool.or_eq_true, beq_iff_eq] at hpart
  obtain hdecimal | rfl := hpart
  · exact hdecimal
  · exact absurd (h '_' hc) (by decide)

/-! ## Decimal forms that are read back -/

theorem isDecimal_of_mem_repr {n : Nat} {c : Char} (h : c ∈ n.repr.toList) : isDecimal c = true :=
  isDecimal_of_isDigit (isDigit_of_mem_repr h)

theorem toList_repr_ne_nil (n : Nat) : n.repr.toList ≠ [] := by
  rw [Nat.toList_repr]
  exact Nat.toDigits_ne_nil

theorem ofDigits_repr (n : Nat) : ofDigits (n.repr.toList.map digitValue) = n := by
  have hvalues : n.repr.toList.map digitValue = n.repr.toList.map fun c => c.toNat - '0'.toNat := by
    refine List.map_congr_left fun c hc => ?_
    rw [digitValue, decimalValue?_of_isDigit (isDigit_of_mem_repr hc), Option.getD_some]
  rw [hvalues, ofDigits, List.foldl_map, ← Nat.ofDigitChars_eq_foldl, Nat.toList_repr,
    Nat.ofDigitChars_ten_toDigits]

/-- A decimal form is read back, unless it has too many digits. -/
theorem readInteger_repr (n : Nat) :
    readInteger n.repr.toList =
      if digitLimit < n.repr.length then .error (.tooLong n.repr.length) else .ok (n : Int) := by
  rw [readInteger_of_isDecimal (toList_repr_ne_nil n) fun c hc => isDecimal_of_mem_repr hc,
    ofDigits_repr, String.length_toList]

theorem length_repr_le_iff {n k : Nat} (h : 0 < k) : n.repr.length ≤ k ↔ n < 10 ^ k := by
  rw [← String.length_toList, Nat.toList_repr, Nat.length_toDigits_le_iff (by decide) h]

/-- The decimal form of a number is no longer than any digits that write it. -/
theorem length_repr_ofDigits_le {text : List Char} (hne : text ≠ [])
    (h : ∀ c ∈ text, isDecimal c = true) :
    (ofDigits (text.map digitValue)).repr.length ≤ text.length := by
  have hdigits : ∀ d ∈ (text.map digitValue).reverse, d < 10 := by
    intro d hd
    obtain ⟨c, hc, rfl⟩ := List.mem_map.1 (List.mem_reverse.1 hd)
    exact digitValue_lt (h c hc)
  rw [length_repr_le_iff (List.length_pos_iff.2 hne), ofDigits_eq]
  simpa using Nat.ofDigits_lt_base_pow_length (by decide) hdigits

/-- Digits that write zero are zeros. -/
theorem digitValue_eq_zero {text : List Char} (h : ofDigits (text.map digitValue) = 0) :
    ∀ c ∈ text, digitValue c = 0 := by
  intro c hc
  rw [ofDigits_eq] at h
  exact Nat.digits_zero_of_eq_zero (by decide) h _ (List.mem_reverse.2 (List.mem_map_of_mem hc))

/-! ## The digit limit -/

/-- A number has no more digits than the limit. -/
def WithinLimit (n : Int) : Prop := n.natAbs < 10 ^ digitLimit

theorem withinLimit_of_lt {n : Int} (h : n.natAbs < 10 ^ 20) : WithinLimit n :=
  Nat.lt_of_lt_of_le h (Nat.pow_le_pow_right (by decide) (by decide))

/-- The limit is one for the digits of the decimal form. -/
theorem digitLimit_lt_iff {n : Nat} : digitLimit < n.repr.length ↔ ¬WithinLimit n := by
  rw [← Nat.not_le, length_repr_le_iff (by decide)]
  rfl

theorem decimalWithinLimit?_of_withinLimit {n : Int} (h : WithinLimit n) :
    decimalWithinLimit? n = some (decimal n) := by
  unfold WithinLimit at h
  simp only [decimalWithinLimit?, Nat.pow_eq, Nat.not_le.2 h, if_false]

theorem decimalWithinLimit?_of_not_withinLimit {n : Int} (h : ¬WithinLimit n) :
    decimalWithinLimit? n = none := by
  unfold WithinLimit at h
  simp only [decimalWithinLimit?, Nat.pow_eq, Nat.not_lt.1 h, if_true]

/-! ## Hexadecimal forms -/

/-- Lower-case hexadecimal digits that write a number. -/
def WritesHex (digits : List Char) (n : Nat) : Prop :=
  ∃ values : List Nat, digits = values.map Nat.digitChar ∧ (∀ value ∈ values, value < 16) ∧
    Nat.ofDigits 16 values.reverse = n

theorem eq_of_digitChar_eq {m n : Nat} (hm : m < 16) (hn : n < 16)
    (h : Nat.digitChar m = Nat.digitChar n) : m = n := by
  have hall : ∀ m < 16, ∀ n < 16, Nat.digitChar m = Nat.digitChar n → m = n := by
    decide
  exact hall m hm n hn h

/-- Digits write one number. -/
theorem WritesHex.unique {digits : List Char} {m n : Nat} (hm : WritesHex digits m)
    (hn : WritesHex digits n) : m = n := by
  obtain ⟨values, rfl, hvalues, rfl⟩ := hm
  obtain ⟨values', heq, hvalues', rfl⟩ := hn
  have hsame : values = values' :=
    eq_of_map_eq (fun d hd e he => eq_of_digitChar_eq (hvalues d hd) (hvalues' e he)) heq
  rw [hsame]

theorem writesHex_hexDigits (n : Nat) : WritesHex (hexDigits n) n := by
  induction n using Nat.strongRecOn with
  | ind n ih =>
    rw [hexDigits, Nat.toDigits_eq_if (by decide)]
    split
    · rename_i hsmall
      exact ⟨[n], rfl, by simpa using hsmall, by simp⟩
    · rename_i hlarge
      obtain ⟨values, hdigits, hvalues, hnumber⟩ := ih (n / 16) (by omega)
      refine ⟨values ++ [n % 16], ?_, ?_, ?_⟩
      · rw [List.map_append, ← hdigits]
        rfl
      · intro value hvalue
        obtain hfront | hlast := List.mem_append.1 hvalue
        · exact hvalues value hfront
        · rw [List.mem_singleton.1 hlast]
          exact Nat.mod_lt n (by decide)
      · rw [List.reverse_append, List.reverse_singleton, List.singleton_append, Nat.ofDigits_cons,
          hnumber]
        exact Nat.mod_add_div n 16

theorem writesHex_hexPadded (width n : Nat) : WritesHex (hexPadded width n) n := by
  obtain ⟨values, hdigits, hvalues, hnumber⟩ := writesHex_hexDigits n
  refine ⟨List.replicate (width - (hexDigits n).length) 0 ++ values, ?_, ?_, ?_⟩
  · rw [List.map_append, List.map_replicate, ← hdigits]
    rfl
  · intro value hvalue
    obtain hzero | hmem := List.mem_append.1 hvalue
    · rw [List.eq_of_mem_replicate hzero]
      decide
    · exact hvalues value hmem
  · rw [List.reverse_append, List.reverse_replicate, Nat.ofDigits_append_replicate_zero, hnumber]

theorem length_hexPadded_of_lt {width n : Nat} (hwidth : 0 < width) (h : n < 16 ^ width) :
    (hexPadded width n).length = width := by
  have hdigits := (Nat.length_toDigits_le_iff (by decide) hwidth).2 h
  rw [length_hexPadded]
  exact Nat.max_eq_left hdigits

end MirListing.Text
