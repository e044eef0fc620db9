import Mathlib.Algebra.Order.Group.Unbundled.Int
import Mathlib.Algebra.Order.Ring.Int
import Mathlib.Data.Int.ModEq
import MirListing.Body.Type
import MirListing.Proofs.Text.Numerals

/-!
# Forms of scalars

The description of a scalar has two hexadecimal digits for each byte, and they write its bits.  The
short form of an integer is a decimal number with the name of the type: the bits of an unsigned one,
and of a signed one the number that the bits stand for in two's complement (`TwosComplement`).

A form is refused only where a number on the way to it does not fit: a number of digits that is no
machine number, a number with more digits than the digit limit, and for a negative number the power
of two that its bits are more than the number by.  `scalar_forms_of_bits` says what is written,
when, and that different bits of one type and size are never written alike.
-/

namespace MirListing

/-! ## Descriptions -/

namespace ConstValue

variable {size bits : Nat}

theorem bitsText_of_isMachineNumber (h : IsMachineNumber (2 * size)) :
    bitsText bits size = .ok ("0x" ++ String.ofList (Text.hexPadded (2 * size) bits)) := by
  have hlimit : Text.WithinLimit (2 * size) := by
    refine Text.withinLimit_of_lt ?_
    unfold IsMachineNumber at h
    omega
  have hwidth : (2 * size : Int).toNat = 2 * size := by omega
  rw [bitsText, Text.decimalWithinLimit?_of_withinLimit hlimit]
  simp only [Option.isNone_some, Bool.false_eq_true, if_false, h, not_true_eq_false,
    Int.not_lt.2 (Int.natCast_nonneg size), hwidth]
  rfl

theorem bitsText_widthTooLarge (h : ¬IsMachineNumber (2 * size))
    (hlimit : Text.WithinLimit (2 * size)) :
    bitsText bits size = .error (.document .widthTooLarge) := by
  rw [bitsText, Text.decimalWithinLimit?_of_withinLimit hlimit]
  simp only [Option.isNone_some, Bool.false_eq_true, if_false, h, not_false_eq_true, if_true,
    Int.not_lt.2 (Int.natCast_nonneg size)]

theorem bitsText_integerTooLong (hlimit : ¬Text.WithinLimit (2 * size)) :
    bitsText bits size = .error (.document .integerTooLong) := by
  rw [bitsText, Text.decimalWithinLimit?_of_not_withinLimit hlimit]
  rfl

theorem describe_scalar (hsize : 0 < size) :
    (scalar bits size).describe = do return "Scalar(" ++ (← bitsText bits size) ++ ")" := by
  rw [describe, if_neg (by omega)]

/-- A description has two digits for each byte, and they write the bits. -/
theorem exists_digits (hsize : 0 < size) (hbits : bits < 2 ^ (8 * size))
    (h : IsMachineNumber (2 * size)) :
    ∃ digits, (scalar bits size).describe = .ok ("Scalar(0x" ++ String.ofList digits ++ ")") ∧
      digits.length = 2 * size ∧ Text.WritesHex digits bits := by
  refine ⟨Text.hexPadded (2 * size) bits, ?_, ?_, Text.writesHex_hexPadded _ _⟩
  · rw [describe_scalar hsize, bitsText_of_isMachineNumber h]
    show Except.ok _ = Except.ok _
    rw [← String.append_assoc]
    rfl
  · refine Text.length_hexPadded_of_lt (by omega) ?_
    have hpow : (16 : Nat) ^ (2 * size) = 2 ^ (8 * size) := by
      rw [show (16 : Nat) = 2 ^ 4 from rfl, ← Nat.pow_mul]
      congr 1
      omega
    rwa [hpow]

theorem describe_widthTooLarge (hsize : 0 < size) (h : ¬IsMachineNumber (2 * size))
    (hlimit : Text.WithinLimit (2 * size)) :
    (scalar bits size).describe = .error (.document .widthTooLarge) := by
  rw [describe_scalar hsize, bitsText_widthTooLarge h hlimit]
  rfl

theorem describe_integerTooLong (hsize : 0 < size) (hlimit : ¬Text.WithinLimit (2 * size)) :
    (scalar bits size).describe = .error (.document .integerTooLong) := by
  rw [describe_scalar hsize, bitsText_integerTooLong hlimit]
  rfl

/-- What has a description has a machine number of digits. -/
theorem isMachineNumber_of_describe (hsize : 0 < size) {text : String}
    (h : (scalar bits size).describe = .ok text) : IsMachineNumber (2 * size) := by
  by_contra hlarge
  by_cases hlimit : Text.WithinLimit (2 * size)
  · rw [describe_widthTooLarge hsize hlarge hlimit] at h
    cases h
  · rw [describe_integerTooLong hsize hlimit] at h
    cases h

end ConstValue

/-! ## Two's complement -/

/-- A signed number and the bits that stand for it in two's complement. -/
structure TwosComplement (size bits : Nat) (n : Int) : Prop where
  /-- The number and the bits differ by a multiple of what does not fit into the bytes. -/
  congr : n ≡ bits [ZMOD 2 ^ (8 * size)]
  /-- The lower half of the numbers is negative. -/
  lower : -2 ^ (8 * size - 1) ≤ n
  /-- The upper half is not. -/
  upper : n < 2 ^ (8 * size - 1)

/-- The number that bits stand for. -/
def signedNumber (size bits : Nat) : Int :=
  if bits < 2 ^ (8 * size - 1) then bits else bits - 2 ^ (8 * size)

section

variable {size bits : Nat}

theorem two_pow_bits (h : 0 < size) :
    (2 : Int) ^ (8 * size) = 2 ^ (8 * size - 1) + 2 ^ (8 * size - 1) := by
  have hsucc : 8 * size = 8 * size - 1 + 1 := by omega
  rw [hsucc, pow_succ, Nat.add_sub_cancel, mul_two]

theorem twosComplement_signedNumber (hsize : 0 < size) (hbits : bits < 2 ^ (8 * size)) :
    TwosComplement size bits (signedNumber size bits) := by
  have hpow := two_pow_bits hsize
  have hbound : (bits : Int) < 2 ^ (8 * size) := by exact_mod_cast hbits
  unfold signedNumber
  split
  · rename_i hsmall
    have hupper : (bits : Int) < 2 ^ (8 * size - 1) := by exact_mod_cast hsmall
    exact ⟨.rfl, by omega, hupper⟩
  · rename_i hlarge
    have hlower : (2 : Int) ^ (8 * size - 1) ≤ bits := by exact_mod_cast Nat.le_of_not_lt hlarge
    exact ⟨Int.modEq_iff_dvd.2 ⟨1, by ring⟩, by omega, by omega⟩

/-- Bits stand for one number. -/
theorem TwosComplement.unique (hsize : 0 < size) {m n : Int} (hm : TwosComplement size bits m)
    (hn : TwosComplement size bits n) : m = n := by
  have hdvd : (2 : Int) ^ (8 * size) ∣ n - m := (hm.congr.trans hn.congr.symm).dvd
  have hnear : |n - m| < 2 ^ (8 * size) := by
    have hlower := hm.lower
    have hupper := hm.upper
    have hlower' := hn.lower
    have hupper' := hn.upper
    rw [abs_lt, two_pow_bits hsize]
    constructor <;> omega
  have hzero := Int.eq_zero_of_abs_lt_dvd hdvd hnear
  omega

/-- A number is what bits of one size stand for, for no other bits. -/
theorem TwosComplement.bits_eq {bits' : Nat} {n : Int} (hbits : bits < 2 ^ (8 * size))
    (hbits' : bits' < 2 ^ (8 * size)) (h : TwosComplement size bits n)
    (h' : TwosComplement size bits' n) : bits = bits' := by
  have hcongr : (bits : Int) % 2 ^ (8 * size) = bits' % 2 ^ (8 * size) :=
    h.congr.symm.trans h'.congr
  have hmod : bits % 2 ^ (8 * size) = bits' % 2 ^ (8 * size) := by exact_mod_cast hcongr
  rwa [Nat.mod_eq_of_lt hbits, Nat.mod_eq_of_lt hbits'] at hmod

namespace Const

/-- The highest of the bits says whether the number is negative. -/
theorem shiftRight_eq_zero_iff :
    (bits : Int) >>> (8 * size - 1) = 0 ↔ bits < 2 ^ (8 * size - 1) := by
  rw [Int.shiftRight_eq_div_pow, ← Int.natCast_ediv]
  norm_cast
  rw [Nat.div_eq_zero_iff]
  simp

theorem signedValue_natCast (hsize : 0 < size) :
    signedValue bits size =
      if (bits : Int) >>> (8 * size - 1) = 0 then .ok bits
      else if bitLimit < 8 * size then .error .overflow
      else .ok (bits - 2 ^ (8 * size)) := by
  have hhigh : (8 * size - 1 : Int).toNat = 8 * size - 1 := by omega
  have hall : (8 * size : Int).toNat = 8 * size := by omega
  have hpow : ((Nat.pow 2 (8 * size) : Nat) : Int) = 2 ^ (8 * size) := by norm_cast
  rw [signedValue, if_neg (by omega), hhigh, hall, hpow]

/-- The number is found if it is not negative, or if the power of two is an integer. -/
theorem signedValue_eq (hsize : 0 < size)
    (h : 0 ≤ signedNumber size bits ∨ (8 * size : Int) ≤ bitLimit) (hbits : bits < 2 ^ (8 * size)) :
    signedValue bits size = .ok (signedNumber size bits) := by
  rw [signedValue_natCast hsize]
  unfold signedNumber at h ⊢
  by_cases hsmall : bits < 2 ^ (8 * size - 1)
  · rw [if_pos (shiftRight_eq_zero_iff.2 hsmall), if_pos hsmall]
  · have hbound : (bits : Int) < 2 ^ (8 * size) := by exact_mod_cast hbits
    rw [if_neg hsmall] at h
    have hlimit : ¬bitLimit < 8 * size := by omega
    rw [if_neg (mt shiftRight_eq_zero_iff.1 hsmall), if_neg hlimit, if_neg hsmall]

theorem signedValue_overflow (hsize : 0 < size)
    (h : ¬(0 ≤ signedNumber size bits ∨ (8 * size : Int) ≤ bitLimit)) :
    signedValue bits size = .error .overflow := by
  rw [not_or, Int.not_le, Int.not_le] at h
  obtain ⟨hnegative, hlimit⟩ := h
  have hlarge : ¬bits < 2 ^ (8 * size - 1) := by
    intro hsmall
    rw [signedNumber, if_pos hsmall] at hnegative
    omega
  rw [signedValue_natCast hsize, if_neg (mt shiftRight_eq_zero_iff.1 hlarge), if_pos hlimit]

end Const

end

/-! ## Short forms -/

namespace Const

/-- A constant is a scalar of a type that is known by its name. -/
structure IsScalar (c : Const) (name : String) (size bits : Nat) : Prop where
  /-- The name of the type. -/
  name : c.ty.name = .string name
  /-- The value. -/
  value : c.value = .scalar bits size

theorem suffixed_of_withinLimit {n : Int} (h : Text.WithinLimit n) (name : String) :
    suffixed n name = .ok (Text.decimal n ++ "_" ++ name) := by
  unfold suffixed
  rw [Text.decimalWithinLimit?_of_withinLimit h]

theorem suffixed_of_not_withinLimit {n : Int} (h : ¬Text.WithinLimit n) (name : String) :
    suffixed n name = .error (.document .integerTooLong) := by
  unfold suffixed
  rw [Text.decimalWithinLimit?_of_not_withinLimit h]

theorem eq_of_suffixed {n : Int} {name text : String} (h : suffixed n name = .ok text) :
    text = Text.decimal n ++ "_" ++ name := by
  by_cases hlimit : Text.WithinLimit n
  · rw [suffixed_of_withinLimit hlimit] at h
    exact (Except.ok.inj h).symm
  · rw [suffixed_of_not_withinLimit hlimit] at h
    cases h

theorem scalarText?_of_unsigned {name : String} (h : name ∈ unsignedNames) (bits size : Int) :
    scalarText? name bits size = some (suffixed bits name) := by
  simp only [unsignedNames, List.mem_cons, List.not_mem_nil, or_false] at h
  rcases h with rfl | rfl | rfl | rfl | rfl | rfl <;> rfl

theorem scalarText?_of_signed {name : String} (h : name ∈ signedNames) (bits size : Int) :
    scalarText? name bits size = some (do suffixed (← signedValue bits size) name) := by
  simp only [signedNames, List.mem_cons, List.not_mem_nil, or_false] at h
  rcases h with rfl | rfl | rfl | rfl | rfl | rfl <;> rfl

variable {c : Const} {name : String} {size bits : Nat}

theorem pretty_of_isScalar (h : c.IsScalar name size bits) {text : Outcome String}
    (htext : scalarText? name bits size = some text) : c.pretty = text := by
  rw [pretty, h.value, h.name]
  show (scalarText? name bits size).getD _ = _
  rw [htext, Option.getD_some]

theorem pretty_unsigned (h : c.IsScalar name size bits) (hname : name ∈ unsignedNames) :
    c.pretty = suffixed bits name :=
  pretty_of_isScalar h (scalarText?_of_unsigned hname bits size)

theorem pretty_signed (h : c.IsScalar name size bits) (hname : name ∈ signedNames) :
    c.pretty = (do suffixed (← signedValue bits size) name) :=
  pretty_of_isScalar h (scalarText?_of_signed hname bits size)

theorem signedNumber_of_signedValue (hsize : 0 < size) (hbits : bits < 2 ^ (8 * size)) {n : Int}
    (h : signedValue bits size = .ok n) : n = signedNumber size bits := by
  by_cases hfits : 0 ≤ signedNumber size bits ∨ (8 * size : Int) ≤ bitLimit
  · rw [signedValue_eq hsize hfits hbits] at h
    exact (Except.ok.inj h).symm
  · rw [signedValue_overflow hsize hfits] at h
    cases h

theorem suffixed_inj {m n : Int} {text : String} (hm : suffixed m name = .ok text)
    (hn : suffixed n name = .ok text) : m = n := by
  have heq := (eq_of_suffixed hm).symm.trans (eq_of_suffixed hn)
  rw [String.append_left_inj, String.append_left_inj] at heq
  exact Text.decimal_inj heq

end Const

/-- What is written for the bits of a scalar, and what is said where nothing is. -/
structure ScalarForms (size bits : Nat) : Prop where
  /-- The description has two digits for each byte, if their number is a machine number. -/
  described : IsMachineNumber (2 * size) → ∃ digits,
    (ConstValue.scalar bits size).describe = .ok ("Scalar(0x" ++ String.ofList digits ++ ")") ∧
      digits.length = 2 * size ∧ Text.WritesHex digits bits
  /-- There is none if it is not. -/
  undescribed : ¬IsMachineNumber (2 * size) →
    (Text.WithinLimit (2 * size) →
      (ConstValue.scalar bits size).describe = .error (.document .widthTooLarge)) ∧
    (¬Text.WithinLimit (2 * size) →
      (ConstValue.scalar bits size).describe = .error (.document .integerTooLong))
  /-- As an unsigned integer it is the bits, within the digit limit. -/
  unsigned : ∀ (c : Const) (name : String), c.IsScalar name size bits → name ∈ unsignedNames →
    (Text.WithinLimit bits → c.pretty = .ok (Text.decimal bits ++ "_" ++ name)) ∧
      (¬Text.WithinLimit bits → c.pretty = .error (.document .integerTooLong))
  /-- As a signed integer it is the number that the bits stand for, within the digit limit.  If it
  is negative, two to the number of bits must be an integer. -/
  signed : ∃ n, TwosComplement size bits n ∧ (∀ m, TwosComplement size bits m → m = n) ∧
    ∀ (c : Const) (name : String), c.IsScalar name size bits → name ∈ signedNames →
      (0 ≤ n ∨ (8 * size : Int) ≤ Const.bitLimit →
        (Text.WithinLimit n → c.pretty = .ok (Text.decimal n ++ "_" ++ name)) ∧
          (¬Text.WithinLimit n → c.pretty = .error (.document .integerTooLong))) ∧
        (¬(0 ≤ n ∨ (8 * size : Int) ≤ Const.bitLimit) → c.pretty = .error .overflow)

/-- Two scalars of one size have no form in common. -/
structure FormsApart (size bits bits' : Nat) : Prop where
  /-- Their descriptions are different. -/
  described : ∀ text, (ConstValue.scalar bits size).describe = .ok text →
    (ConstValue.scalar bits' size).describe ≠ .ok text
  /-- As integers of one type they are written differently. -/
  integer : ∀ (c c' : Const) (name text : String), c.IsScalar name size bits →
    c'.IsScalar name size bits' → name ∈ signedNames ++ unsignedNames → c.pretty = .ok text →
    c'.pretty ≠ .ok text

section

variable {size bits bits' : Nat}

/-- A signed integer is written as its number, where that is found. -/
theorem Const.pretty_signed_eq (hsize : 0 < size) (hbits : bits < 2 ^ (8 * size)) {c : Const}
    {name : String} (hc : c.IsScalar name size bits) (hname : name ∈ signedNames)
    (hfits : 0 ≤ signedNumber size bits ∨ (8 * size : Int) ≤ bitLimit) :
    c.pretty = suffixed (signedNumber size bits) name := by
  simp only [pretty_signed hc hname, signedValue_eq hsize hfits hbits, bind, Except.bind]

theorem Const.pretty_signed_overflow (hsize : 0 < size) {c : Const} {name : String}
    (hc : c.IsScalar name size bits) (hname : name ∈ signedNames)
    (h : ¬(0 ≤ signedNumber size bits ∨ (8 * size : Int) ≤ bitLimit)) :
    c.pretty = .error .overflow := by
  rw [pretty_signed hc hname, signedValue_overflow hsize h]
  rfl

theorem scalarForms (hsize : 0 < size) (hbits : bits < 2 ^ (8 * size)) : ScalarForms size bits where
  described := ConstValue.exists_digits hsize hbits
  undescribed h :=
    ⟨ConstValue.describe_widthTooLarge hsize h, ConstValue.describe_integerTooLong hsize⟩
  unsigned := by
    intro c name hc hname
    rw [Const.pretty_unsigned hc hname]
    exact ⟨fun h => Const.suffixed_of_withinLimit h name,
      fun h => Const.suffixed_of_not_withinLimit h name⟩
  signed := by
    have hn := twosComplement_signedNumber hsize hbits
    refine ⟨signedNumber size bits, hn, fun m hm => hm.unique hsize hn, fun c name hc hname => ?_⟩
    refine ⟨fun hfits => ?_, Const.pretty_signed_overflow hsize hc hname⟩
    rw [Const.pretty_signed_eq hsize hbits hc hname hfits]
    exact ⟨fun h => Const.suffixed_of_withinLimit h name,
      fun h => Const.suffixed_of_not_withinLimit h name⟩

theorem ConstValue.bits_eq_of_describe (hsize : 0 < size) (hbits : bits < 2 ^ (8 * size))
    (hbits' : bits' < 2 ^ (8 * size)) {text : String} (h : (scalar bits size).describe = .ok text)
    (h' : (scalar bits' size).describe = .ok text) : bits = bits' := by
  have hmachine := isMachineNumber_of_describe hsize h
  obtain ⟨digits, htext, -, hwrites⟩ := exists_digits hsize hbits hmachine
  obtain ⟨digits', htext', -, hwrites'⟩ := exists_digits hsize hbits' hmachine
  have heq := (htext.symm.trans (h.trans (h'.symm.trans htext')))
  have hsame : "Scalar(0x" ++ String.ofList digits ++ ")" =
      "Scalar(0x" ++ String.ofList digits' ++ ")" := Except.ok.inj heq
  rw [String.append_left_inj, String.append_right_inj, String.ofList_inj] at hsame
  exact hwrites.unique (hsame ▸ hwrites')

theorem Const.bits_eq_of_pretty (hsize : 0 < size) (hbits : bits < 2 ^ (8 * size))
    (hbits' : bits' < 2 ^ (8 * size)) {c c' : Const} {name text : String}
    (hc : c.IsScalar name size bits) (hc' : c'.IsScalar name size bits')
    (hname : name ∈ signedNames ++ unsignedNames) (h : c.pretty = .ok text)
    (h' : c'.pretty = .ok text) : bits = bits' := by
  obtain hsigned | hunsigned := List.mem_append.1 hname
  · rw [pretty_signed hc hsigned] at h
    rw [pretty_signed hc' hsigned] at h'
    obtain ⟨n, hn, htext⟩ := bind_eq_ok_iff.1 h
    obtain ⟨n', hn', htext'⟩ := bind_eq_ok_iff.1 h'
    obtain rfl := suffixed_inj htext htext'
    -- one number is what both stand for
    have hstands := twosComplement_signedNumber hsize hbits
    have hstands' := twosComplement_signedNumber hsize hbits'
    rw [← signedNumber_of_signedValue hsize hbits hn] at hstands
    rw [← signedNumber_of_signedValue hsize hbits' hn'] at hstands'
    exact hstands.bits_eq hbits hbits' hstands'
  · rw [pretty_unsigned hc hunsigned] at h
    rw [pretty_unsigned hc' hunsigned] at h'
    exact Int.ofNat.inj (suffixed_inj h h')

/-- Every scalar whose bits fit into its bytes is written in its forms, and no two of one size have
a form in common. -/
theorem scalar_forms_of_bits (hsize : 0 < size) (hbits : bits < 2 ^ (8 * size)) :
    ScalarForms size bits ∧
      ∀ bits', bits' < 2 ^ (8 * size) → bits' ≠ bits → FormsApart size bits bits' := by
  refine ⟨scalarForms hsize hbits, ?_⟩
  intro bits' hbits' hne
  constructor
  · intro text h h'
    exact hne (ConstValue.bits_eq_of_describe hsize hbits' hbits h' h)
  · intro c c' name text hc hc' hname h h'
    exact hne (Const.bits_eq_of_pretty hsize hbits' hbits hc' hc hname h' h)

end

/-- A number of two bytes with the highest bit set. -/
theorem scalar_forms_of_bits_int16 :
    0 < 2 ∧ 0xfffe < 2 ^ (8 * 2) ∧
      (Const.mk (.named "i16") (.scalar 0xfffe 2)).pretty = .ok "-2_i16" ∧
      ∃ digits, (ConstValue.scalar 0xfffe 2).describe =
          .ok ("Scalar(0x" ++ String.ofList digits ++ ")") ∧
        digits.length = 4 ∧ Text.WritesHex digits 0xfffe := by
  have hsize : 0 < 2 := by decide
  have hbits : 0xfffe < 2 ^ (8 * 2) := by decide
  obtain ⟨n, -, honly, hwritten⟩ := (scalar_forms_of_bits hsize hbits).1.signed
  have htwo : TwosComplement 2 0xfffe (-2) := ⟨by decide, by decide, by decide⟩
  have hconst : (Const.mk (.named "i16") (.scalar 0xfffe 2)).IsScalar "i16" 2 0xfffe := ⟨rfl, rfl⟩
  obtain rfl := honly (-2) htwo
  have hlimit : Text.WithinLimit (-2) := Text.withinLimit_of_lt (by decide)
  refine ⟨hsize, hbits, ?_, ?_⟩
  · exact ((hwritten _ "i16" hconst (by decide)).1 (.inr (by decide))).1 hlimit
  · exact (scalar_forms_of_bits hsize hbits).1.described (by decide)

/-- A number of bytes whose hexadecimal digits no machine number counts. -/
def wideSize : Nat := 0x4000000000000000

/-- A number of bytes that numbers over the digit limit fit into. -/
def longSize : Nat := Text.digitLimit / 2

/-- A number of bytes with more bits than a power of two may have. -/
def shiftSize : Nat := 0x8000000000000000

/-- The bits of the number `-1`. -/
def onesOf (size : Nat) : Nat := 2 ^ (8 * size) - 1

theorem ten_pow_digitLimit_lt : 10 ^ Text.digitLimit < 2 ^ (8 * longSize) := by
  have hbits : 8 * longSize = 4 * Text.digitLimit := by decide
  rw [hbits, Nat.pow_mul]
  exact Nat.pow_lt_pow_left (by decide) (by decide)

theorem onesOf_lt (size : Nat) : onesOf size < 2 ^ (8 * size) :=
  Nat.sub_lt (Nat.two_pow_pos _) Nat.one_pos

theorem signedNumber_onesOf {size : Nat} (h : 0 < size) : signedNumber size (onesOf size) = -1 := by
  have hpow := two_pow_bits h
  have hpositive : (0 : Int) < 2 ^ (8 * size - 1) := by positivity
  have hones : (onesOf size : Int) = 2 ^ (8 * size) - 1 := by
    rw [onesOf, Nat.cast_sub (Nat.two_pow_pos _)]
    norm_cast
  have hlarge : ¬onesOf size < 2 ^ (8 * size - 1) := by
    zify
    omega
  rw [signedNumber, if_neg hlarge, hones]
  ring

/-- Zero has no description in too many bytes, the least number over the digit limit has no short
form in bytes that it fits into, and `-1` has none in bytes of too many bits. -/
theorem not_written_wideSize :
    (0 < wideSize ∧ 0 < 2 ^ (8 * wideSize) ∧
        ∀ digits, (ConstValue.scalar (0 : Nat) wideSize).describe ≠
          .ok ("Scalar(0x" ++ String.ofList digits ++ ")")) ∧
      (10 ^ Text.digitLimit < 2 ^ (8 * longSize) ∧
        ∀ text, (Const.mk (.named "u128") (.scalar (10 ^ Text.digitLimit : Nat) longSize)).pretty ≠
          .ok text) ∧
      onesOf shiftSize < 2 ^ (8 * shiftSize) ∧
        ∀ text, (Const.mk (.named "i128") (.scalar (onesOf shiftSize) shiftSize)).pretty ≠
          .ok text := by
  refine ⟨⟨by decide, Nat.two_pow_pos _, ?_⟩, ⟨ten_pow_digitLimit_lt, ?_⟩, onesOf_lt _, ?_⟩
  · intro digits h
    have hmachine := ConstValue.isMachineNumber_of_describe (by decide) h
    exact absurd hmachine (by decide)
  · intro text h
    have hconst : Const.IsScalar
        (.mk (.named "u128") (.scalar (10 ^ Text.digitLimit : Nat) longSize))
        "u128" longSize (10 ^ Text.digitLimit) := ⟨rfl, rfl⟩
    have hlong : ¬Text.WithinLimit (10 ^ Text.digitLimit : Nat) := Nat.lt_irrefl _
    rw [Const.pretty_unsigned hconst (by decide), Const.suffixed_of_not_withinLimit hlong] at h
    cases h
  · intro text h
    have hconst : (Const.mk (.named "i128") (.scalar (onesOf shiftSize) shiftSize)).IsScalar
        "i128" shiftSize (onesOf shiftSize) := ⟨rfl, rfl⟩
    have hnegative : signedNumber shiftSize (onesOf shiftSize) = -1 :=
      signedNumber_onesOf (by decide)
    rw [Const.pretty_signed_overflow (by decide) hconst (by decide)
      (by rw [hnegative]; decide)] at h
    cases h

end MirListing
