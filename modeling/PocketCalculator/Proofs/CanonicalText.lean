/-
# The form of a shown value

The text of a value has one of these forms, and no other:

| form | spelled | length |
| --- | --- | ---: |
| `Error` | in that way | 5 |
| decimal (`Display.IsDecimal`) | `-?(0\|[1-9][0-9]*)(\.[0-9]*[1-9])?`, but not `-0` | up to 14 |
| exponential (`Display.IsExponential`) | `-?[1-9]\.[0-9]+e[+-][1-9][0-9]*` | up to 18 |

A natural number is written without a zero in front (`Text.noLeadingZero_ofNat`). A decimal that is
shown has no zero at the end of its coefficient either (`Display.Shown.exists_written`), which makes
its positional form a decimal one whatever side of the coefficient the point is on
(`Display.isDecimal_positional`). An exponential form has ten digits or twelve, and its exponent,
which is never zero, has two digits at most behind twelve of them (`Display.Exponential.sizes`).
-/

import PocketCalculator.Proofs.Preview

namespace PocketCalculator

namespace Text

/-- Digits, the first of which is not a zero. -/
def NoLeadingZero (t : Text) : Prop := (∀ c ∈ t, c.isDigit) ∧ ∃ d ∈ t.head?, d ≠ '0'

/-- Digits, the last of which is not a zero. -/
def NoTrailingZero (t : Text) : Prop := (∀ c ∈ t, c.isDigit) ∧ ∃ d ∈ t.getLast?, d ≠ '0'

variable {s t : Text} {n k : ℕ}

/-- A number other than zero is written without a zero in front. -/
theorem noLeadingZero_ofNat (hn : n ≠ 0) : (ofNat n).NoLeadingZero := by
  refine ⟨fun c hc => isDigit_of_mem_ofNat hc, ?_⟩
  -- The first digit is that of the tenth, down to a single digit.
  induction n using Nat.strong_induction_on with
  | _ n ih =>
    rw [ofNat, Nat.toDigits_eq_if (by decide)]
    split
    · refine ⟨n.digitChar, rfl, ?_⟩
      rw [ne_eq, Nat.digitChar_eq_zero]
      omega
    · obtain ⟨d, hd, hne⟩ := ih (n / 10) (by omega) (by omega)
      refine ⟨d, ?_, hne⟩
      rw [List.head?_append_of_ne_nil _ Nat.toDigits_ne_nil]
      exact hd

/-- More digits behind do not change what the first one is. -/
theorem NoLeadingZero.append (hs : s.NoLeadingZero) (ht : ∀ c ∈ t, c.isDigit) :
    (s ++ t).NoLeadingZero := by
  obtain ⟨hdigits, d, hd, hne⟩ := hs
  refine ⟨List.forall_mem_append.2 ⟨hdigits, ht⟩, d, ?_, hne⟩
  rw [List.head?_append, Option.mem_def.1 hd]
  rfl

/-- Nor does cutting digits off at the end, as long as one is left. -/
theorem NoLeadingZero.take (ht : t.NoLeadingZero) (hk : 0 < k) :
    NoLeadingZero (t.take k) := by
  obtain ⟨hdigits, d, hd, hne⟩ := ht
  refine ⟨fun c hc => hdigits c (List.mem_of_mem_take hc), d, ?_, hne⟩
  rwa [List.head?_take, if_neg hk.ne']

end Text

namespace Display

open Binary64 Scientific

seal unitsOfOne unitsLimit

/-- A whole number without a needless zero in front, and perhaps places without one at the end. -/
def IsDecimal (t : Text) : Prop :=
  ∃ negative whole fraction, t = Numeral.plain negative whole fraction ∧
    (whole = ['0'] ∨ whole.NoLeadingZero) ∧ ∀ places ∈ fraction, Text.NoTrailingZero places

/-- So many significant digits with a point behind the first, which is not a zero, and an exponent
with its sign. -/
def IsExponential (count : ℕ) (t : Text) : Prop :=
  ∃ negative first places sign exponent,
    t = signText negative ++ first :: '.' :: places ++ 'e' :: sign :: exponent ∧
      (first.isDigit ∧ first ≠ '0') ∧ (∀ c ∈ places, c.isDigit) ∧ places.length + 1 = count ∧
        (sign = '+' ∨ sign = '-') ∧ Text.NoLeadingZero exponent

variable {c n k : ℕ} {x z : ℤ} {v : Binary64}

/-- A sign is one character at most. -/
theorem length_signText_le (negative : Bool) : (signText negative).length ≤ 1 := by
  cases negative <;> decide

/-! ### Decimal forms -/

/-- A decimal that is shown has no zero at the end of its coefficient, no more than ten places, and
no more than twelve digits before the point. -/
theorem Shown.exists_written (h : Shown c x) :
    ∃ d y, ofScaled c x = written d y ∧ ¬ 10 ∣ d ∧ d < 10 ^ 12 ∧ -10 ≤ y ∧
      (written d y).exponent < 12 := by
  obtain ⟨k, hk⟩ := h.places
  have hk0 : k ≠ 0 := ne_zero_of_places h.ne_zero hk
  obtain ⟨d, i, rfl, hd⟩ := exists_reduced h.ne_zero
  obtain ⟨d', j, rfl, hd'⟩ := exists_reduced hk0
  have hne : d ≠ 0 := left_ne_zero_of_mul h.ne_zero
  have hvalue : decimal d (x + i) = decimal d' (-10 + j) := by
    rw [← decimal_mul_pow, ← decimal_mul_pow, hk, decimal, zpow_neg, div_eq_mul_inv]
    rfl
  refine ⟨d, x + i, ?_, hd, ?_, ?_, ?_⟩
  · rw [ofScaled_mul_pow hne, ofScaled_of_not_dvd hd]
  · exact (Nat.le_mul_of_pos_right d (Nat.pow_pos (by decide))).trans_lt h.digits
  · have hplaces := (eq_of_decimal_eq hd hd' hvalue).2
    omega
  · rw [written_exponent_lt_iff hne, ← decimal_mul_pow]
    exact_mod_cast h.high

/-- The digits before the point are those of the coefficient, or a zero. -/
theorem whole_padded (hc : c ≠ 0) (k : ℕ) :
    (padded c k).take ((padded c k).length - k) = ['0'] ∨
      Text.NoLeadingZero ((padded c k).take ((padded c k).length - k)) := by
  rcases Nat.lt_or_ge k (Text.ofNat c).length with hlong | hshort
  · rw [padded_of_lt hlong]
    exact .inr ((Text.noLeadingZero_ofNat hc).take (by omega))
  · rw [length_padded_of_le hshort, Nat.add_sub_cancel_left, padded_of_le hshort]
    exact .inl rfl

/-- The digits behind the point are the last ones of the coefficient, or all of them with zeros in
front. -/
theorem noTrailingZero_places (hc : ¬ 10 ∣ c) (hk : 0 < k) :
    Text.NoTrailingZero ((padded c k).drop ((padded c k).length - k)) := by
  obtain ⟨d, hlast, hd⟩ := Text.getLast?_ofNat hc
  have hlen := lt_length_padded c k
  refine ⟨fun e he => ?_, d, ?_, hd⟩
  · exact isDigit_of_mem_append_zeros (List.mem_append.1 (List.mem_of_mem_drop he)).symm
  · rw [List.getLast?_drop, if_neg (by omega), padded, List.getLast?_append, hlast]
    rfl

/-- **A positional form** without a zero at the end of its coefficient is a decimal one. -/
theorem isDecimal_positional (hc : ¬ 10 ∣ c) (x : ℤ) (negative : Bool) :
    IsDecimal (signText negative ++ (written c x).positional) := by
  have hne : c ≠ 0 := by
    rintro rfl
    exact hc (Nat.dvd_zero 10)
  rcases le_or_gt 0 x with hx | hx
  · have hzeros : ∀ d ∈ List.replicate x.toNat '0', d.isDigit := fun d hd =>
      isDigit_of_mem_append_zeros (.inr hd) (c := c)
    refine ⟨negative, _, none, ?_, .inr ((Text.noLeadingZero_ofNat hne).append hzeros), by simp⟩
    rw [positional_written_of_nonneg c hx]
    simp [Numeral.plain]
  · obtain ⟨k, hk⟩ := Int.eq_ofNat_of_zero_le (show 0 ≤ -x by omega)
    obtain rfl : x = -k := by omega
    have hplaces := noTrailingZero_places hc (show 0 < k by omega)
    refine ⟨negative, _, some _, ?_, whole_padded hne k, fun _ h => Option.some.inj h ▸ hplaces⟩
    rw [positional_written_of_neg c (by omega)]
    simp [Numeral.plain]

/-- Twelve digits and ten places make a positional form of at most thirteen characters. -/
theorem length_positional_le (hc : c < 10 ^ 12) (hx : -10 ≤ x)
    (hexp : (written c x).exponent < 12) : (written c x).positional.length ≤ 13 := by
  have hlen : (Text.ofNat c).length ≤ 12 := (Text.length_ofNat_le_iff (by decide)).2 hc
  rw [written_exponent] at hexp
  rcases le_or_gt 0 x with hx' | hx'
  · rw [positional_written_of_nonneg c hx', List.length_append, List.length_replicate]
    omega
  · obtain ⟨k, hk⟩ := Int.eq_ofNat_of_zero_le (show 0 ≤ -x by omega)
    obtain rfl : x = -k := by omega
    have hpadded : (padded c k).length ≤ 12 := by
      rw [padded, List.length_append, List.length_replicate]
      omega
    rw [positional_written_of_neg c (by omega), List.length_append, List.length_cons,
      List.length_take, List.length_drop]
    omega

/-- **Without an exponent** a value is shown in decimal form. -/
theorem isDecimal_text (hv : v.isFinite) (he : 'e' ∉ text v) :
    IsDecimal (text v) ∧ (text v).length ≤ 14 := by
  rcases exists_shown hv he with htext | ⟨negative, c, x, hshown, htext⟩
  · rw [htext]
    exact ⟨⟨false, ['0'], none, rfl, .inl rfl, by simp⟩, by decide⟩
  · obtain ⟨d, y, hwritten, hd, hdigits, hplaces, hexp⟩ := hshown.exists_written
    have hsign := length_signText_le negative
    have hlen := length_positional_le hdigits hplaces hexp
    rw [htext, hwritten, List.length_append]
    exact ⟨isDecimal_positional hd y negative, by omega⟩

/-- A text without an exponent is shown of its own value, and `-0` is not shown of a zero. -/
theorem text_ne_minus_zero (hv : v.isFinite) : text v ≠ "-0".toList := by
  intro htext
  have he : 'e' ∉ text v := by
    rw [htext]
    decide
  obtain ⟨w, hw, hback⟩ := redisplay_of_not_mem hv he
  have hzero : Outcome.ofExpression "-0".toList = .success (zero true) := by decide +kernel
  rw [htext, hzero] at hw
  obtain rfl := Outcome.success.inj hw
  rw [text_zero, htext] at hback
  exact absurd hback (by decide)

/-! ### Exponential forms -/

/-- An exponential form has ten digits, or twelve and an exponent of two digits at most. -/
theorem Exponential.sizes (h : Exponential n z) (hk : decimal n z = k / 10 ^ 10) :
    (written n z).exponent.natAbs ≠ 0 ∧
      ((Text.ofNat n).length = 10 ∧ (written n z).exponent.natAbs < 10 ^ 3 ∨
        (Text.ofNat n).length = 12 ∧ (written n z).exponent.natAbs < 10 ^ 2) := by
  have hcases := h.exponent_cases hk
  refine ⟨by omega, ?_⟩
  cases h with
  | small hlow hhigh => exact .inl ⟨length_ofNat_eq (by decide) hlow hhigh, by omega⟩
  | large hlow hhigh => exact .inl ⟨length_ofNat_eq (by decide) hlow hhigh, by omega⟩
  | greatest hn hz => exact .inl ⟨hn ▸ by decide +kernel, by omega⟩
  | whole hlow hhigh hleast hle =>
    have hexp : (written n z).exponent < 22 := by
      rw [written_exponent_lt_iff (by omega)]
      exact hle.trans_lt (by norm_num)
    exact .inr ⟨length_ofNat_eq (by decide) hlow hhigh, by omega⟩

/-- **The exponential form** of two or more digits is what the pattern wants. -/
theorem isExponential_exponential (hn : 10 ≤ n) (hexp : (written n z).exponent.natAbs ≠ 0)
    (negative : Bool) :
    IsExponential (Text.ofNat n).length (signText negative ++ (written n z).exponential) := by
  obtain ⟨hdigits, first, hfirst, hne⟩ := Text.noLeadingZero_ofNat (show n ≠ 0 by omega)
  obtain ⟨places, hplaces⟩ := List.head?_eq_some_iff.1 hfirst
  rw [exponential_eq_plain negative hn]
  generalize Text.ofNat n = digits at hdigits hplaces
  obtain rfl := hplaces
  obtain ⟨hfirst, hplaces⟩ := List.forall_mem_cons.1 hdigits
  refine ⟨negative, first, places, (exponentOperator (written n z).exponent).symbol, _, ?_,
    ⟨hfirst, hne⟩, hplaces, rfl, ?_, Text.noLeadingZero_ofNat hexp⟩
  · simp [Numeral.plain]
  · rw [symbol_exponentOperator]
    split
    · exact .inr rfl
    · exact .inl rfl

/-- The length of the exponential form: sign, digits, a point, a mark with its own sign, and the
digits of the exponent. -/
theorem length_exponential (hn : 10 ≤ n) (z : ℤ) (negative : Bool) :
    (signText negative ++ (written n z).exponential).length =
      (signText negative).length + (Text.ofNat n).length + 3 +
        (Text.ofNat (written n z).exponent.natAbs).length := by
  have hlen := Text.length_ofNat_pos n
  rw [exponential_eq_plain negative hn]
  simp [Numeral.plain]
  omega

/-- **With an exponent** a value is shown in exponential form. -/
theorem isExponential_text (hv : v.isFinite) (he : 'e' ∈ text v) :
    (IsExponential 10 (text v) ∨ IsExponential 12 (text v)) ∧ (text v).length ≤ 18 := by
  obtain ⟨negative, n, z, htext, hexponential, k, hk⟩ := exists_exponential_of_mem hv he
  have hn := hexponential.digits.1
  obtain ⟨hexp, hsizes⟩ := hexponential.sizes hk
  have hform := isExponential_exponential hn hexp negative
  have hsign := length_signText_le negative
  rw [htext, length_exponential hn]
  rcases hsizes with ⟨hlen, hsmall⟩ | ⟨hlen, hsmall⟩
  · have hexponent := (Text.length_ofNat_le_iff (by decide)).2 hsmall
    exact ⟨.inl (hlen ▸ hform), by omega⟩
  · have hexponent := (Text.length_ofNat_le_iff (by decide)).2 hsmall
    exact ⟨.inr (hlen ▸ hform), by omega⟩

/-- **What is shown has a canonical form.** The text of a value is `Error` just for the infinities
and `nan`. Any other is a decimal without needless zeros, and never `-0`, or has an exponent and ten
or twelve significant digits; it has eighteen characters at most. -/
theorem canonical_text (v : Binary64) :
    (text v = errorText ↔ v = .nan ∨ ∃ negative, v = .infinite negative) ∧
      (v.isFinite → (text v).length ≤ 18 ∧
        (IsDecimal (text v) ∧ text v ≠ "-0".toList ∨
          IsExponential 10 (text v) ∨ IsExponential 12 (text v))) := by
  refine ⟨?_, fun hv => ?_⟩
  · cases v with
    | nan => exact iff_of_true rfl (.inl rfl)
    | infinite negative => exact iff_of_true rfl (.inr ⟨negative, rfl⟩)
    | finite negative m =>
      exact iff_of_false (text_ne_errorText rfl) (by rintro (h | ⟨_, h⟩) <;> cases h)
  · by_cases he : 'e' ∈ text v
    · obtain ⟨hform, hlen⟩ := isExponential_text hv he
      exact ⟨hlen, .inr hform⟩
    · obtain ⟨hform, hlen⟩ := isDecimal_text hv he
      exact ⟨by omega, .inl ⟨hform, text_ne_minus_zero hv⟩⟩

/-- The longest text: a negative value with twelve digits and two of the exponent. -/
theorem canonical_text_longest :
    let v := ofDecimal true 123456789012345678 2
    v.isFinite ∧ text v = "-1.23456789012e+19".toList ∧ (text v).length ≤ 18 ∧
      (IsDecimal (text v) ∧ text v ≠ "-0".toList ∨
        IsExponential 10 (text v) ∨ IsExponential 12 (text v)) := by
  intro v
  have hv : v.isFinite := by decide +kernel
  exact ⟨hv, by decide +kernel, (canonical_text v).2 hv⟩

end Display
end PocketCalculator
