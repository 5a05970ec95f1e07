/-
# The texts without an exponent

A text without an exponent is `0` or that of a decimal that is `Shown`: twelve digits and ten places
hold it. The value of such a decimal is shown as the decimal again. Rounding to ten places keeps
the value near to it (`Display.roundToTenPlaces_near`), and what is near to a decimal of twelve
digits is shown as that decimal.
-/

import PocketCalculator.Proofs.ShownText

namespace PocketCalculator
namespace Display

open Binary64 Scientific

seal unitsOfOne unitsLimit

/-- A decimal that is shown without an exponent. -/
structure Shown (c : ℕ) (x : ℤ) : Prop where
  ne_zero : c ≠ 0
  digits : c < 10 ^ 12
  places : ∃ n : ℕ, decimal c x = n / 10 ^ 10
  low : 1 / 10 ^ 6 ≤ decimal c x
  high : decimal c x < 10 ^ 12

/-- A shown decimal has few enough places to be read. -/
theorem Shown.le_exponent {c : ℕ} {x : ℤ} (h : Shown c x) : -324 ≤ x := by
  by_contra hlt
  have hpow : (10 : ℚ) ^ x ≤ 10 ^ (-19 : ℤ) := zpow_le_zpow_right₀ (by norm_num) (by omega)
  have hc : (c : ℚ) ≤ 10 ^ 12 := by exact_mod_cast h.digits.le
  have hle : decimal c x ≤ 10 ^ 12 * 10 ^ (-19 : ℤ) :=
    mul_le_mul hc hpow (by positivity) (by norm_num)
  have hlow := h.low
  norm_num at hle hlow
  linarith

/-- A decimal of ten places at most is a whole number of units of the tenth. -/
theorem exists_places {x : ℤ} (c : ℕ) (hx : -10 ≤ x) : ∃ n : ℕ, decimal c x = n / 10 ^ 10 := by
  refine ⟨c * 10 ^ (x - -10).toNat, ?_⟩
  rw [decimal_eq_mul_zpow c hx, zpow_neg, div_eq_mul_inv]
  rfl

/-- What rounding to ten places gives: a whole number of units of the tenth place, rounded once, or
a value too great to be scaled. -/
def OfPlaces (negative : Bool) (m : Magnitude) : Prop :=
  (∃ u : ℕ, Binary64.rounded negative (u / 10 ^ 10) = .finite negative m) ∨ 2 ^ 100 < m.value

/-- A finite value is shown by its rounding to ten places. -/
theorem text_eq_finiteText {v : Binary64} {negative : Bool} {m : Magnitude} (hv : v.isFinite)
    (h : roundToTenPlaces v = .finite negative m) : text v = finiteText negative m := by
  rw [text, if_pos hv, h]

/-- **What is shown** of a finite value is a magnitude that was rounded to ten places. -/
theorem exists_text_eq {v : Binary64} (hv : v.isFinite) :
    ∃ negative m, text v = finiteText negative m ∧ OfPlaces negative m := by
  obtain ⟨negative, m, hround, hcases⟩ := roundToTenPlaces_cases hv
  refine ⟨negative, m, text_eq_finiteText hv hround, ?_⟩
  rcases hcases with ⟨u, hu, -⟩ | ⟨hbig, -⟩
  · exact .inl ⟨u.natAbs, hu⟩
  · exact .inr hbig

/-- Units of the tenth place that are near to a value are so without the signs. -/
theorem abs_natAbs_sub_le {u : ℤ} {q b : ℚ} (h : |u - q * 10 ^ 10| ≤ b) :
    |(u.natAbs : ℚ) - |q| * 10 ^ 10| ≤ b := by
  have habs := (abs_abs_sub_abs_le_abs_sub (u : ℚ) (q * 10 ^ 10)).trans h
  rwa [abs_mul, abs_of_pos (by norm_num : (0 : ℚ) < 10 ^ 10), ← Int.cast_abs,
    ← Nat.cast_natAbs] at habs

/-! ### What is shown without an exponent -/

section Forms

variable {m : Magnitude} {c n p : ℕ} {x z : ℤ}

/-- A number between two powers of ten has so many digits. -/
theorem length_ofNat_eq (hp : 0 < p) (hlow : 10 ^ (p - 1) ≤ n) (hhigh : n < 10 ^ p) :
    (Text.ofNat n).length = p := by
  refine Nat.le_antisymm ((Text.length_ofNat_le_iff hp).2 hhigh) ?_
  by_contra hlt
  have := (Text.lt_pow_length_ofNat n).trans_le
    (Nat.pow_le_pow_right (by decide : 0 < 10) (show (Text.ofNat n).length ≤ p - 1 by omega))
  omega

/-- A value of few units of the tenth place is written with just these. -/
theorem rounded_eq_of_places {negative : Bool} {u : ℕ} (hm : m.units ≠ 0) (hp : 0 < p)
    (hp' : p ≤ 12) (hu : Binary64.rounded negative (u / 10 ^ 10) = .finite negative m)
    (hsmall : m.value * (2 * 10 ^ 10) < 10 ^ p) :
    ∃ n z, rounded p m = written n z ∧ n ≠ 0 ∧ n < 10 ^ p ∧
      decimal n z = (u : ℚ) / 10 ^ 10 := by
  have hu0 : u ≠ 0 := by
    rintro rfl
    obtain ⟨m', hm', hvalue⟩ := rounded_natCast negative (Nat.zero_le _)
    rw [Nat.cast_zero, zero_div, ← Nat.cast_zero, hm'] at hu
    obtain ⟨-, rfl⟩ := Binary64.finite.inj hu
    exact hm (value_eq_zero.1 (by rw [hvalue, Nat.cast_zero]))
  have hone : (1 : ℚ) ≤ u := by exact_mod_cast Nat.pos_of_ne_zero hu0
  have hnear := near_of_rounded (by positivity) hu
  have hvalue : decimal u (-10) = (u : ℚ) / 10 ^ 10 := by
    rw [decimal, zpow_neg, div_eq_mul_inv]
    norm_num
  have hlt : u < 10 ^ p := by
    have hbelow := (abs_le.1 hnear).1
    have : (u : ℚ) < 10 ^ p := by linarith
    exact_mod_cast this
  rw [← hvalue] at hnear
  obtain ⟨n, z, hr, hn, hnp, hdecimal⟩ := rounded_eq_of_near hp hp' hu0 hlt
    (hnear.trans (by rw [hvalue]; linarith))
  exact ⟨n, z, hr, hn, hnp, hdecimal.trans hvalue⟩

/-- The digits of a value that was rounded to ten places go no further than these. -/
theorem exists_rounded_places {negative : Bool} (hm : m.units ≠ 0) (hp : 2 ≤ p) (hp' : p ≤ 12)
    (hplaces : OfPlaces negative m) :
    ∃ n z, rounded p m = written n z ∧ n ≠ 0 ∧ n < 10 ^ p ∧
      ∃ k : ℕ, decimal n z = k / 10 ^ 10 := by
  have hp'' : (10 : ℚ) ^ p ≤ 10 ^ 12 := pow_le_pow_right₀ (by norm_num) hp'
  rcases lt_or_ge (m.value * (2 * 10 ^ 10)) (10 ^ p) with hsmall | hlarge
  · rcases hplaces with ⟨u, hu⟩ | hbig
    · obtain ⟨n, z, hr, hn, hnp, hvalue⟩ := rounded_eq_of_places hm (by omega) hp' hu hsmall
      exact ⟨n, z, hr, hn, hnp, u, hvalue⟩
    · exact absurd hbig (by linarith)
  · obtain ⟨n, z, hr, hlow, hhigh, hnear⟩ := rounded_near hm hp
    have hn : n ≠ 0 := (lt_of_lt_of_le (Nat.pow_pos (by decide)) hlow).ne'
    refine ⟨n, z, hr, hn, hhigh, exists_places n ?_⟩
    have hexp : (p : ℤ) - 11 ≤ (written n z).exponent := by
      rw [le_written_exponent_iff hn]
      have hbelow := (abs_le.1 hnear).1
      have hpow : (10 : ℚ) ^ ((p : ℤ) - 11) = 10 ^ p / 10 ^ 11 := by
        rw [zpow_sub₀ (by norm_num), zpow_natCast]
        rfl
      have hpos : (0 : ℚ) < 10 ^ p := by positivity
      rw [hpow]
      linarith
    rw [written_exponent, length_ofNat_eq (by omega) hlow hhigh] at hexp
    omega

/-- **Without an exponent** the significant digits are those of a shown decimal. -/
theorem shown_of_significant {negative : Bool} (hm : m.units ≠ 0) (hp : 2 ≤ p) (hp' : p ≤ 12)
    (hplaces : OfPlaces negative m)
    (he : 'e' ∉ trimPlaces (signText negative ++ significant p m)) :
    ∃ c x, Shown c x ∧ trimPlaces (signText negative ++ significant p m) =
      signText negative ++ (ofScaled c x).positional := by
  obtain ⟨n, z, hr, hn, hnp, htenth⟩ := exists_rounded_places hm hp hp' hplaces
  by_cases hexp : -6 ≤ (written n z).exponent ∧ (written n z).exponent < p
  · obtain ⟨hlow, hhigh⟩ := (exponent_bounds_iff hn).1 hexp
    have hdigits : n < 10 ^ 12 := hnp.trans_le (Nat.pow_le_pow_right (by decide) hp')
    have hroom : decimal n z < 10 ^ 12 := hhigh.trans_le (pow_le_pow_right₀ (by norm_num) hp')
    exact ⟨n, z, ⟨hn, hdigits, htenth, hlow, hroom⟩, significant_of_positional hr hn hexp⟩
  · rw [significant_of_exponential hr hexp] at he
    exact absurd (List.mem_append_right _ (e_mem_exponential _)) he

end Forms

/-- **Without an exponent** the text is `0` or that of a decimal the display can hold. -/
theorem exists_shown {v : Binary64} (hv : v.isFinite) (he : 'e' ∉ text v) :
    text v = ['0'] ∨
      ∃ negative c x, Shown c x ∧ text v = signText negative ++ (ofScaled c x).positional := by
  obtain ⟨negative, m, htext, hplaces⟩ := exists_text_eq hv
  rw [htext] at he ⊢
  by_cases hm : m.units = 0
  · exact .inl (finiteText_of_zero hm)
  refine .inr ⟨negative, ?_⟩
  obtain ⟨c, x, hs, hc, -⟩ := shortest_near hm
  by_cases hexp : -6 ≤ (written c x).exponent ∧ (written c x).exponent < 21
  · rcases le_or_gt (signText negative ++ (written c x).positional).length 12 with hlen | hlen
    · have hshort := finiteText_of_short hm hs hc hexp hlen
      obtain ⟨hdigits, hwhole, htenth⟩ := digits_length_le_positional c x
      rw [List.length_append] at hlen
      have hexp' : -6 ≤ (written c x).exponent ∧ (written c x).exponent < (12 : ℕ) :=
        ⟨hexp.1, by omega⟩
      obtain ⟨hlow, hhigh⟩ := (exponent_bounds_iff hc).1 hexp'
      have hlt : c < 10 ^ 12 := (Text.length_ofNat_le_iff (by decide)).1 (by omega)
      exact ⟨c, x, ⟨hc, hlt, exists_places c (by omega), hlow, hhigh⟩, hshort⟩
    · rw [finiteText_of_long hm hs hexp hlen] at he ⊢
      exact shown_of_significant hm (by decide) le_rfl hplaces he
  · rw [finiteText_of_exponent hm hs hexp] at he ⊢
    exact shown_of_significant hm (by decide) (by decide) hplaces he

/-! ### Back to the same text -/

/-- The least decimal that is shown without an exponent. Its value lies below it. -/
theorem text_least (negative : Bool) :
    text (ofDecimal negative 1 (-6)) = signText negative ++ (ofScaled 1 (-6)).positional := by
  cases negative <;> decide +kernel

/-- The units of the tenth place have the sign of a value that is not too small. -/
theorem sign_of_units {negative : Bool} {m : Magnitude} {u : ℤ} (hm : 3 / 4 ≤ m.value * 10 ^ 10)
    (h : |u - (finite negative m).toRat * 10 ^ 10| ≤
      51 / 100 + m.value * 10 ^ 10 / 2 ^ 51 + 1 / 10 ^ 5) :
    u ≠ 0 ∧ decide (u < 0) = negative := by
  obtain ⟨hunder, hover⟩ := abs_le.1 h
  cases negative with
  | false =>
    rw [toRat_finite_false] at hunder
    have hpos : (0 : ℚ) < u := by linarith
    have hpos : 0 < u := by exact_mod_cast hpos
    exact ⟨hpos.ne', decide_eq_false (by omega)⟩
  | true =>
    rw [toRat_finite_true] at hover
    have hneg : (u : ℚ) < 0 := by linarith
    have hneg : u < 0 := by exact_mod_cast hneg
    exact ⟨hneg.ne, decide_eq_true hneg⟩

/-- Rounding to ten places keeps the value of a decimal of ten places near to it. Below `2 ^ 49`
units of the tenth place it hits the very units. -/
theorem roundToTenPlaces_near {negative : Bool} {m : Magnitude} {d : ℚ} {k : ℕ} (hk : k ≠ 0)
    (hd : d = k / 10 ^ 10) (hm : Binary64.rounded negative d = .finite negative m) :
    ∃ m', roundToTenPlaces (.finite negative m) = .finite negative m' ∧
      |m'.value - d| ≤ d / 2 ^ 48 := by
  have hone : (1 : ℚ) ≤ k := by exact_mod_cast Nat.pos_of_ne_zero hk
  have hnear := near_of_rounded (by rw [hd]; positivity) hm
  obtain ⟨hbelow, habove⟩ := abs_le.1 hnear
  obtain ⟨negative', m', hround, hcases⟩ := roundToTenPlaces_cases (x := .finite negative m) rfl
  rw [abs_toRat_finite] at hcases
  rcases hcases with ⟨u, hu, hsign, hclose⟩ | ⟨hbig, heq⟩
  · have habs := abs_natAbs_sub_le hclose
    rw [abs_toRat_finite] at habs
    obtain ⟨hunder, hover⟩ := abs_le.1 habs
    obtain ⟨hu0, hnegative⟩ := sign_of_units (by linarith) hclose
    obtain rfl : negative' = negative := (hsign hu0).trans hnegative
    refine ⟨m', hround, ?_⟩
    -- Below `2 ^ 49` the units are less than one apart, hence equal. Beyond it a unit is little
    -- against the value.
    rcases Nat.lt_or_ge k (2 ^ 49) with hsmall | hlarge
    · have hk' : (k : ℚ) < 2 ^ 49 := by exact_mod_cast hsmall
      have hlt : |(u.natAbs : ℚ) - k| < 1 := by
        rw [abs_lt]
        constructor <;> linarith
      have hlt : |(u.natAbs : ℤ) - k| < 1 := by exact_mod_cast hlt
      rw [Int.abs_lt_one_iff] at hlt
      have huk : u.natAbs = k := by omega
      rw [huk, ← hd, hm] at hu
      obtain ⟨-, rfl⟩ := Binary64.finite.inj hu
      linarith
    · have hk' : (2 : ℚ) ^ 49 ≤ k := by exact_mod_cast hlarge
      obtain ⟨hbelow', habove'⟩ := abs_le.1 (near_of_rounded (by positivity) hu)
      rw [abs_le]
      constructor <;> linarith
  · obtain ⟨rfl, rfl⟩ := Binary64.finite.inj heq
    refine ⟨m, hround, ?_⟩
    rw [abs_le]
    constructor <;> linarith

/-- **A decimal that is shown without an exponent** is what its own value is shown as. -/
theorem text_of_shown {c : ℕ} {x : ℤ} (h : Shown c x) (negative : Bool) :
    ∃ m, Binary64.rounded negative (decimal c x) = .finite negative m ∧
      text (.finite negative m) = signText negative ++ (ofScaled c x).positional := by
  obtain ⟨hc, hdigits, ⟨k, hk⟩, hlow, hhigh⟩ := h
  have hroom : decimal c x ≤ 2 ^ 1023 :=
    hhigh.le.trans (le_trans (by norm_num)
      (pow_le_pow_right₀ (by norm_num) (by norm_num : 50 ≤ 1023)))
  obtain ⟨m, hm⟩ := exists_rounded_eq negative (decimal_nonneg c x) hroom
  refine ⟨m, hm, ?_⟩
  have hk' : (10 : ℚ) ^ 4 ≤ k := by linarith
  rcases eq_or_ne k (10 ^ 4) with rfl | hne
  · have hvalue : decimal c x = decimal 1 (-6) := by
      rw [hk, decimal, zpow_neg]
      norm_num
    rw [← hm, hvalue, ← ofDecimal_eq_rounded negative one_ne_zero (by decide) (by decide),
      text_least, ofScaled_congr hc one_ne_zero hvalue]
  · have hk'' : (10 : ℚ) ^ 4 + 1 ≤ k := by
      have : 10 ^ 4 ≤ k := by exact_mod_cast hk'
      exact_mod_cast Nat.succ_le_of_lt (lt_of_le_of_ne this hne.symm)
    have hk0 : k ≠ 0 := by
      rintro rfl
      norm_num at hk'
    obtain ⟨m', hround, hnear⟩ := roundToTenPlaces_near hk0 hk hm
    rw [text_eq_finiteText rfl hround]
    exact finiteText_of_near hc hdigits (by linarith) hhigh hnear

/-- Only zeros stand for zero. -/
theorem eq_zero_of_toRat {v : Binary64} (hv : v.isFinite) (h : v.toRat = 0) : ∃ a, v = zero a := by
  obtain ⟨a, m, rfl⟩ := exists_finite_of_isFinite hv
  have hvalue : m.value = 0 := by rw [← abs_toRat_finite a m, h, abs_zero]
  have hm : m.units = 0 := value_eq_zero.1 hvalue
  obtain ⟨units, hunits⟩ := m
  obtain rfl : units = 0 := hm
  exact ⟨a, rfl⟩

/-- A zero of either sign is shown without one. -/
theorem text_zero (a : Bool) : text (zero a) = ['0'] := by
  cases a <;> decide +kernel

end Display
end PocketCalculator
