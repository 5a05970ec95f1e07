/-
# Evaluating what is shown

A shown value is evaluated again when a result becomes the expression. Without an exponent its text
is the text of what it is evaluated to, so that nothing changes on the display. With an exponent it
is not: the scanner passes over the `e` and takes the sign behind it for an operator, so that
`1.000000000e+21` is evaluated to `1 + 21`.

`Display.redisplay_iff` is the result. In one direction, a decimal that is shown without an exponent
is evaluated to its own value, which is shown alike. In the other direction, what an exponential
text is evaluated to is zero or lies in the middle of the range, where no text has an exponent.
-/

import PocketCalculator.Proofs.ExponentialText

namespace PocketCalculator
namespace Display

open Binary64 Scientific

seal unitsOfOne unitsLimit

/-- A value that is shown without an exponent is evaluated to one that is shown alike. -/
theorem redisplay_of_not_mem {v : Binary64} (hv : v.isFinite) (he : 'e' ∉ text v) :
    ∃ w, Outcome.ofExpression (text v) = .success w ∧ text w = text v := by
  rcases exists_shown hv he with htext | ⟨negative, c, x, hshown, htext⟩
  · have hzero : Outcome.ofExpression ['0'] = .success (zero false) := by decide +kernel
    rw [htext]
    exact ⟨_, hzero, text_zero false⟩
  · obtain ⟨m, hm, hback⟩ := text_of_shown hshown negative
    have hfinite : (Binary64.rounded negative (decimal c x)).isFinite := by rw [hm]; rfl
    rw [htext, Outcome.ofExpression,
      evaluate_positional hshown.ne_zero hshown.le_exponent hfinite, hm]
    exact ⟨_, rfl, hback⟩

/-! ### What an exponential text is evaluated to -/

/-- Values in the middle of the range are shown without an exponent. -/
theorem e_not_mem_text {w : Binary64} (hw : w.isFinite) (hlow : 1 / 10 ^ 4 ≤ |w.toRat|)
    (hhigh : |w.toRat| ≤ 10 ^ 3) : 'e' ∉ text w := by
  obtain ⟨negative, m, hround, hcases⟩ := roundToTenPlaces_cases hw
  rw [text_eq_finiteText hw hround]
  rcases hcases with ⟨u, hu, -, hunits⟩ | ⟨hbig, rfl⟩
  · obtain ⟨hunder, hover⟩ := abs_le.1 (abs_natAbs_sub_le hunits)
    obtain ⟨hbelow, habove⟩ := abs_le.1 (near_of_rounded (by positivity) hu)
    exact e_not_mem_finiteText (by linarith) (by linarith)
  · rw [abs_toRat_finite] at hhigh
    exact absurd hbig (by linarith)

/-- A small decimal of ten places has few digits behind its first. -/
theorem exists_places_leading {n k : ℕ} {z : ℤ} (hk : decimal n z = k / 10 ^ 10)
    (hexp : (written n z).exponent ≤ -7) :
    ∃ k' : ℕ, decimal n (z - (written n z).exponent) = k' / 10 ^ 3 := by
  refine ⟨k * 10 ^ (-7 - (written n z).exponent).toNat, ?_⟩
  have hexpand : decimal n (z - (written n z).exponent) =
      decimal n z * 10 ^ (-(written n z).exponent) := by
    rw [decimal, decimal, mul_assoc, ← zpow_add₀ (by norm_num)]
    rfl
  have hshift : ((10 ^ (-7 - (written n z).exponent).toNat : ℕ) : ℚ) =
      10 ^ (-(written n z).exponent) / 10 ^ 7 := by
    rw [Nat.cast_pow, Nat.cast_ofNat, ← zpow_natCast, ← zpow_natCast, ← zpow_sub₀ (by norm_num)]
    congr 1
    omega
  rw [hexpand, hk, Nat.cast_mul, hshift]
  ring

/-- **An exponential text** has at least two digits. Its exponent is far from zero; or it is small,
and the digits go no further than three behind the point. -/
theorem exists_exponential {v : Binary64} (hv : v.isFinite) (he : 'e' ∈ text v) :
    ∃ negative n z, text v = signText negative ++ (written n z).exponential ∧ 10 ≤ n ∧
      n < 10 ^ 12 ∧ (11 ≤ |(written n z).exponent| ∧ |(written n z).exponent| ≤ 400 ∨
        -10 ≤ (written n z).exponent ∧ (written n z).exponent ≤ -7 ∧
          ∃ k : ℕ, decimal n (z - (written n z).exponent) = k / 10 ^ 3) := by
  obtain ⟨negative, n, z, htext, h, k, hk⟩ := exists_exponential_of_mem hv he
  refine ⟨negative, n, z, htext, h.digits.1, h.digits.2, ?_⟩
  rcases h.exponent_cases hk with ⟨hleast, hgreatest⟩ | ⟨hleast, hgreatest⟩
  · rw [abs_of_nonneg (by omega)]
    exact .inl ⟨by omega, by omega⟩
  · exact .inr ⟨hleast, hgreatest, exists_places_leading hk hgreatest⟩

/-- **An exponential text** is evaluated as two numerals with an operator between them. -/
theorem evaluate_exponential {negative : Bool} {n : ℕ} {z : ℤ} (hn : 10 ≤ n) :
    Evaluation.evaluate (signText negative ++ (written n z).exponential) =
      (exponentOperator (written n z).exponent).apply
        (.ofDecimal negative n (z - (written n z).exponent))
        (.ofDecimal false (written n z).exponent.natAbs 0) >>= fun w => Postfix.conclude [w] := by
  have hdigits' : Numeral.Digits (Text.ofNat (written n z).exponent.natAbs) none :=
    ⟨Text.ofNat_ne_nil _, fun c hc => Text.isDigit_of_mem_ofNat hc, by simp⟩
  have hread := @Numeral.read_plain negative _ _ (digits_leading n)
  have hread' := @Numeral.read_plain false _ _ hdigits'
  have hplain : Numeral.plain false (Text.ofNat (written n z).exponent.natAbs) none =
      Text.ofNat (written n z).exponent.natAbs := by simp [Numeral.plain, signText]
  rw [Option.getD_some, List.take_append_drop, digitsValue_ofNat, neg_length_drop n z] at hread
  rw [Option.getD_none, List.append_nil, digitsValue_ofNat, List.length_nil, Nat.cast_zero,
    neg_zero] at hread'
  rw [exponential_eq_plain negative hn, List.append_cons, ← hplain]
  exact Evaluation.evaluate_pair _ (by decide) (Numeral.spelled_plain (digits_leading n))
    (Numeral.spelled_plain hdigits') hread hread'

/-- What the operator gives at a value and the number of an exponent. -/
theorem apply_exponentOperator {a : Binary64} {e : ℤ} (ha : a.isFinite) (hlimit : |a.toRat| ≤ 11)
    (he : e ≠ 0) (he' : |e| ≤ 400) :
    ∃ w, (exponentOperator e).apply a (.ofDecimal false e.natAbs 0) = .ok w ∧ w.isFinite ∧
      |w.toRat - (a.toRat + e)| ≤ |a.toRat + e| / 2 ^ 53 + 1 / 2 ^ 100 ∧
        (a.toRat + e = 0 → w.toRat = 0) := by
  obtain ⟨m, hm, hvalue⟩ := rounded_natCast false (n := e.natAbs) (by
    rw [Int.abs_eq_natAbs] at he'
    exact le_trans (by omega) (by norm_num : 400 ≤ 2 ^ 53))
  have hb : ofDecimal false e.natAbs 0 = .finite false m := by
    rw [ofDecimal_eq_rounded false (Int.natAbs_ne_zero.2 he) (by decide) (by decide), decimal,
      zpow_zero, mul_one, hm]
  have hroom : |a.toRat + e| ≤ 2 ^ 1023 := by
    have hsum := abs_add_le a.toRat e
    have hcast : |(e : ℚ)| ≤ 400 := by exact_mod_cast he'
    have hsmall : |a.toRat + e| ≤ 2 ^ 10 := by
      norm_num
      linarith
    exact hsmall.trans (pow_le_pow_right₀ (by norm_num) (by norm_num))
  rw [hb]
  have hnatAbs : (m.value : ℚ) = |(e : ℚ)| := by rw [hvalue, Nat.cast_natAbs, Int.cast_abs]
  -- The sign of the exponent is the operator, and its number is what the operator takes.
  rcases lt_or_ge e 0 with hneg | hpos
  · have hcast : (e : ℚ) < 0 := by exact_mod_cast hneg
    have hop : exponentOperator e = .minus := if_pos hneg
    have hrat : a.toRat + e = a.toRat - (finite false m).toRat := by
      rw [toRat_finite_false, hnatAbs, abs_of_neg hcast, sub_neg_eq_add]
    rw [hop, hrat]
    rw [hrat] at hroom
    obtain ⟨hfinite, hnear⟩ := near_sub ha rfl hroom
    exact ⟨_, rfl, hfinite, hnear, fun hzero => by
      simpa using (sub_eq_intCast (n := 0) ha rfl (by simpa using hzero) (by decide)).2⟩
  · have hcast : (0 : ℚ) ≤ e := by exact_mod_cast hpos
    have hop : exponentOperator e = .plus := if_neg (not_lt.2 hpos)
    have hrat : a.toRat + e = a.toRat + (finite false m).toRat := by
      rw [toRat_finite_false, hnatAbs, abs_of_nonneg hcast]
    rw [hop, hrat]
    rw [hrat] at hroom
    obtain ⟨hfinite, hnear⟩ := near_add ha rfl hroom
    exact ⟨_, rfl, hfinite, hnear, fun hzero => by
      simpa using (add_eq_intCast (n := 0) ha rfl (by simpa using hzero) (by decide)).2⟩

/-- A number of at most three places and a whole number cancel out or leave something. -/
theorem sum_of_places {m : Magnitude} {d : ℚ} {e : ℤ} {k : ℕ} (hd : d = k / 10 ^ 3) (he : -10 ≤ e)
    (he' : e ≤ 0) (hten : d < 10) (hm : Binary64.rounded false d = .finite false m)
    (hnear : |m.value - d| ≤ d / 2 ^ 53 + 1 / 2 ^ 100) :
    m.value + e = 0 ∨ 1 / 2000 ≤ |m.value + e| := by
  -- In thousandths both are whole: they cancel out exactly, or differ by a thousandth at least.
  rcases eq_or_ne ((k : ℤ) + 1000 * e) 0 with hzero | hne
  · left
    have hcast : (k : ℚ) + 1000 * e = 0 := by exact_mod_cast hzero
    have habs : (e.natAbs : ℚ) = -e := by
      rw [Nat.cast_natAbs, Int.cast_abs, abs_of_nonpos (by exact_mod_cast he')]
    have hwhole : d = e.natAbs := by
      rw [hd, habs]
      linarith
    have hsmall : e.natAbs ≤ 2 ^ 53 := le_trans (by omega : _ ≤ 10) (by norm_num)
    obtain ⟨m', hm', hvalue⟩ := rounded_natCast false hsmall
    rw [hwhole, hm'] at hm
    obtain ⟨-, rfl⟩ := Binary64.finite.inj hm
    rw [hvalue, habs, neg_add_cancel]
  · right
    have hone : 1 ≤ |(k : ℚ) + 1000 * e| := by exact_mod_cast Int.one_le_abs hne
    have hsum : |d + e| = |(k : ℚ) + 1000 * e| / 1000 := by
      have hsplit : d + e = (k + 1000 * e) / 1000 := by
        rw [hd]
        ring
      rw [hsplit, abs_div, abs_of_pos (by norm_num : (0 : ℚ) < 1000)]
    have htri := abs_sub_abs_le_abs_sub (d + e) (m.value + e)
    rw [add_sub_add_right_eq_sub, abs_sub_comm] at htri
    linarith

/-- The digits of an exponential text and its exponent cancel out, or their sum lies in the middle
of the range. -/
theorem sum_cases {negative : Bool} {m : Magnitude} {d : ℚ} {e : ℤ} (hone : 1 ≤ d) (hten : d < 10)
    (hm : Binary64.rounded negative d = .finite negative m)
    (hnear : |m.value - d| ≤ d / 2 ^ 53 + 1 / 2 ^ 100)
    (hexp : 11 ≤ |e| ∧ |e| ≤ 400 ∨ -10 ≤ e ∧ e ≤ -7 ∧ ∃ k : ℕ, d = k / 10 ^ 3) :
    (finite negative m).toRat + e = 0 ∨
      1 / 2000 ≤ |(finite negative m).toRat + e| ∧ |(finite negative m).toRat + e| ≤ 500 := by
  obtain ⟨hbelow, habove⟩ := abs_le.1 hnear
  have hupper := abs_add_le (finite negative m).toRat e
  rw [abs_toRat_finite] at hupper
  -- A far exponent outweighs the digits. A near one is negative, and can cancel only digits without
  -- a sign.
  rcases hexp with ⟨hfar, hbounded⟩ | ⟨hleast, hgreatest, k, hk⟩
  · have hfar' : 11 ≤ |(e : ℚ)| := by exact_mod_cast hfar
    have hbounded' : |(e : ℚ)| ≤ 400 := by exact_mod_cast hbounded
    have hlower := abs_sub_abs_le_abs_sub (e : ℚ) (-(finite negative m).toRat)
    rw [sub_neg_eq_add, abs_neg, abs_toRat_finite, add_comm] at hlower
    exact .inr ⟨by linarith, by linarith⟩
  · have hsmall : |e| ≤ 10 := abs_le.2 ⟨hleast, by omega⟩
    have hsmall' : |(e : ℚ)| ≤ 10 := by exact_mod_cast hsmall
    have hroom : |(finite negative m).toRat + e| ≤ 500 := by linarith
    cases negative with
    | false =>
      rw [toRat_finite_false] at hroom ⊢
      exact (sum_of_places hk hleast (by omega) hten hm hnear).imp_right fun h => ⟨h, hroom⟩
    | true =>
      have hgreatest' : (e : ℚ) ≤ -7 := by exact_mod_cast hgreatest
      have hneg : (finite true m).toRat + e < -1 := by
        rw [toRat_finite_true]
        linarith
      refine .inr ⟨?_, hroom⟩
      rw [abs_of_neg (by linarith)]
      linarith

/-- **An exponential text** is evaluated to a value that is shown without an exponent. -/
theorem redisplay_of_exponential {negative : Bool} {n : ℕ} {z : ℤ} (hn : 10 ≤ n)
    (hn' : n < 10 ^ 12)
    (hexp : 11 ≤ |(written n z).exponent| ∧ |(written n z).exponent| ≤ 400 ∨
      -10 ≤ (written n z).exponent ∧ (written n z).exponent ≤ -7 ∧
        ∃ k : ℕ, decimal n (z - (written n z).exponent) = k / 10 ^ 3) :
    ∃ w, Outcome.ofExpression (signText negative ++ (written n z).exponential) = .success w ∧
      'e' ∉ text w := by
  have hn0 : n ≠ 0 := by omega
  have hlen := (Text.length_ofNat_le_iff (k := 12) (by decide)).2 hn'
  have hlen' := Text.length_ofNat_pos n
  have hdigits := written_exponent n z
  have hevaluate := @evaluate_exponential negative n z hn
  -- The digits, with the point behind the first of them.
  have hleading : (written n (z - (written n z).exponent)).exponent = 0 := by
    rw [written_exponent]
    omega
  obtain ⟨hone, hten⟩ := written_exponent_bounds hn0 (z - (written n z).exponent)
  rw [hleading, zpow_zero] at hone
  rw [hleading, zero_add, zpow_one] at hten
  rw [ofDecimal_eq_rounded negative hn0 (by omega) (by omega)] at hevaluate
  generalize (written n z).exponent = e at *
  generalize decimal n (z - e) = d at *
  have hroom : (10 : ℚ) ≤ 2 ^ 1023 :=
    le_trans (by norm_num) (pow_le_pow_right₀ (by norm_num) (by norm_num : 4 ≤ 1023))
  obtain ⟨m, hm, hnear⟩ := near_rounded negative (zero_le_one.trans hone) (hten.le.trans hroom)
  rw [hm] at hevaluate
  have hsize : |(finite negative m).toRat| ≤ 11 := by
    rw [abs_toRat_finite]
    have habove := (abs_le.1 hnear).2
    generalize (2 : ℚ) ^ 1023 = limit at hroom
    linarith
  obtain ⟨hne, hbounded⟩ : e ≠ 0 ∧ |e| ≤ 400 := by
    rcases hexp with ⟨hfar, hbounded⟩ | ⟨hleast, hgreatest, -⟩
    · exact ⟨by rintro rfl; simp at hfar, hbounded⟩
    · exact ⟨by omega, abs_le.2 ⟨by omega, by omega⟩⟩
  obtain ⟨w, happly, hw, hclose, hcancel⟩ := apply_exponentOperator rfl hsize hne hbounded
  refine ⟨w, ?_, ?_⟩
  · rw [Outcome.ofExpression, hevaluate, happly]
    exact congrArg Outcome.ofResult (if_pos hw)
  · rcases sum_cases hone hten hm hnear hexp with hzero | ⟨hlow, hhigh⟩
    · obtain ⟨a, rfl⟩ := eq_zero_of_toRat hw (hcancel hzero)
      rw [text_zero]
      decide
    · have hdown := abs_sub_abs_le_abs_sub ((finite negative m).toRat + e) w.toRat
      have hup := abs_sub_abs_le_abs_sub w.toRat ((finite negative m).toRat + e)
      rw [abs_sub_comm] at hdown
      generalize (2 : ℚ) ^ 1023 = limit at hroom
      exact e_not_mem_text hw (by linarith) (by linarith)

/-- **A shown value is evaluated again.** What comes out is shown as it was just if there is no
exponent in its text. -/
theorem redisplay_iff {v : Binary64} (hv : v.isFinite) :
    ∃ w, Outcome.ofExpression (text v) = .success w ∧ (text w = text v ↔ 'e' ∉ text v) := by
  by_cases he : 'e' ∈ text v
  · obtain ⟨negative, n, z, htext, hn, hn', hexp⟩ := exists_exponential hv he
    obtain ⟨w, hw, hplain⟩ := @redisplay_of_exponential negative n z hn hn' hexp
    refine ⟨w, htext ▸ hw, fun h => ?_, fun h => absurd he h⟩
    rw [h] at hplain
    exact hplain
  · obtain ⟨w, hw, hback⟩ := redisplay_of_not_mem hv he
    exact ⟨w, hw, fun _ => he, fun _ => hback⟩

/-- The first power of ten with an exponent. -/
theorem redisplay_iff_ten_pow :
    (Binary64.ofDecimal false 1 21).isFinite ∧
      ∃ w, Outcome.ofExpression (text (.ofDecimal false 1 21)) = .success w ∧
        text w ≠ text (.ofDecimal false 1 21) := by
  have hfinite : (Binary64.ofDecimal false 1 21).isFinite := by decide +kernel
  have he : 'e' ∈ text (.ofDecimal false 1 21) := by decide +kernel
  obtain ⟨w, hw, hiff⟩ := redisplay_iff hfinite
  exact ⟨hfinite, w, hw, fun h => hiff.1 h he⟩

end Display
end PocketCalculator
