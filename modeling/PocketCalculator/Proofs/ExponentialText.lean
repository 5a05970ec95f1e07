/-
# The texts with an exponent

A text with an exponent has ten or twelve digits, of four kinds (`Display.Exponential`): a few units
of the tenth place, the first twelve digits of a number that has more before the point, the first
ten of a value from `10²¹`, and the ten of the values next to `2¹⁰²⁴`. The decimal of the text lies
on the grid of its last digit, and so does `10²¹`: unless it is `10²¹`, it lies a whole step away
from it, further than rounding moves its value. So its value has a text of the same kind, with the
same digits. This is `Display.Exponential.text_rounded`, which leaves out two strings of digits:

- twelve digits for `10²¹`, which is shown with ten;
- the ten digits of the greatest values, which stand for more than any value.
-/

import PocketCalculator.Proofs.PositionalText

namespace PocketCalculator

namespace Scientific

open Binary64

seal unitsOfOne unitsLimit

variable {m : Magnitude} {n n' p : ℕ} {y z z' : ℤ}

/-! ### Digits of a fixed number -/

/-- The digits and the exponent of a decimal give back its coefficient and its exponent of ten. -/
theorem written_inj (h : written n z = written n' z') : n = n' ∧ z = z' := by
  have hdigits : Text.ofNat n = Text.ofNat n' := congrArg Scientific.digits h
  have hexp : (written n z).exponent = (written n' z').exponent := congrArg Scientific.exponent h
  have hn : n = n' := by
    rw [← Nat.ofDigitChars_ten_toDigits (n := n), ← Text.ofNat, hdigits, Text.ofNat,
      Nat.ofDigitChars_ten_toDigits]
  refine ⟨hn, ?_⟩
  rw [written_exponent, written_exponent, hdigits] at hexp
  omega

/-- The exponent of the first digit depends on the number alone. -/
theorem exponent_congr (hn : n ≠ 0) (hn' : n' ≠ 0) (h : decimal n z = decimal n' z') :
    (written n z).exponent = (written n' z').exponent := by
  refine le_antisymm ?_ ?_
  · rw [le_written_exponent_iff hn', ← h, ← le_written_exponent_iff hn]
  · rw [le_written_exponent_iff hn, h, ← le_written_exponent_iff hn']

/-- Two decimals of the same number of digits are written alike if they are equal. -/
theorem eq_of_decimal_eq_of_digits (hp : 0 < p) (hlow : 10 ^ (p - 1) ≤ n) (hhigh : n < 10 ^ p)
    (hlow' : 10 ^ (p - 1) ≤ n') (hhigh' : n' < 10 ^ p) (h : decimal n z = decimal n' z') :
    n = n' ∧ z = z' := by
  have hpos : 0 < 10 ^ (p - 1) := Nat.pow_pos (by decide)
  have hexp := exponent_congr (by omega) (by omega) h
  rw [written_exponent, written_exponent, Display.length_ofNat_eq hp hlow hhigh,
    Display.length_ofNat_eq hp hlow' hhigh'] at hexp
  obtain rfl : z = z' := by omega
  have hten : ((10 : ℚ) ^ z) ≠ 0 := by positivity
  refine ⟨?_, rfl⟩
  rw [decimal, decimal, mul_left_inj' hten] at h
  exact_mod_cast h

/-- A decimal below a power of ten has a smaller exponent of ten. -/
theorem lt_of_decimal_lt (hn : n ≠ 0) (h : decimal n z < 10 ^ y) : z < y := by
  have hexp := (written_exponent_lt_iff hn).2 h
  have hlen := Text.length_ofNat_pos n
  rw [written_exponent] at hexp
  omega

/-- A magnitude near to a decimal of `p` digits is written with these digits. -/
theorem rounded_eq_written (hp : 0 < p) (hp' : p ≤ 12) (hlow : 10 ^ (p - 1) ≤ n)
    (hhigh : n < 10 ^ p) (hnear : |m.value - decimal n z| ≤ decimal n z / 2 ^ 48) :
    rounded p m = written n z := by
  have hn : n ≠ 0 := (lt_of_lt_of_le (Nat.pow_pos (by decide)) hlow).ne'
  have hpos := decimal_pos hn z
  have hm : m.units ≠ 0 := Display.units_ne_zero (by linarith [(abs_le.1 hnear).1])
  obtain ⟨n', z', hr, -, -, hvalue⟩ :=
    rounded_eq_of_near hp hp' hn hhigh (hnear.trans (by linarith))
  obtain ⟨n'', z'', -, hr', hlow', hhigh', -⟩ := rounded_spec hm hp
  obtain ⟨rfl, rfl⟩ := written_inj (hr.symm.trans hr')
  obtain ⟨rfl, rfl⟩ := eq_of_decimal_eq_of_digits hp hlow' hhigh' hlow hhigh hvalue
  exact hr

/-- On a grid that is not finer, there is only one decimal so near to `10²¹`. -/
theorem decimal_eq_ten_pow (hy : y ≤ z) (hy' : y ≤ 21) (h : |decimal n z - 10 ^ 21| < 10 ^ y) :
    decimal n z = 10 ^ 21 := by
  have hten : decimal 1 21 = 10 ^ 21 := by
    rw [decimal, Nat.cast_one, one_mul]
    norm_num
  rw [← hten] at h ⊢
  exact decimal_eq_of_sub_lt hy' hy h

/-- Next to `10²¹` lies a whole step of a grid that is not finer. -/
theorem step_of_ne {y : ℕ} (hy : (y : ℤ) ≤ z) (hy' : y ≤ 21) (hne : decimal n z ≠ 10 ^ 21) :
    decimal n z ≤ 10 ^ 21 - 10 ^ y ∨ 10 ^ 21 + 10 ^ y ≤ decimal n z := by
  have hfar := mt (decimal_eq_ten_pow hy (by omega)) hne
  rw [zpow_natCast, not_lt, le_abs] at hfar
  rcases hfar with habove | hbelow
  · exact .inr (by linarith)
  · exact .inl (by linarith)

end Scientific

namespace Display

open Binary64 Scientific

seal unitsOfOne unitsLimit

variable {negative : Bool} {m : Magnitude} {n k : ℕ} {z : ℤ}

/-! ### How an exponential text is spelled -/

/-- The operator that the scanner takes the sign of an exponent for. -/
def exponentOperator (e : ℤ) : Operator := if e < 0 then .minus else .plus

/-- The operator is spelled as the sign of the exponent, a plus where that is not negative. -/
theorem symbol_exponentOperator (e : ℤ) :
    (exponentOperator e).symbol = if e < 0 then '-' else '+' := by
  unfold exponentOperator
  split <;> rfl

/-- The digits of a number are read as that number. -/
theorem digitsValue_ofNat (k : ℕ) : Numeral.digitsValue (Text.ofNat k) = k :=
  Nat.ofDigitChars_ten_toDigits

/-- The first digit of a number, and a point with the others behind it. -/
theorem digits_leading (n : ℕ) :
    Numeral.Digits ((Text.ofNat n).take 1) (some ((Text.ofNat n).drop 1)) := by
  refine ⟨?_, fun c hc => Text.isDigit_of_mem_ofNat (List.mem_of_mem_take hc),
    fun c hc => Text.isDigit_of_mem_ofNat (List.mem_of_mem_drop hc)⟩
  rw [ne_eq, List.take_eq_nil_iff, not_or]
  exact ⟨one_ne_zero, Text.ofNat_ne_nil n⟩

/-- An exponential text is plain up to its exponent. -/
theorem exponential_eq_plain (negative : Bool) {n : ℕ} (hn : 10 ≤ n) (z : ℤ) :
    signText negative ++ (written n z).exponential =
      Numeral.plain negative ((Text.ofNat n).take 1) (some ((Text.ofNat n).drop 1)) ++
        'e' :: (exponentOperator (written n z).exponent).symbol ::
          Text.ofNat (written n z).exponent.natAbs := by
  have hlen : 1 < (Text.ofNat n).length := by
    by_contra hle
    have := (Text.length_ofNat_le_iff (by decide)).1 (not_lt.1 hle)
    omega
  rw [exponential, written_digits, if_neg (not_le.2 hlen), symbol_exponentOperator]
  simp [Numeral.plain, signText]

/-- The places behind the first digit count for the exponent. -/
theorem neg_length_drop (n : ℕ) (z : ℤ) :
    -(((Text.ofNat n).drop 1).length : ℤ) = z - (written n z).exponent := by
  have hlen := Text.length_ofNat_pos n
  rw [List.length_drop, written_exponent]
  omega

/-! ### Which exponential texts there are -/

/-- The digits of a text with an exponent, and the power of ten that counts them. -/
inductive Exponential (n : ℕ) (z : ℤ) : Prop
  /-- A few units of the tenth place. -/
  | small (hlow : 10 ^ 9 ≤ n) (hhigh : n < 10 ^ 10) (hvalue : decimal n z ≤ 9999 / 10 ^ 10)
  /-- More than twelve digits before the point, twelve of which are shown. -/
  | whole (hlow : 10 ^ 11 ≤ n) (hhigh : n < 10 ^ 12) (hleast : 10 ^ 12 ≤ decimal n z)
      (hgreatest : decimal n z ≤ 10 ^ 21)
  /-- Ten digits of what is not below `10²¹`. -/
  | large (hlow : 10 ^ 9 ≤ n) (hhigh : n < 10 ^ 10) (hleast : 10 ^ 21 ≤ decimal n z)
      (hgreatest : decimal n z ≤ 1797693134 * 10 ^ 299)
  /-- The digits of the values next to the first power of two beyond all values. -/
  | greatest (hn : n = 1797693135) (hz : z = 299)

/-- The limit of all values between two decimals of eleven digits. -/
theorem limit_bounds :
    17976931348 * (10 : ℚ) ^ 299 ≤ 10 * 2 ^ 1024 ∧
      10 * (2 : ℚ) ^ 1024 ≤ 17976931349 * 10 ^ 299 := by
  have hlow : 17976931348 * 10 ^ 299 ≤ 10 * 2 ^ 1024 := by decide +kernel
  have hhigh : 10 * 2 ^ 1024 ≤ 17976931349 * 10 ^ 299 := by decide +kernel
  exact ⟨by exact_mod_cast hlow, by exact_mod_cast hhigh⟩

/-- Ten digits of a value stand for little more than the value. -/
theorem decimal_lt_of_grid {y : ℤ} (hgrid : 10 ^ 9 * 10 ^ y ≤ m.value)
    (hnear : |decimal n z - m.value| ≤ 10 ^ y / 2) : decimal n z < 1797693136 * 10 ^ 299 := by
  have hlimit := limit_bounds.2
  have hm := m.value_lt
  have hten : (0 : ℚ) < 10 ^ 299 := by positivity
  have hvalue := (abs_le.1 hnear).2
  generalize (10 : ℚ) ^ 299 = ten at *
  generalize (2 : ℚ) ^ 1024 = limit at *
  linarith

/-- Of the decimals of ten digits up to there, only one lies beyond the digits of the greatest
value. -/
theorem decimal_le_greatest (hlow : 10 ^ 9 ≤ n) (hhigh : n < 10 ^ 10)
    (h : decimal n z < 1797693136 * 10 ^ 299) :
    decimal n z ≤ 1797693134 * 10 ^ 299 ∨ n = 1797693135 ∧ z = 299 := by
  refine or_iff_not_imp_left.2 fun hgreater => ?_
  rw [not_le] at hgreater
  have hz : 299 ≤ z := by
    have hpow : (10 : ℚ) ^ (308 : ℤ) = 10 ^ 9 * 10 ^ 299 := by
      rw [← pow_add]
      exact zpow_natCast 10 308
    have hexp : 308 ≤ (written n z).exponent := by
      rw [le_written_exponent_iff (by omega), hpow]
      refine le_trans (mul_le_mul_of_nonneg_right ?_ (by positivity)) hgreater.le
      norm_num
    rw [written_exponent, length_ofNat_eq (by decide) hlow hhigh] at hexp
    omega
  have hequal : (10 : ℚ) ^ (299 : ℤ) = 10 ^ 299 := zpow_natCast 10 299
  -- On the grid of `10²⁹⁹` there is nothing else between `1797693134` and `1797693136` steps.
  have hclose : |decimal n z - decimal 1797693135 299| < 10 ^ (299 : ℤ) := by
    rw [decimal.eq_def 1797693135, hequal, abs_lt]
    push_cast
    generalize (10 : ℚ) ^ 299 = ten at *
    constructor <;> linarith only [h, hgreater]
  exact eq_of_decimal_eq_of_digits (by decide) hlow hhigh (by decide) (by decide)
    (decimal_eq_of_sub_lt le_rfl hz hclose)

/-- Up to the greatest decimal of ten digits the exponent is at most `308`. -/
theorem exponent_lt_of_le (hn : n ≠ 0) (h : decimal n z ≤ 1797693134 * 10 ^ 299) :
    (written n z).exponent < 309 := by
  have hpow : (10 : ℚ) ^ (309 : ℤ) = 10 ^ 10 * 10 ^ 299 := by
    rw [← pow_add]
    exact zpow_natCast 10 309
  rw [written_exponent_lt_iff hn, hpow]
  exact h.trans_lt (mul_lt_mul_of_pos_right (by norm_num) (by positivity))

/-- A decimal with a limit below that of all values is rounded to a value. -/
theorem exists_rounded_of_le (negative : Bool) (h : decimal n z ≤ 1797693134 * 10 ^ 299) :
    ∃ m, Binary64.rounded negative (decimal n z) = .finite negative m := by
  refine exists_rounded_eq_of_add_le negative (decimal_nonneg n z) ?_
  have hlimit := limit_bounds.1
  have hten : (10 : ℚ) ^ 2 ≤ 10 ^ 299 := pow_le_pow_right₀ (by norm_num) (by norm_num)
  generalize (10 : ℚ) ^ 299 = ten at h hlimit hten
  generalize (2 : ℚ) ^ 1024 = limit at hlimit ⊢
  linarith

/-- A number of ten places other than zero is a number of steps other than zero. -/
theorem ne_zero_of_places (hn : n ≠ 0) (hk : decimal n z = k / 10 ^ 10) : k ≠ 0 := by
  rintro rfl
  have hpos := decimal_pos hn z
  rw [hk, Nat.cast_zero, zero_div] at hpos
  exact lt_irrefl 0 hpos

/-- The first digit of a number of ten places is at the last of them at the latest. -/
theorem le_exponent_of_places (hn : n ≠ 0) (hk : decimal n z = k / 10 ^ 10) :
    -10 ≤ (written n z).exponent := by
  have hone : (1 : ℚ) ≤ k := by exact_mod_cast Nat.pos_of_ne_zero (ne_zero_of_places hn hk)
  rw [le_written_exponent_iff hn, hk]
  norm_num
  linarith

section Classification

variable {c p : ℕ} {x y : ℤ}

/-- A decimal of ten places below the least that is positional has few of them. -/
theorem decimal_le_of_places (hk : decimal n z = k / 10 ^ 10) (h : decimal n z < 1 / 10 ^ 6) :
    decimal n z ≤ 9999 / 10 ^ 10 := by
  have hlt : (k : ℚ) < 10 ^ 4 := by linarith
  have hlt : k < 10 ^ 4 := by exact_mod_cast hlt
  have hle : (k : ℚ) ≤ 9999 := by exact_mod_cast Nat.le_of_lt_succ hlt
  linarith

/-- The digits of a magnitude and its shortest digits lie on the same side of `10²¹`, unless the
digits are `10²¹` itself. -/
theorem decimal_eq_of_sides (hn : n ≠ 0) (hdigits : n < 10 ^ 12) (hyz : y ≤ z)
    (hgrid : 10 ^ 9 * 10 ^ y ≤ m.value) (hnear : |decimal n z - m.value| ≤ 10 ^ y / 2)
    (hshortest : |m.value - decimal c x| ≤ decimal c x / 2 ^ 53 + 1 / 2 ^ 100)
    (hsides : decimal n z ≤ 10 ^ 21 ∧ 10 ^ 21 ≤ decimal c x ∨
      10 ^ 21 ≤ decimal n z ∧ decimal c x ≤ 10 ^ 21) : decimal n z = 10 ^ 21 := by
  obtain ⟨hbelow, habove⟩ := abs_le.1 hnear
  obtain ⟨hbelow', habove'⟩ := abs_le.1 hshortest
  have hstep : (10 : ℚ) ^ y ≤ 10 ^ z := zpow_le_zpow_right₀ (by norm_num) hyz
  have hlast := decimal_lt_of_lt hdigits z
  have hz : z < 22 := by
    refine lt_of_decimal_lt hn ?_
    norm_num
    rcases hsides with ⟨hle, -⟩ | ⟨-, hle⟩ <;> linarith
  -- With `10²¹` between them, both are nearer to it than the last digit counts.
  refine decimal_eq_ten_pow le_rfl (by omega) ?_
  rw [abs_lt]
  rcases hsides with ⟨hle, hge⟩ | ⟨hge, hle⟩ <;> constructor <;> linarith

/-- Ten digits are shown with an exponent of what is too small to be positional, or too great. -/
theorem exponential_of_ten (hlow : 10 ^ 9 ≤ n) (hhigh : n < 10 ^ 10) (hyz : y ≤ z)
    (hgrid : 10 ^ 9 * 10 ^ y ≤ m.value) (hnear : |decimal n z - m.value| ≤ 10 ^ y / 2)
    (hshortest : |m.value - decimal c x| ≤ decimal c x / 2 ^ 53 + 1 / 2 ^ 100)
    (hfar : ¬ (1 / 10 ^ 6 ≤ decimal c x ∧ decimal c x < 10 ^ 21))
    (hexp : ¬ (1 / 10 ^ 6 ≤ decimal n z ∧ decimal n z < 10 ^ 10))
    (hk : decimal n z = k / 10 ^ 10) : Exponential n z := by
  rcases lt_or_ge (decimal n z) (1 / 10 ^ 6) with hsmall | hlarge
  · exact .small hlow hhigh (decimal_le_of_places hk hsmall)
  have hlarge' : 10 ^ 10 ≤ decimal n z := not_lt.1 fun h => hexp ⟨hlarge, h⟩
  have hten : (0 : ℚ) < 10 ^ y := by positivity
  have hleast : 10 ^ 21 ≤ decimal c x := by
    refine not_lt.1 fun h => hfar ⟨?_, h⟩
    linarith [(abs_le.1 hnear).2, (abs_le.1 hshortest).2]
  have hleast' : 10 ^ 21 ≤ decimal n z := by
    by_contra hless
    exact hless (decimal_eq_of_sides (by omega) (by omega) hyz hgrid hnear hshortest
      (.inl ⟨(not_le.1 hless).le, hleast⟩)).ge
  rcases decimal_le_greatest hlow hhigh (decimal_lt_of_grid hgrid hnear) with hle | ⟨hn, hz⟩
  · exact .large hlow hhigh hleast' hle
  · exact .greatest hn hz

/-- Twelve digits are shown with an exponent of what has more digits before the point. -/
theorem exponential_of_twelve (hlow : 10 ^ 11 ≤ n) (hhigh : n < 10 ^ 12) (hyz : y ≤ z)
    (hgrid : 10 ^ 11 * 10 ^ y ≤ m.value) (hnear : |decimal n z - m.value| ≤ 10 ^ y / 2)
    (hshortest : |m.value - decimal c x| ≤ decimal c x / 2 ^ 53 + 1 / 2 ^ 100)
    (hmiddle : 1 / 10 ^ 6 ≤ decimal c x ∧ decimal c x < 10 ^ 21)
    (hexp : ¬ (1 / 10 ^ 6 ≤ decimal n z ∧ decimal n z < 10 ^ 12))
    (hk : decimal n z = k / 10 ^ 10) : Exponential n z := by
  have hten : (0 : ℚ) < 10 ^ y := by positivity
  have hlarge : 1 / 10 ^ 6 ≤ decimal n z := by
    by_contra hsmall
    have := decimal_le_of_places hk (not_le.1 hsmall)
    linarith [(abs_le.1 hnear).1, (abs_le.1 hshortest).1]
  refine .whole hlow hhigh (not_lt.1 fun h => hexp ⟨hlarge, h⟩) ?_
  by_contra hgreater
  exact hgreater (decimal_eq_of_sides (by omega) hhigh hyz (by linarith) hnear hshortest
    (.inr ⟨(not_le.1 hgreater).le, hmiddle.2.le⟩)).le

/-- With an exponent there are twelve digits, or ten where the shortest digits have an exponent as
well. -/
theorem exists_significant {negative : Bool} (hc : c ≠ 0) (hs : shortest m = written c x)
    (hm : m.units ≠ 0) (he : 'e' ∈ finiteText negative m) :
    ∃ p, (p = 12 ∧ (-6 ≤ (written c x).exponent ∧ (written c x).exponent < 21) ∨
        p = 10 ∧ ¬ (-6 ≤ (written c x).exponent ∧ (written c x).exponent < 21)) ∧
      finiteText negative m = trimPlaces (signText negative ++ significant p m) := by
  by_cases hexp : -6 ≤ (written c x).exponent ∧ (written c x).exponent < 21
  · rcases le_or_gt (signText negative ++ (written c x).positional).length 12 with hlen | hlen
    · rw [finiteText_of_short hm hs hc hexp hlen] at he
      exact absurd he (e_not_mem_ofScaled negative hc x)
    · exact ⟨12, .inl ⟨rfl, hexp⟩, finiteText_of_long hm hs hexp hlen⟩
  · exact ⟨10, .inr ⟨rfl, hexp⟩, finiteText_of_exponent hm hs hexp⟩

end Classification

/-- **A text with an exponent** has digits of these kinds, and they are those of ten places. -/
theorem exists_exponential_of_mem {v : Binary64} (hv : v.isFinite) (he : 'e' ∈ text v) :
    ∃ negative n z, text v = signText negative ++ (written n z).exponential ∧ Exponential n z ∧
      ∃ k : ℕ, decimal n z = k / 10 ^ 10 := by
  obtain ⟨negative, m, htext, hplaces⟩ := exists_text_eq hv
  rw [htext] at he ⊢
  have hm : m.units ≠ 0 := by
    intro hm
    rw [finiteText_of_zero hm] at he
    exact absurd he (by decide)
  obtain ⟨c, x, hs, hc, hshortest⟩ := shortest_near hm
  obtain ⟨p, hdigits, hsignificant⟩ := exists_significant hc hs hm he
  obtain ⟨hp, hp'⟩ : 10 ≤ p ∧ p ≤ 12 := by omega
  obtain ⟨n, z, y, hr, hlow, hhigh, hyz, hgrid, -, hnear⟩ := rounded_spec hm (p := p) (by omega)
  obtain ⟨n', z', hr', hn, -, k, hk⟩ := exists_rounded_places hm (by omega) hp' hplaces
  obtain ⟨rfl, rfl⟩ := written_inj (hr'.symm.trans hr)
  have hexp : ¬ (-6 ≤ (written n' z').exponent ∧ (written n' z').exponent < p) := fun hexp => by
    rw [hsignificant, significant_of_positional hr hn hexp] at he
    exact e_not_mem_ofScaled negative hn z' he
  refine ⟨negative, n', z', by rw [hsignificant, significant_of_exponential hr hexp], ?_, k, hk⟩
  rw [exponent_bounds_iff hn] at hexp
  rcases hdigits with ⟨rfl, hmiddle⟩ | ⟨rfl, hfar⟩
  · exact exponential_of_twelve hlow hhigh hyz hgrid hnear hshortest
      ((exponent_bounds_iff (k := 21) hc).1 hmiddle) hexp hk
  · exact exponential_of_ten hlow hhigh hyz hgrid hnear hshortest
      (mt (exponent_bounds_iff (k := 21) hc).2 hfar) hexp hk

/-- An exponential text has two digits at least and twelve at most. -/
theorem Exponential.digits (h : Exponential n z) : 10 ≤ n ∧ n < 10 ^ 12 := by
  cases h <;> omega

/-- The exponents, which are those of no text without one. -/
theorem Exponential.exponent_cases (h : Exponential n z) (hk : decimal n z = k / 10 ^ 10) :
    12 ≤ (written n z).exponent ∧ (written n z).exponent ≤ 308 ∨
      -10 ≤ (written n z).exponent ∧ (written n z).exponent ≤ -7 := by
  have hn : n ≠ 0 := by
    have := h.digits
    omega
  cases h with
  | small hlow hhigh hvalue =>
    have hexp : (written n z).exponent < -6 := by
      rw [written_exponent_lt_iff hn]
      norm_num
      linarith
    exact .inr ⟨le_exponent_of_places hn hk, by omega⟩
  | whole hlow hhigh hleast hle =>
    have hexp : 12 ≤ (written n z).exponent := (le_written_exponent_iff hn).2 hleast
    have hexp' : (written n z).exponent < 22 := by
      rw [written_exponent_lt_iff hn]
      norm_num
      linarith
    exact .inl ⟨hexp, by omega⟩
  | large hlow hhigh hleast hle =>
    have hexp : 21 ≤ (written n z).exponent := (le_written_exponent_iff hn).2 hleast
    exact .inl ⟨by omega, Int.lt_add_one_iff.1 (exponent_lt_of_le hn hle)⟩
  | greatest hn' hz =>
    subst hn' hz
    exact .inl (by decide +kernel)

/-! ### Back to the same text -/

/-- **Ten digits** are shown of what is far from the middle of the range. -/
theorem finiteText_of_far (hlow : 10 ^ 9 ≤ n) (hhigh : n < 10 ^ 10)
    (hfar : decimal n z ≤ 9999 / 10 ^ 10 ∨ 10 ^ 21 + 10 ^ 12 ≤ decimal n z)
    (hnear : |m.value - decimal n z| ≤ decimal n z / 2 ^ 48) :
    finiteText negative m = signText negative ++ (written n z).exponential := by
  have hn : n ≠ 0 := by omega
  have hpos := decimal_pos hn z
  obtain ⟨hbelow, habove⟩ := abs_le.1 hnear
  have hm : m.units ≠ 0 := units_ne_zero (by linarith)
  obtain ⟨c, x, hs, hc, hshortest⟩ := shortest_near hm
  obtain ⟨hbelow', habove'⟩ := abs_le.1 hshortest
  have hexp : ¬ (-6 ≤ (written c x).exponent ∧ (written c x).exponent < 21) := by
    intro h
    obtain ⟨hleast, hgreatest⟩ := (exponent_bounds_iff (k := 21) hc).1 h
    rcases hfar with hsmall | hlarge <;> linarith
  have hexp' : ¬ (-6 ≤ (written n z).exponent ∧ (written n z).exponent < (10 : ℕ)) := by
    intro h
    obtain ⟨hleast, hgreatest⟩ := (exponent_bounds_iff hn).1 h
    rcases hfar with hsmall | hlarge <;> linarith
  rw [finiteText_of_exponent hm hs hexp, significant_of_exponential
    (rounded_eq_written (by decide) (by decide) hlow hhigh hnear) hexp']

/-- **Twelve digits** are shown of what has more than twelve before the point. -/
theorem finiteText_of_whole (hlow : 10 ^ 11 ≤ n) (hhigh : n < 10 ^ 12)
    (hleast : 10 ^ 12 ≤ decimal n z) (hgreatest : decimal n z ≤ 10 ^ 21 - 10 ^ 9)
    (hnear : |m.value - decimal n z| ≤ decimal n z / 2 ^ 48) :
    finiteText negative m = signText negative ++ (written n z).exponential := by
  have hn : n ≠ 0 := by omega
  obtain ⟨hbelow, habove⟩ := abs_le.1 hnear
  have hm : m.units ≠ 0 := units_ne_zero (by linarith)
  obtain ⟨c, x, hs, hc, hshortest⟩ := shortest_near hm
  obtain ⟨hbelow', habove'⟩ := abs_le.1 hshortest
  have hexp : -6 ≤ (written c x).exponent ∧ (written c x).exponent < 21 :=
    (exponent_bounds_iff (k := 21) hc).2 ⟨by linarith, by linarith⟩
  have hexp' : 12 ≤ (written n z).exponent := by
    rw [le_written_exponent_iff hn]
    exact_mod_cast hleast
  -- Were the shortest digits at most twelve, they would be the digits of the decimal, which has
  -- more than twelve before the point.
  have hlen : 12 < (signText negative ++ (written c x).positional).length := by
    by_contra hshort
    obtain ⟨hdigits, hwhole, -⟩ := digits_length_le_positional c x
    rw [List.length_append] at hshort
    have hc' : c < 10 ^ 12 := (Text.length_ofNat_le_iff (by decide)).1 (by omega)
    have hvalue : decimal c x = decimal n z := by
      refine decimal_eq_of_near hhigh hc' ?_
      have := abs_sub_le (decimal c x) m.value (decimal n z)
      rw [abs_sub_comm (decimal c x) m.value] at this
      linarith
    have := exponent_congr hc hn hvalue
    omega
  rw [finiteText_of_long hm hs hexp hlen, significant_of_exponential
    (rounded_eq_written (by decide) le_rfl hlow hhigh hnear) (by omega)]

/-- The exponential form begins far below the greatest decimal of ten digits. -/
theorem ten_pow_le_limit : (10 : ℚ) ^ 21 ≤ 1797693134 * 10 ^ 299 := by
  have hpow : (10 : ℚ) ^ 21 ≤ 10 ^ 299 := pow_le_pow_right₀ (by norm_num) (by norm_num)
  generalize (10 : ℚ) ^ 299 = limit at hpow ⊢
  linarith

/-- What is shown of all the values near to a decimal of ten places is shown of its own value. -/
theorem text_of_near (hn : n ≠ 0) (hk : decimal n z = k / 10 ^ 10)
    (hle : decimal n z ≤ 1797693134 * 10 ^ 299)
    (hshow : ∀ m : Magnitude, |m.value - decimal n z| ≤ decimal n z / 2 ^ 48 →
      finiteText negative m = signText negative ++ (written n z).exponential) :
    ∃ m, Binary64.rounded negative (decimal n z) = .finite negative m ∧
      text (.finite negative m) = signText negative ++ (written n z).exponential := by
  obtain ⟨m, hm⟩ := exists_rounded_of_le negative hle
  obtain ⟨m', hround, hnear⟩ := roundToTenPlaces_near (ne_zero_of_places hn hk) hk hm
  exact ⟨m, hm, (text_eq_finiteText rfl hround).trans (hshow m' hnear)⟩

/-- Ten digits of `10²¹` are shown of it. No value just below it has ten digits. -/
theorem text_of_ten_pow (negative : Bool) :
    ∃ m, Binary64.rounded negative (decimal (10 ^ 9) 12) = .finite negative m ∧
      text (.finite negative m) = signText negative ++ (written (10 ^ 9) 12).exponential := by
  have hten : decimal (10 ^ 9) 12 = 10 ^ 21 := by norm_num [decimal]
  obtain ⟨m, hm⟩ := exists_rounded_of_le negative (hten.le.trans ten_pow_le_limit)
  refine ⟨m, hm, ?_⟩
  rw [← hm, ← ofDecimal_eq_rounded negative (by decide) (by decide) (by decide)]
  cases negative <;> decide +kernel

/-- **An exponential text** is what the value of its decimal is shown as. -/
theorem Exponential.text_rounded (h : Exponential n z) (hk : decimal n z = k / 10 ^ 10)
    (hstep : ¬ (n = 10 ^ 11 ∧ z = 10)) (hgreatest : ¬ (n = 1797693135 ∧ z = 299))
    (negative : Bool) : ∃ m, Binary64.rounded negative (decimal n z) = .finite negative m ∧
      text (.finite negative m) = signText negative ++ (written n z).exponential := by
  have hlimit := ten_pow_le_limit
  cases h with
  | small hlow hhigh hvalue =>
    refine text_of_near (by omega) hk (le_trans ?_ hlimit) fun m =>
      finiteText_of_far hlow hhigh (.inl hvalue)
    linarith only [hvalue]
  | whole hlow hhigh hleast hle =>
    have hne : decimal n z ≠ 10 ^ 21 := by
      intro heq
      have hten : decimal (10 ^ 11) 10 = 10 ^ 21 := by norm_num [decimal]
      exact hstep (eq_of_decimal_eq_of_digits (by decide) hlow hhigh (by decide) (by decide)
        (heq.trans hten.symm))
    -- With a last digit below `10⁹` there are not enough digits to come near to `10²¹`.
    have hbelow : decimal n z ≤ 10 ^ 21 - 10 ^ 9 := by
      rcases le_or_gt 9 z with hz | hz
      · exact (step_of_ne hz (by decide) hne).resolve_right (by linarith)
      · have hexp : (written n z).exponent < 20 := by
          rw [written_exponent, length_ofNat_eq (by decide) hlow hhigh]
          omega
        have hlt := (written_exponent_lt_iff (by omega)).1 hexp
        norm_num at hlt
        linarith only [hlt]
    exact text_of_near (by omega) hk (hle.trans hlimit) fun m =>
      finiteText_of_whole hlow hhigh hleast hbelow
  | large hlow hhigh hleast hle =>
    have hz : 12 ≤ z := by
      have hexp := (le_written_exponent_iff (e := 21) (by omega)).2 hleast
      rw [written_exponent, length_ofNat_eq (by decide) hlow hhigh] at hexp
      omega
    rcases eq_or_ne (decimal n z) (10 ^ 21) with heq | hne
    · have hten : decimal (10 ^ 9) 12 = 10 ^ 21 := by norm_num [decimal]
      obtain ⟨rfl, rfl⟩ := eq_of_decimal_eq_of_digits (by decide) hlow hhigh (by decide)
        (by decide) (heq.trans hten.symm)
      exact text_of_ten_pow negative
    · have habove := (step_of_ne hz (by decide) hne).resolve_left (by linarith)
      exact text_of_near (by omega) hk hle fun m => finiteText_of_far hlow hhigh (.inr habove)
  | greatest hn hz => exact absurd ⟨hn, hz⟩ hgreatest

end Display
end PocketCalculator
