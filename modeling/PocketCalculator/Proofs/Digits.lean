/-
# Decimals and their digits

`decimal c x` is the number `c · 10 ^ x`. A decimal has many such forms, one for each number of
zeros that end its coefficient; `Scientific.written c x` keeps these zeros, `Scientific.ofScaled c
x` drops them and so depends on the number alone (`Scientific.ofScaled_congr`).

What the two choices of digits give for a magnitude:

- `Scientific.shortest_spec`: the shortest digits read back as the magnitude;
- `Scientific.rounded_spec`: `p` digits are off by at most one half of the last of them;
- `Scientific.rounded_eq_of_near`: a magnitude near to a decimal of at most `p` digits is written as
  that decimal.
-/

import PocketCalculator.Decimal.Numeral
import PocketCalculator.Decimal.Scientific
import PocketCalculator.Proofs.Arithmetic
import Mathlib.Algebra.Order.Field.Power
import Mathlib.Data.Nat.Multiplicity

namespace PocketCalculator

namespace Text

/-! ### Digits of natural numbers -/

/-- Every number has a digit. -/
theorem ofNat_ne_nil (n : ℕ) : ofNat n ≠ [] := Nat.toDigits_ne_nil

/-- Every number has a digit, by its length. -/
theorem length_ofNat_pos (n : ℕ) : 0 < (ofNat n).length := Nat.length_toDigits_pos

/-- A written number has nothing but digits. -/
theorem isDigit_of_mem_ofNat {n : ℕ} {c : Char} (h : c ∈ ofNat n) : c.isDigit :=
  Nat.isDigit_of_mem_toDigits (by decide) (by decide) h

/-- A number has at most `k` digits just if it is below `10 ^ k`. -/
theorem length_ofNat_le_iff {n k : ℕ} (hk : 0 < k) : (ofNat n).length ≤ k ↔ n < 10 ^ k :=
  Nat.length_toDigits_le_iff (by decide) hk

/-- The number of digits bounds a number from above. -/
theorem lt_pow_length_ofNat (n : ℕ) : n < 10 ^ (ofNat n).length :=
  (length_ofNat_le_iff (length_ofNat_pos n)).1 le_rfl

/-- The number of digits bounds a number other than zero from below. -/
theorem pow_length_ofNat_le {n : ℕ} (hn : n ≠ 0) : 10 ^ ((ofNat n).length - 1) ≤ n := by
  rcases (Nat.succ_le_iff.2 (length_ofNat_pos n)).eq_or_lt with h | h
  · rw [← h]
    exact Nat.pos_of_ne_zero hn
  · by_contra hlt
    have := (length_ofNat_le_iff (by omega)).2 (not_le.1 hlt)
    omega

/-- A power of ten appends zeros to a number other than zero. -/
theorem ofNat_mul_pow {n : ℕ} (hn : n ≠ 0) (k : ℕ) :
    ofNat (n * 10 ^ k) = ofNat n ++ List.replicate k '0' := by
  induction k with
  | zero => simp
  | succ k ih =>
    have hpos : 0 < n * 10 ^ k := Nat.mul_pos (Nat.pos_of_ne_zero hn) (Nat.pow_pos (by decide))
    have hstep := Nat.toDigits_append_toDigits (b := 10) (d := 0) (by decide) hpos (by decide)
    have hn' : n * 10 ^ (k + 1) = 10 * (n * 10 ^ k) + 0 := by ring
    rw [hn', ofNat, ← hstep, ← ofNat, ih, List.append_assoc, List.replicate_succ']
    rfl

/-- A number that ten does not divide does not end in a zero. -/
theorem getLast?_ofNat {n : ℕ} (hn : ¬ 10 ∣ n) : ∃ d, (ofNat n).getLast? = some d ∧ d ≠ '0' := by
  have hmod : n % 10 ≠ 0 := mt Nat.dvd_of_mod_eq_zero hn
  rw [ofNat, Nat.toDigits_eq_if (by decide)]
  split
  · refine ⟨n.digitChar, rfl, ?_⟩
    rw [ne_eq, Nat.digitChar_eq_zero]
    omega
  · refine ⟨(n % 10).digitChar, by simp, ?_⟩
    rwa [ne_eq, Nat.digitChar_eq_zero]

/-! ### Dropping at the end -/

/-- More characters of the kind that is dropped are dropped too. -/
theorem dropTrailing_append_replicate {p : Char → Bool} {c : Char} (t : Text) (k : ℕ) (hc : p c) :
    dropTrailing p (t ++ List.replicate k c) = dropTrailing p t := by
  induction k with
  | zero => simp
  | succ k ih =>
    rw [← ih, List.replicate_succ', ← List.append_assoc]
    simp [dropTrailing, hc]

/-- What is left does not end in a character of the kind that is dropped. -/
theorem getLast?_dropTrailing {p : Char → Bool} {t : Text} {c : Char}
    (h : c ∈ (dropTrailing p t).getLast?) : p c = false := by
  have hhead := List.head?_dropWhile_not p t.reverse
  rw [← List.getLast?_reverse, ← dropTrailing, h] at hhead
  simpa using hhead

/-- Where there is nothing to drop, all is left. -/
theorem dropTrailing_eq_self {p : Char → Bool} {t : Text} (h : ∀ c ∈ t.getLast?, p c = false) :
    dropTrailing p t = t := by
  rw [dropTrailing]
  cases hr : t.reverse with
  | nil => rw [List.reverse_eq_nil_iff.1 hr]; rfl
  | cons c r =>
    have hc : p c = false := h c (by rw [← List.head?_reverse, hr]; rfl)
    rw [List.dropWhile_cons_of_neg (by simp [hc]), ← hr, List.reverse_reverse]

end Text

/-! ### Decimals -/

/-- The number that a coefficient and an exponent of ten stand for. -/
def decimal (c : ℕ) (x : ℤ) : ℚ := c * 10 ^ x

/-- A decimal has no sign of its own. -/
theorem decimal_nonneg (c : ℕ) (x : ℤ) : 0 ≤ decimal c x := by
  unfold decimal
  positivity

/-- A coefficient other than zero makes a decimal positive. -/
theorem decimal_pos {c : ℕ} (hc : c ≠ 0) (x : ℤ) : 0 < decimal c x := by
  have : (0 : ℚ) < c := by exact_mod_cast Nat.pos_of_ne_zero hc
  unfold decimal
  positivity

/-- A positive decimal has a coefficient other than zero. -/
theorem decimal_ne_zero {c : ℕ} {x : ℤ} (h : 0 < decimal c x) : c ≠ 0 := by
  rintro rfl
  rw [decimal, Nat.cast_zero, zero_mul] at h
  exact lt_irrefl 0 h

/-- Zeros at the end of the coefficient count for the exponent. -/
theorem decimal_mul_pow (c k : ℕ) (x : ℤ) : decimal (c * 10 ^ k) x = decimal c (x + k) := by
  rw [decimal, decimal, zpow_add₀ (by norm_num), zpow_natCast]
  push_cast
  ring

/-- A decimal on a finer grid. -/
theorem decimal_eq_mul_zpow {x y : ℤ} (c : ℕ) (h : y ≤ x) :
    decimal c x = ((c * 10 ^ (x - y).toNat : ℕ) : ℚ) * 10 ^ y := by
  have := decimal_mul_pow c (x - y).toNat y
  rw [show y + ((x - y).toNat : ℤ) = x by omega] at this
  exact this.symm

/-- A coefficient other than zero with the zeros at its end apart. -/
theorem exists_reduced {c : ℕ} (hc : c ≠ 0) : ∃ c' k, c = c' * 10 ^ k ∧ ¬ 10 ∣ c' := by
  obtain ⟨k, c', hdvd, hc'⟩ := Nat.exists_eq_pow_mul_and_not_dvd hc 10 (by decide)
  exact ⟨c', k, by rw [hc', Nat.mul_comm], hdvd⟩

/-- A coefficient without zeros at its end is determined by the number. -/
theorem eq_of_decimal_eq {c c' : ℕ} {x x' : ℤ} (hc : ¬ 10 ∣ c) (hc' : ¬ 10 ∣ c')
    (h : decimal c x = decimal c' x') : c = c' ∧ x = x' := by
  wlog hle : x ≤ x' generalizing c c' x x'
  · obtain ⟨hcoeff, hexp⟩ := this hc' hc h.symm (by omega)
    exact ⟨hcoeff.symm, hexp.symm⟩
  have hten : ((10 : ℚ) ^ x) ≠ 0 := by positivity
  rw [decimal_eq_mul_zpow c' hle, decimal, mul_left_inj' hten, Nat.cast_inj] at h
  rcases Nat.eq_zero_or_pos (x' - x).toNat with hzero | hpos
  · rw [hzero, pow_zero, mul_one] at h
    exact ⟨h, by omega⟩
  · exact absurd (h ▸ Dvd.dvd.mul_left (dvd_pow_self 10 hpos.ne') c') hc

/-- Decimals on the grid of `10 ^ y` are equal if they are closer than that. -/
theorem decimal_eq_of_sub_lt {c c' : ℕ} {x x' y : ℤ} (hx : y ≤ x) (hx' : y ≤ x')
    (h : |decimal c' x' - decimal c x| < 10 ^ y) : decimal c' x' = decimal c x := by
  have hten : (0 : ℚ) < 10 ^ y := by positivity
  rw [decimal_eq_mul_zpow c hx, decimal_eq_mul_zpow c' hx'] at h ⊢
  generalize c * 10 ^ (x - y).toNat = n at h ⊢
  generalize c' * 10 ^ (x' - y).toNat = n' at h ⊢
  rw [← sub_mul, abs_mul, abs_of_pos hten, mul_lt_iff_lt_one_left hten] at h
  have hint : |(n' : ℤ) - n| < 1 := by exact_mod_cast h
  rw [Int.abs_lt_one_iff] at hint
  rw [show n' = n by omega]

/-- A decimal of at most twelve digits is below `10 ^ 12` steps of its grid. -/
theorem decimal_lt_of_lt {c : ℕ} (hc : c < 10 ^ 12) (x : ℤ) :
    decimal c x < 10 ^ 12 * 10 ^ x := by
  have hcast : (c : ℚ) < 10 ^ 12 := by exact_mod_cast hc
  exact mul_lt_mul_of_pos_right hcast (by positivity)

/-- Decimals of at most twelve digits lie further apart than that. -/
theorem decimal_eq_of_near {c c' : ℕ} {x x' : ℤ} (hc : c < 10 ^ 12) (hc' : c' < 10 ^ 12)
    (h : |decimal c' x' - decimal c x| ≤ decimal c x / 2 ^ 46) : decimal c' x' = decimal c x := by
  rcases le_total x x' with hle | hle
  · have hlt := decimal_lt_of_lt hc x
    have hten : (0 : ℚ) < 10 ^ x := by positivity
    exact decimal_eq_of_sub_lt le_rfl hle (h.trans_lt (by linarith))
  · have hlt := decimal_lt_of_lt hc' x'
    have hlow := (abs_le.1 h).1
    have hnonneg := decimal_nonneg c x
    exact decimal_eq_of_sub_lt hle le_rfl (h.trans_lt (by linarith))

namespace Scientific

open Binary64

seal unitsOfOne unitsLimit

/-- All the digits of a decimal, also the zeros that end its coefficient. -/
def written (c : ℕ) (x : ℤ) : Scientific := ⟨Text.ofNat c, x + (Text.ofNat c).length - 1⟩

theorem written_digits (c : ℕ) (x : ℤ) : (written c x).digits = Text.ofNat c := rfl

theorem written_exponent (c : ℕ) (x : ℤ) :
    (written c x).exponent = x + (Text.ofNat c).length - 1 := rfl

/-- **The exponent of the first digit** says between which powers of ten a number lies. -/
theorem written_exponent_bounds {c : ℕ} (hc : c ≠ 0) (x : ℤ) :
    (10 : ℚ) ^ (written c x).exponent ≤ decimal c x ∧
      decimal c x < 10 ^ ((written c x).exponent + 1) := by
  have hlen := Text.length_ofNat_pos c
  have hlow : ((10 : ℚ) ^ ((Text.ofNat c).length - 1) ≤ c) := by
    exact_mod_cast Text.pow_length_ofNat_le hc
  have hhigh : (c : ℚ) < 10 ^ (Text.ofNat c).length := by exact_mod_cast Text.lt_pow_length_ofNat c
  have hten : (0 : ℚ) < 10 ^ x := by positivity
  have hexp : (written c x).exponent = ((Text.ofNat c).length - 1 : ℕ) + x := by
    rw [written]
    push_cast [Nat.cast_sub (Nat.succ_le_iff.2 hlen)]
    ring
  have hexp' : (written c x).exponent + 1 = ((Text.ofNat c).length : ℕ) + x := by
    rw [written]
    ring
  rw [hexp', hexp, zpow_add₀ (by norm_num), zpow_add₀ (by norm_num), zpow_natCast, zpow_natCast]
  exact ⟨mul_le_mul_of_nonneg_right hlow hten.le, mul_lt_mul_of_pos_right hhigh hten⟩

/-- The exponent of the first digit lies where the number does. -/
theorem le_written_exponent_iff {c : ℕ} (hc : c ≠ 0) {x e : ℤ} :
    e ≤ (written c x).exponent ↔ (10 : ℚ) ^ e ≤ decimal c x := by
  obtain ⟨hlow, hhigh⟩ := written_exponent_bounds hc x
  refine ⟨fun h => (zpow_le_zpow_right₀ (by norm_num) h).trans hlow, fun h => ?_⟩
  have hlt := h.trans_lt hhigh
  rw [zpow_lt_zpow_iff_right₀ (by norm_num)] at hlt
  omega

/-- The exponent of the first digit is below `e` just if the number is below `10 ^ e`. -/
theorem written_exponent_lt_iff {c : ℕ} (hc : c ≠ 0) {x e : ℤ} :
    (written c x).exponent < e ↔ decimal c x < (10 : ℚ) ^ e := by
  rw [← not_le, le_written_exponent_iff hc, not_le]

/-- The exponents that are written without an exponential form. -/
theorem exponent_bounds_iff {c : ℕ} (hc : c ≠ 0) {x : ℤ} {k : ℕ} :
    -6 ≤ (written c x).exponent ∧ (written c x).exponent < k ↔
      1 / 10 ^ 6 ≤ decimal c x ∧ decimal c x < 10 ^ k := by
  have hsix : (10 : ℚ) ^ (-6 : ℤ) = 1 / 10 ^ 6 := by norm_num
  rw [le_written_exponent_iff hc, written_exponent_lt_iff hc, hsix, zpow_natCast]

/-! ### Digits without zeros at the end -/

/-- A coefficient without zeros at its end is written with all its digits. -/
theorem ofScaled_of_not_dvd {c : ℕ} (hc : ¬ 10 ∣ c) (x : ℤ) : ofScaled c x = written c x := by
  obtain ⟨d, hlast, hd⟩ := Text.getLast?_ofNat hc
  rw [ofScaled, written, Text.dropTrailing_eq_self]
  intro e he
  obtain rfl : d = e := Option.some.inj (hlast.symm.trans he)
  simpa using hd

/-- Zeros at the end of a coefficient are left out and counted in the exponent. -/
theorem ofScaled_mul_pow {c : ℕ} (hc : c ≠ 0) (k : ℕ) (x : ℤ) :
    ofScaled (c * 10 ^ k) x = ofScaled c (x + k) := by
  rw [ofScaled, ofScaled, Text.ofNat_mul_pow hc,
    Text.dropTrailing_append_replicate _ _ (by decide), List.length_append, List.length_replicate]
  congr 1
  push_cast
  ring

/-- **Without zeros at the end** the digits depend on the number alone. -/
theorem ofScaled_congr {c c' : ℕ} {x x' : ℤ} (hc : c ≠ 0) (hc' : c' ≠ 0)
    (h : decimal c x = decimal c' x') : ofScaled c x = ofScaled c' x' := by
  obtain ⟨d, k, rfl, hd⟩ := exists_reduced hc
  obtain ⟨d', k', rfl, hd'⟩ := exists_reduced hc'
  rw [decimal_mul_pow, decimal_mul_pow] at h
  obtain ⟨rfl, hexp⟩ := eq_of_decimal_eq hd hd' h
  have hne : d ≠ 0 := by
    rintro rfl
    exact hd (Nat.dvd_zero _)
  rw [ofScaled_mul_pow hne, ofScaled_mul_pow hne, hexp]

/-- Every number has digits without zeros at the end. -/
theorem exists_ofScaled_eq_written {c : ℕ} (hc : c ≠ 0) (x : ℤ) :
    ∃ c' x', ¬ 10 ∣ c' ∧ c' ≠ 0 ∧ x ≤ x' ∧ ofScaled c x = written c' x' ∧
      decimal c x = decimal c' x' := by
  obtain ⟨d, k, rfl, hd⟩ := exists_reduced hc
  have hne : d ≠ 0 := by
    rintro rfl
    exact hd (Nat.dvd_zero _)
  exact ⟨d, x + k, hd, hne, by omega, by rw [ofScaled_mul_pow hne, ofScaled_of_not_dvd hd],
    decimal_mul_pow d k x⟩

end Scientific

namespace Binary64

seal unitsOfOne unitsLimit

/-! ### Decimals as values -/

/-- A decimal of a natural exponent is rounded as the number it stands for. -/
theorem ofRatio_mul_pow (negative : Bool) (c : ℕ) {x : ℤ} (hx : 0 ≤ x) :
    ofRatio negative (c * Nat.pow 10 x.toNat) 1 = rounded negative (decimal c x) := by
  obtain ⟨k, rfl⟩ := Int.eq_ofNat_of_zero_le hx
  have hvalue : ((c * Nat.pow 10 (k : ℤ).toNat : ℕ) : ℚ) / (1 : ℕ) = decimal c k := by
    rw [decimal, Int.toNat_natCast, zpow_natCast, Nat.cast_mul, Nat.cast_one, div_one]
    exact congrArg _ (Nat.cast_pow 10 k)
  rw [ofRatio_eq_rounded negative Nat.one_pos, hvalue]

/-- A decimal of a negative exponent is rounded as the number it stands for. -/
theorem ofRatio_div_pow (negative : Bool) (c : ℕ) {x : ℤ} (hx : x < 0) :
    ofRatio negative c (Nat.pow 10 (-x).toNat) = rounded negative (decimal c x) := by
  obtain ⟨k, hk⟩ := Int.eq_ofNat_of_zero_le (show 0 ≤ -x by omega)
  obtain rfl : x = -k := by omega
  have hvalue : (c : ℚ) / (Nat.pow 10 (- -(k : ℤ)).toNat : ℕ) = decimal c (-k) := by
    rw [decimal, neg_neg, Int.toNat_natCast, zpow_neg, zpow_natCast, div_eq_mul_inv]
    exact congrArg (_ * ·⁻¹) (Nat.cast_pow 10 k)
  have hpos : 0 < Nat.pow 10 (- -(k : ℤ)).toNat := Nat.pow_pos (by decide)
  rw [ofRatio_eq_rounded negative hpos, hvalue]

/-- Away from the exponents for which no power of ten is needed, a decimal is rounded as the number
it stands for. -/
theorem ofDecimal_eq_rounded {c : ℕ} {x : ℤ} (negative : Bool) (hc : c ≠ 0) (hlow : -324 ≤ x)
    (hhigh : x < 309) : ofDecimal negative c x = rounded negative (decimal c x) := by
  rw [ofDecimal, if_neg hc, if_neg (by omega)]
  split
  · rename_i hx
    exact ofRatio_mul_pow negative c hx
  · rename_i hx
    rw [if_neg (by omega)]
    exact ofRatio_div_pow negative c (by omega)

/-- A decimal that reads as a magnitude other than zero is rounded to it. -/
theorem rounded_of_ofDecimal {c : ℕ} {x : ℤ} {negative : Bool} {m : Magnitude} (hm : m.units ≠ 0)
    (h : ofDecimal negative c x = .finite negative m) :
    c ≠ 0 ∧ rounded negative (decimal c x) = .finite negative m := by
  have hzero : zero negative ≠ .finite negative m := fun h => hm (by
    obtain ⟨-, rfl⟩ := Binary64.finite.inj h
    rfl)
  have hc : c ≠ 0 := by
    rintro rfl
    exact hzero h
  refine ⟨hc, ?_⟩
  rw [ofDecimal, if_neg hc] at h
  split at h
  · cases h
  split at h
  · rename_i hx
    rwa [ofRatio_mul_pow negative c hx] at h
  split at h
  · exact absurd h hzero
  · rename_i hx _
    rwa [ofRatio_div_pow negative c (not_le.1 hx)] at h

end Binary64

namespace Scientific

open Binary64

seal unitsOfOne unitsLimit

/-! ### The shortest digits -/

/-- Candidates for the shortest digits are decimals that are rounded to the magnitude. -/
theorem candidate_spec {m : Magnitude} (hm : m.units ≠ 0) {count : ℕ} {s : Scientific}
    (h : candidate m count = some s) :
    ∃ c x, s = ofScaled c x ∧ c ≠ 0 ∧ Binary64.rounded false (decimal c x) = .finite false m := by
  unfold candidate at h
  obtain ⟨num, den⟩ := scale m.units unitsOfOne (leadingExponent m.units unitsOfOne - count + 1)
  dsimp only at h
  split at h
  · rename_i hlow
    obtain rfl := Option.some.inj h
    obtain ⟨hc, hrounded⟩ := rounded_of_ofDecimal hm (eq_of_beq hlow.1)
    exact ⟨_, _, rfl, hc, hrounded⟩
  split at h
  · rename_i hhigh
    obtain rfl := Option.some.inj h
    obtain ⟨hc, hrounded⟩ := rounded_of_ofDecimal hm (eq_of_beq hhigh)
    exact ⟨_, _, rfl, hc, hrounded⟩
  · cases h

/-- A magnitude is a decimal: a unit is a power of five with as many decimal places. -/
theorem exact_value (m : Magnitude) :
    decimal (m.units * Nat.pow 5 places) (-places) = m.value := by
  rw [Magnitude.value, unitsOfOne_eq]
  generalize places = k
  have hpow : (10 : ℚ) ^ k = 5 ^ k * 2 ^ k := by rw [← mul_pow]; norm_num
  have hfive : ((Nat.pow 5 k : ℕ) : ℚ) = 5 ^ k := Nat.cast_pow 5 k
  rw [decimal, zpow_neg, zpow_natCast, hpow, Nat.cast_mul, hfive, Nat.cast_pow]
  have : (5 : ℚ) ^ k ≠ 0 := by positivity
  field_simp
  push_cast
  ring

/-- **The shortest digits** read back as the magnitude, and do not end in a zero. -/
theorem shortest_spec {m : Magnitude} (hm : m.units ≠ 0) :
    ∃ c x, shortest m = written c x ∧ ¬ 10 ∣ c ∧ c ≠ 0 ∧
      Binary64.rounded false (decimal c x) = .finite false m := by
  have hscaled : ∃ c x, shortest m = ofScaled c x ∧ c ≠ 0 ∧
      Binary64.rounded false (decimal c x) = .finite false m := by
    rw [shortest]
    cases hfind : (List.range 17).findSome? fun i => candidate m (i + 1) with
    | some s =>
      obtain ⟨i, -, hi⟩ := List.exists_of_findSome?_eq_some hfind
      exact candidate_spec hm hi
    | none =>
      refine ⟨_, _, rfl, ?_, ?_⟩
      · generalize places = k
        exact Nat.mul_ne_zero hm (Nat.pow_pos (by decide)).ne'
      · rw [exact_value, rounded_value]
  obtain ⟨c, x, hs, hc, hrounded⟩ := hscaled
  obtain ⟨c', x', hdvd, hc', -, hwritten, hvalue⟩ := exists_ofScaled_eq_written hc x
  exact ⟨c', x', by rw [hs, hwritten], hdvd, hc', by rw [← hvalue, hrounded]⟩

/-! ### A fixed number of digits -/

/-- The digits before the point, for a quotient that has some. -/
theorem div_bounds_of_le {num den : ℕ} (hden : 0 < den) (hle : den ≤ num) :
    (10 : ℚ) ^ ((Text.ofNat (num / den)).length - 1 : ℤ) ≤ num / den ∧
      (num / den : ℚ) < 10 ^ (Text.ofNat (num / den)).length := by
  have hden' : (0 : ℚ) < den := by exact_mod_cast hden
  have hfloor : ((num / den : ℕ) : ℚ) ≤ num / den := Nat.cast_div_le
  have hceil : (num / den : ℚ) < (num / den : ℕ) + 1 := by
    rw [div_lt_iff₀ hden', mul_comm]
    exact_mod_cast Nat.lt_mul_div_succ num hden
  have hqpos : num / den ≠ 0 := (Nat.div_pos hle hden).ne'
  generalize num / den = q at hfloor hceil hqpos ⊢
  have hlow : (10 : ℚ) ^ ((Text.ofNat q).length - 1) ≤ q := by
    exact_mod_cast Text.pow_length_ofNat_le hqpos
  have hhigh : (q + 1 : ℚ) ≤ 10 ^ (Text.ofNat q).length := by
    exact_mod_cast Text.lt_pow_length_ofNat q
  have hexp : ((Text.ofNat q).length - 1 : ℤ) = ((Text.ofNat q).length - 1 : ℕ) := by
    rw [Nat.cast_sub (Nat.succ_le_iff.2 (Text.length_ofNat_pos q))]
    rfl
  rw [hexp, zpow_natCast]
  exact ⟨hlow.trans hfloor, hceil.trans_le hhigh⟩

/-- The zeros behind the point, for a quotient below one: as many as the inverse has digits before
the point. -/
theorem div_bounds_of_lt {num den : ℕ} (hnum : num ≠ 0) (hlt : num < den) :
    (10 : ℚ) ^ (-(Text.ofNat ((den - 1) / num)).length : ℤ) ≤ num / den ∧
      (num / den : ℚ) < 10 ^ (-(Text.ofNat ((den - 1) / num)).length + 1 : ℤ) := by
  have hpos : 0 < num := Nat.pos_of_ne_zero hnum
  have hnum' : (0 : ℚ) < num := by exact_mod_cast hpos
  have hqpos : (den - 1) / num ≠ 0 := (Nat.div_pos (by omega) hpos).ne'
  have hmul := Nat.div_mul_le_self (den - 1) num
  have hsucc := Nat.lt_mul_div_succ (den - 1) hpos
  generalize (den - 1) / num = q at hqpos hmul hsucc ⊢
  have hbelow : q * num < den := by omega
  have habove : den ≤ (q + 1) * num := by
    rw [Nat.mul_comm] at hsucc
    omega
  have hlen := Text.length_ofNat_pos q
  have hlow := Text.pow_length_ofNat_le hqpos
  have hhigh := Text.lt_pow_length_ofNat q
  generalize (Text.ofNat q).length = k at hlen hlow hhigh ⊢
  have hden' : (0 : ℚ) < den := by exact_mod_cast (Nat.zero_le num).trans_lt hlt
  have hexp : (-k + 1 : ℤ) = -((k - 1 : ℕ) : ℤ) := by omega
  rw [hexp, zpow_neg, zpow_neg, zpow_natCast, zpow_natCast]
  constructor
  · rw [inv_le_comm₀ (by positivity) (by positivity), inv_div, div_le_iff₀ hnum']
    exact_mod_cast habove.trans (Nat.mul_le_mul_right num hhigh)
  · rw [lt_inv_comm₀ (by positivity) (by positivity), inv_div, lt_div_iff₀ hnum']
    exact_mod_cast (Nat.mul_le_mul_right num hlow).trans_lt hbelow

/-- The exponent of the first digit is that of the quotient. -/
theorem leadingExponent_bounds {num den : ℕ} (hnum : num ≠ 0) (hden : 0 < den) :
    (10 : ℚ) ^ leadingExponent num den ≤ num / den ∧
      (num / den : ℚ) < 10 ^ (leadingExponent num den + 1) := by
  unfold leadingExponent
  split
  · rename_i hle
    rw [sub_add_cancel, zpow_natCast]
    exact div_bounds_of_le hden hle
  · rename_i hlt
    exact div_bounds_of_lt hnum (not_le.1 hlt)

/-- The scaled quotient. -/
theorem scale_spec {num den : ℕ} (hden : 0 < den) (e : ℤ) :
    0 < (scale num den e).2 ∧
      ((scale num den e).1 : ℚ) / (scale num den e).2 = num / den / 10 ^ e := by
  unfold scale
  split
  · rename_i he
    obtain ⟨k, hk⟩ := Int.eq_ofNat_of_zero_le (show 0 ≤ -e by omega)
    obtain rfl : e = -k := by omega
    refine ⟨hden, ?_⟩
    have hpow : ((Nat.pow 10 (- -(k : ℤ)).toNat : ℕ) : ℚ) = 10 ^ k := by
      rw [neg_neg, Int.toNat_natCast]
      exact Nat.cast_pow 10 k
    dsimp only
    rw [Nat.cast_mul, hpow, zpow_neg, zpow_natCast, div_inv_eq_mul, div_mul_eq_mul_div]
  · rename_i he
    obtain ⟨k, rfl⟩ := Int.eq_ofNat_of_zero_le (not_lt.1 he)
    have hpow : ((Nat.pow 10 (k : ℤ).toNat : ℕ) : ℚ) = 10 ^ k := by
      rw [Int.toNat_natCast]
      exact Nat.cast_pow 10 k
    refine ⟨Nat.mul_pos hden (Nat.pow_pos (by decide)), ?_⟩
    dsimp only
    rw [Nat.cast_mul, hpow, zpow_natCast, div_div]

/-- A carry into a new leading digit, with the last zero left out. -/
theorem carry_eq_written {p : ℕ} (hp : 0 < p) (y : ℤ) :
    (⟨(Text.ofNat (10 ^ p)).take p, y + (Text.ofNat (10 ^ p)).length - 1⟩ : Scientific) =
      written (10 ^ (p - 1)) (y + 1) := by
  have hdigits : Text.ofNat (10 ^ p) = Text.ofNat (10 ^ (p - 1)) ++ ['0'] := by
    have := Text.ofNat_mul_pow (Nat.pow_pos (by decide : 0 < 10) (n := p - 1)).ne' 1
    rwa [pow_one, pow_sub_one_mul hp.ne'] at this
  have hlen : (Text.ofNat (10 ^ (p - 1))).length = p := by
    have := Text.ofNat_mul_pow one_ne_zero (p - 1)
    rw [one_mul] at this
    rw [this, List.length_append, List.length_replicate]
    exact Nat.add_sub_cancel' hp
  rw [written, hdigits, List.take_append_of_le_length hlen.ge, List.take_of_length_le hlen.le,
    List.length_append, hlen]
  congr 1
  simp only [List.length_singleton]
  push_cast
  ring

/-- **A fixed number of digits.** On the grid of `10 ^ y`, on which the magnitude has `p` digits,
the digits are those of a nearest point. -/
theorem rounded_spec {m : Magnitude} (hm : m.units ≠ 0) {p : ℕ} (hp : 0 < p) :
    ∃ (n : ℕ) (x y : ℤ), rounded p m = written n x ∧ 10 ^ (p - 1) ≤ n ∧ n < 10 ^ p ∧ y ≤ x ∧
      (10 : ℚ) ^ (p - 1) * 10 ^ y ≤ m.value ∧ m.value < 10 ^ p * 10 ^ y ∧
        |decimal n x - m.value| ≤ 10 ^ y / 2 := by
  set y := leadingExponent m.units unitsOfOne - p + 1 with hy
  obtain ⟨hlead, hlead'⟩ := leadingExponent_bounds hm unitsOfOne_pos
  obtain ⟨hden, hquot⟩ := @scale_spec m.units unitsOfOne unitsOfOne_pos y
  have hten : (0 : ℚ) < 10 ^ y := by positivity
  have hrounded : rounded p m =
      let n := roundHalfEven (scale m.units unitsOfOne y).1 (scale m.units unitsOfOne y).2
      ⟨(Text.ofNat n).take p, y + (Text.ofNat n).length - 1⟩ := rfl
  have hnear := abs_roundHalfEven_sub_le (scale m.units unitsOfOne y).1 hden
  rw [hrounded]
  generalize roundHalfEven (scale m.units unitsOfOne y).1 (scale m.units unitsOfOne y).2 = n at *
  rw [hquot] at hnear
  change |(n : ℚ) - m.value / 10 ^ y| ≤ 1 / 2 at hnear
  -- The bounds of the magnitude on its grid, and so of the nearest point.
  have hlow : (10 : ℚ) ^ (p - 1) * 10 ^ y ≤ m.value := by
    rw [← zpow_natCast, ← zpow_add₀ (by norm_num)]
    rwa [show ((p - 1 : ℕ) : ℤ) + y = leadingExponent m.units unitsOfOne by omega]
  have hhigh : m.value < 10 ^ p * 10 ^ y := by
    rw [← zpow_natCast, ← zpow_add₀ (by norm_num)]
    rwa [show (p : ℤ) + y = leadingExponent m.units unitsOfOne + 1 by omega]
  have hscaled : |(n : ℚ) * 10 ^ y - m.value| ≤ 10 ^ y / 2 := by
    have hfactor : (n : ℚ) * 10 ^ y - m.value = (n - m.value / 10 ^ y) * 10 ^ y := by
      field_simp
    rw [hfactor, abs_mul, abs_of_pos hten]
    linarith [mul_le_mul_of_nonneg_right hnear hten.le]
  obtain ⟨hbelow, habove⟩ := abs_le.1 hnear
  have hnlow : 10 ^ (p - 1) ≤ n := by
    rw [← le_div_iff₀ hten] at hlow
    have : (10 : ℚ) ^ (p - 1) < n + 1 := by linarith
    have : 10 ^ (p - 1) < n + 1 := by exact_mod_cast this
    omega
  have hnhigh : n ≤ 10 ^ p := by
    rw [← div_lt_iff₀ hten] at hhigh
    have : (n : ℚ) < 10 ^ p + 1 := by linarith
    have : n < 10 ^ p + 1 := by exact_mod_cast this
    omega
  rcases hnhigh.eq_or_lt with rfl | hlt
  · refine ⟨10 ^ (p - 1), y + 1, y, carry_eq_written hp y, le_rfl,
      Nat.pow_lt_pow_right (by decide) (by omega), by omega, hlow, hhigh, ?_⟩
    have hvalue := decimal_mul_pow (10 ^ (p - 1)) 1 y
    rw [pow_one, pow_sub_one_mul hp.ne'] at hvalue
    exact hvalue ▸ hscaled
  · have hlen : (Text.ofNat n).length ≤ p := (Text.length_ofNat_le_iff hp).2 hlt
    have hwritten : ⟨(Text.ofNat n).take p, y + (Text.ofNat n).length - 1⟩ = written n y := by
      rw [written, List.take_of_length_le hlen]
    exact ⟨n, y, y, hwritten, hnlow, hlt, le_rfl, hlow, hhigh, hscaled⟩

/-- A magnitude near to a decimal of at most `p` digits is written as that decimal. If the grid of
the magnitude is coarser than that of the decimal, the decimal falls short of its first point. -/
theorem rounded_eq_of_near {m : Magnitude} {p c : ℕ} {x : ℤ} (hp : 0 < p) (hp' : p ≤ 12)
    (hc : c ≠ 0) (hcp : c < 10 ^ p) (hnear : |m.value - decimal c x| ≤ decimal c x / 2 ^ 47) :
    ∃ n z, rounded p m = written n z ∧ n ≠ 0 ∧ n < 10 ^ p ∧ decimal n z = decimal c x := by
  have hpos := decimal_pos hc x
  obtain ⟨hlow, hhigh⟩ := abs_le.1 hnear
  have hm : m.units ≠ 0 := by
    rintro h
    rw [value_eq_zero.2 h] at hlow
    linarith
  have hp'' : (10 : ℚ) ^ p ≤ 10 ^ 12 := pow_le_pow_right₀ (by norm_num) hp'
  have hcp' : (c : ℚ) + 1 ≤ 10 ^ p := by exact_mod_cast hcp
  obtain ⟨n, z, y, hrounded, hnlow, hnhigh, hyz, hgrid, hgrid', hdigits⟩ := rounded_spec hm hp
  refine ⟨n, z, hrounded, ?_, hnhigh, ?_⟩
  · rintro rfl
    exact absurd hnlow (not_le.2 (Nat.pow_pos (by decide)))
  · -- On a grid that is as fine as the decimal, both are points of it and nearer than one step. On
    -- a coarser one the decimal would lie below the first point, and `m` with it.
    rcases le_or_gt y x with hyx | hxy
    · have hten : (0 : ℚ) < 10 ^ y := by positivity
      have hupper : decimal c x / 2 ^ 47 < 10 ^ y / 4 := by
        have hbound : (10 : ℚ) ^ p * 10 ^ y ≤ 10 ^ 12 * 10 ^ y :=
          mul_le_mul_of_nonneg_right hp'' hten.le
        linarith
      have hclose : |decimal n z - decimal c x| < 10 ^ y := by
        have := abs_sub_le (decimal n z) m.value (decimal c x)
        linarith
      exact decimal_eq_of_sub_lt hyx hyz hclose
    · have hten : (0 : ℚ) < 10 ^ x := by positivity
      have hstep : (10 : ℚ) * 10 ^ x ≤ 10 ^ y := by
        rw [← zpow_one_add₀ (by norm_num)]
        exact zpow_le_zpow_right₀ (by norm_num) (by omega)
      have hfirst : (10 : ℚ) ^ p * 10 ^ x ≤ m.value := by
        refine le_trans ?_ hgrid
        rw [← pow_sub_one_mul hp.ne', mul_assoc]
        exact mul_le_mul_of_nonneg_left hstep (by positivity)
      have hshort : decimal c x + 10 ^ x ≤ 10 ^ p * 10 ^ x := by
        rw [decimal, ← add_one_mul]
        exact mul_le_mul_of_nonneg_right hcp' hten.le
      have hbound : (10 : ℚ) ^ p * 10 ^ x ≤ 10 ^ 12 * 10 ^ x :=
        mul_le_mul_of_nonneg_right hp'' hten.le
      linarith

end Scientific

end PocketCalculator
