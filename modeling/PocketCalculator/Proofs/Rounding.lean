/-
# Rounding as a function of the exact value

`Binary64.rounded negative q` is the binary64 value nearest to the rational number `q`. Whatever
quotient an operation writes its exact result as, rounding it gives this value
(`Binary64.ofRatio_eq_rounded`), so that everything below speaks of rational numbers only.

Two facts about rounding carry all later bounds:

- `Binary64.rounded_value`: a value that exists is its own rounding;
- `Binary64.near_of_rounded`: a finite rounding is off by at most the part `2⁻⁵³` of the number, or
  by a negligible amount where the values lie denser than that. Up to `2 ^ 1023` there is one
  (`Binary64.exists_rounded_eq`).
-/

import PocketCalculator.Binary64.Arithmetic
import Mathlib.Algebra.Order.Field.Basic
import Mathlib.Data.Nat.Cast.Order.Field
import Mathlib.Data.Rat.Floor
import Mathlib.Tactic.FieldSimp
import Mathlib.Tactic.Linarith
import Mathlib.Tactic.Positivity
import Mathlib.Tactic.Ring

namespace PocketCalculator

/-! ### Nearest whole numbers -/

/-- The nearest whole number is at most one half away. -/
theorem roundHalfEven_bounds {den : ℕ} (num : ℕ) (hden : 0 < den) :
    2 * num ≤ (2 * roundHalfEven num den + 1) * den ∧
      2 * roundHalfEven num den * den ≤ 2 * num + den := by
  have hdiv := Nat.div_add_mod num den
  have hmod := Nat.mod_lt num hden
  have hq : 2 * (num / den) * den = 2 * (den * (num / den)) := by ring
  simp only [roundHalfEven]
  split
  · constructor
    · rw [Nat.add_mul, hq]; omega
    · rw [hq]; omega
  · have hq' : 2 * (num / den + 1) * den = 2 * (den * (num / den)) + 2 * den := by ring
    constructor
    · rw [Nat.add_mul, hq']; omega
    · rw [hq']; omega

/-- The bounds of `roundHalfEven_bounds` as a distance. -/
theorem abs_roundHalfEven_sub_le {den : ℕ} (num : ℕ) (hden : 0 < den) :
    |(roundHalfEven num den : ℚ) - num / den| ≤ 1 / 2 := by
  obtain ⟨hlow, hhigh⟩ := roundHalfEven_bounds num hden
  have hden' : (0 : ℚ) < den := by exact_mod_cast hden
  have hlow' : (2 : ℚ) * num ≤ (2 * roundHalfEven num den + 1) * den := by exact_mod_cast hlow
  have hhigh' : (2 : ℚ) * roundHalfEven num den * den ≤ 2 * num + den := by exact_mod_cast hhigh
  rw [abs_le]
  constructor
  · rw [neg_le_sub_iff_le_add, div_le_iff₀ hden']
    linarith
  · rw [sub_le_iff_le_add, ← sub_le_iff_le_add', le_div_iff₀ hden']
    linarith

/-- Rounding a quotient does not depend on how it is written. -/
theorem roundHalfEven_scale {k : ℕ} (num den : ℕ) (hk : 0 < k) :
    roundHalfEven (k * num) (k * den) = roundHalfEven num den := by
  simp only [roundHalfEven, Nat.mul_div_mul_left _ _ hk, Nat.mul_mod_mul_left,
    Nat.mul_left_comm 2 k, Nat.mul_lt_mul_left hk, Nat.mul_right_inj hk.ne']

/-- A whole number is its own rounding. -/
theorem roundHalfEven_mul_self {den : ℕ} (n : ℕ) (hden : 0 < den) :
    roundHalfEven (n * den) den = n := by
  simp [roundHalfEven, Nat.mul_div_cancel _ hden, hden]

namespace Binary64

/-! ### Values as rational numbers -/

/-- One is `2 ^ places` units. -/
theorem unitsOfOne_eq : unitsOfOne = 2 ^ places := by
  unfold unitsOfOne
  generalize places = n
  rfl

theorem unitsOfOne_pos : 0 < unitsOfOne := by
  unfold unitsOfOne
  generalize places = n
  exact Nat.two_pow_pos n

-- Nothing below evaluates this power.
seal unitsOfOne

/-- The number that a magnitude stands for. -/
def Magnitude.value (m : Magnitude) : ℚ := m.units / unitsOfOne

/-- A magnitude has no sign of its own. -/
theorem Magnitude.value_nonneg (m : Magnitude) : 0 ≤ m.value := by
  unfold Magnitude.value
  positivity

/-- The number that a finite value stands for. -/
def toRat : Binary64 → ℚ
  | .finite negative m => if negative then -m.value else m.value
  | _ => 0

theorem toRat_finite_false (m : Magnitude) : (finite false m).toRat = m.value := rfl

theorem toRat_finite_true (m : Magnitude) : (finite true m).toRat = -m.value := rfl

/-- The sign does not change how far a value is from zero. -/
theorem abs_toRat_finite (negative : Bool) (m : Magnitude) :
    |(finite negative m).toRat| = m.value := by
  cases negative
  · exact abs_of_nonneg m.value_nonneg
  · rw [toRat_finite_true, abs_neg, abs_of_nonneg m.value_nonneg]

/-- The binary64 value nearest to `q`, which is not negative. -/
def rounded (negative : Bool) (q : ℚ) : Binary64 := ofRatio negative q.num.toNat q.den

/-! ### Rounding depends on the quotient alone -/

/-- Units are rounded as a quotient, however it is written. -/
theorem ofUnits_scale {k : ℕ} (negative : Bool) (num den : ℕ) (hk : 0 < k) :
    ofUnits negative (k * num) (k * den) = ofUnits negative num den := by
  have hnear : nearestUnits (k * num) (k * den) = nearestUnits num den := by
    simp only [nearestUnits, Nat.mul_div_mul_left _ _ hk, Nat.mul_assoc, roundHalfEven_scale _ _ hk]
  simp only [ofUnits, hnear]

/-- Equal quotients of units are rounded to one value. -/
theorem ofUnits_congr {num den num' den' : ℕ} (negative : Bool) (hden : 0 < den) (hden' : 0 < den')
    (h : num * den' = num' * den) : ofUnits negative num den = ofUnits negative num' den' := by
  rw [← ofUnits_scale negative num den hden', ← ofUnits_scale negative num' den' hden,
    Nat.mul_comm den' num, h, Nat.mul_comm num' den, Nat.mul_comm den' den]

/-- A quotient of units is rounded as the number it stands for. -/
theorem ofUnits_eq_rounded {num den : ℕ} (negative : Bool) (hden : 0 < den) :
    ofUnits negative num den = rounded negative (num / den / unitsOfOne) := by
  set q : ℚ := num / den / unitsOfOne with hq
  have hden' : (den : ℚ) ≠ 0 := by exact_mod_cast hden.ne'
  have hone : (unitsOfOne : ℚ) ≠ 0 := by exact_mod_cast unitsOfOne_pos.ne'
  have hqden : (q.den : ℚ) ≠ 0 := by exact_mod_cast q.den_ne_zero
  have hnonneg : 0 ≤ q := by positivity
  have hnum : ((q.num.toNat : ℕ) : ℚ) = q * q.den := by
    have hcast : ((q.num.toNat : ℤ) : ℚ) = q.num :=
      congrArg _ (Int.toNat_of_nonneg (Rat.num_nonneg.2 hnonneg))
    rw [Rat.mul_den_eq_num, ← hcast, Int.cast_natCast]
  rw [rounded, ofRatio]
  refine ofUnits_congr negative hden q.den_pos ?_
  have : (num * q.den : ℚ) = q.num.toNat * unitsOfOne * den := by
    rw [hnum, hq]
    field_simp
  exact_mod_cast this

/-- A quotient is rounded as the number it stands for. -/
theorem ofRatio_eq_rounded {num den : ℕ} (negative : Bool) (hden : 0 < den) :
    ofRatio negative num den = rounded negative (num / den) := by
  have hone : (unitsOfOne : ℚ) ≠ 0 := by exact_mod_cast unitsOfOne_pos.ne'
  rw [ofRatio, ofUnits_eq_rounded negative hden]
  congr 1
  push_cast
  field_simp

/-! ### Which values exist -/

/-- The limit of the units is that of the values. -/
theorem unitsLimit_eq : unitsLimit = 2 ^ 1024 * unitsOfOne := by
  unfold unitsLimit unitsOfOne
  generalize places = n
  generalize 1024 = k
  exact Nat.pow_add 2 k n

seal unitsLimit

/-- Every magnitude is below the limit of the values. -/
theorem Magnitude.value_lt (m : Magnitude) : m.value < 2 ^ 1024 := by
  have hone : (0 : ℚ) < unitsOfOne := by exact_mod_cast unitsOfOne_pos
  have hlt := m.representable.1
  rw [unitsLimit_eq] at hlt
  rw [Magnitude.value, div_lt_iff₀ hone]
  generalize 1024 = k at hlt ⊢
  exact_mod_cast hlt

/-- One is at least `2 ^ 100` units. -/
theorem pow_hundred_le_unitsOfOne : 2 ^ 100 ≤ unitsOfOne := by
  have hplaces : 100 ≤ places := by decide
  unfold unitsOfOne
  generalize places = n at hplaces ⊢
  exact Nat.pow_le_pow_right (by decide) hplaces

/-- At most 53 binary digits, with zeros behind them, are a value if it is not too great. -/
theorem representable_mul_two_pow {r : ℕ} (e : ℕ) (hr : r ≤ 2 ^ 53) (hlt : r * 2 ^ e < unitsLimit) :
    Representable (r * 2 ^ e) := by
  refine ⟨hlt, ?_⟩
  rcases Nat.eq_zero_or_pos r with rfl | hpos
  · simp
  rcases hr.eq_or_lt with rfl | hr
  · rw [← Nat.pow_add, Nat.log2_two_pow]
    exact Nat.pow_dvd_pow 2 (by omega)
  · have hlog : (r * 2 ^ e).log2 < 53 + e := by
      rw [Nat.log2_lt (by positivity), Nat.pow_add]
      exact Nat.mul_lt_mul_of_pos_right hr (by positivity)
    exact (Nat.pow_dvd_pow 2 (by omega)).trans (Nat.dvd_mul_left _ _)

/-- The exponent of the spacing around a number of units. -/
def spacingExponent (num den : ℕ) : ℕ := (num / den).log2 - 52

/-- Rounding to units is rounding to a whole number of spacings. -/
theorem nearestUnits_eq (num den : ℕ) :
    nearestUnits num den =
      roundHalfEven num (den * 2 ^ spacingExponent num den) * 2 ^ spacingExponent num den := rfl

/-- A number of units is rounded to at most `2 ^ 53` spacings. -/
theorem roundHalfEven_spacing_le (num den : ℕ) :
    roundHalfEven num (den * 2 ^ spacingExponent num den) ≤ 2 ^ 53 := by
  set e := spacingExponent num den with he
  have hfloor : num / den < 2 ^ 53 * 2 ^ e := by
    rw [← Nat.pow_add]
    exact Nat.lt_log2_self.trans_le (Nat.pow_le_pow_right (by decide) (by
      rw [he, spacingExponent]; omega))
  have hquot : num / (den * 2 ^ e) < 2 ^ 53 := by
    rw [← Nat.div_div_eq_div_mul]
    exact Nat.div_lt_of_lt_mul (by rwa [Nat.mul_comm])
  unfold roundHalfEven
  dsimp only
  split
  · exact hquot.le
  · exact hquot

/-- Rounding to units is off by half a spacing, or by half a unit where units are the spacing. -/
theorem abs_nearestUnits_sub_le {den : ℕ} (num : ℕ) (hden : 0 < den) :
    |(nearestUnits num den : ℚ) - num / den| ≤ num / den / 2 ^ 53 + 1 / 2 := by
  set e := spacingExponent num den with he
  have hden' : (0 : ℚ) < den := by exact_mod_cast hden
  have hround := abs_roundHalfEven_sub_le num (Nat.mul_pos hden (Nat.two_pow_pos e))
  have hspacing : (2 : ℚ) ^ e ≤ num / den / 2 ^ 52 + 1 := by
    rcases Nat.lt_or_ge (num / den).log2 53 with hlog | hlog
    · have hzero : e = 0 := by rw [he, spacingExponent]; omega
      rw [hzero, pow_zero, le_add_iff_nonneg_left]
      positivity
    · have hsplit : (num / den).log2 = e + 52 := by rw [he, spacingExponent]; omega
      have hle : 2 ^ e * 2 ^ 52 ≤ num / den := by
        rw [← Nat.pow_add, ← hsplit]
        exact Nat.log2_self_le (by rintro h; simp [h] at hlog)
      have hle' : (2 : ℚ) ^ e * 2 ^ 52 ≤ num / den :=
        (by exact_mod_cast hle : (2 : ℚ) ^ e * 2 ^ 52 ≤ (num / den : ℕ)).trans Nat.cast_div_le
      rw [← le_div_iff₀ (by positivity)] at hle'
      linarith
  have hscaled : |(nearestUnits num den : ℚ) - num / den| ≤ 1 / 2 * 2 ^ e := by
    have hfactor : (nearestUnits num den : ℚ) - num / den =
        (roundHalfEven num (den * 2 ^ e) - num / ((den * 2 ^ e : ℕ) : ℚ)) * 2 ^ e := by
      rw [nearestUnits_eq, ← he]
      push_cast
      field_simp
    rw [hfactor, abs_mul, abs_of_pos (by positivity : (0 : ℚ) < 2 ^ e)]
    exact mul_le_mul_of_nonneg_right hround (by positivity)
  calc |(nearestUnits num den : ℚ) - num / den| ≤ 1 / 2 * 2 ^ e := hscaled
    _ ≤ 1 / 2 * (num / den / 2 ^ 52 + 1) := by linarith
    _ = num / den / 2 ^ 53 + 1 / 2 := by ring

/-- A rounding within the limit is the number of units of a value. -/
theorem representable_nearestUnits {num den : ℕ} (hlt : nearestUnits num den < unitsLimit) :
    Representable (nearestUnits num den) := by
  rw [nearestUnits_eq] at hlt ⊢
  exact representable_mul_two_pow _ (roundHalfEven_spacing_le num den) hlt

/-- The spacing divides a magnitude, so rounding leaves it alone. -/
theorem nearestUnits_units (m : Magnitude) : nearestUnits m.units 1 = m.units := by
  obtain ⟨r, hr⟩ := m.representable.2
  have hr' : m.units = r * 2 ^ (m.units.log2 - 52) := by rw [Nat.mul_comm]; exact hr
  rw [nearestUnits_eq, spacingExponent, Nat.div_one, Nat.one_mul]
  generalize m.units.log2 - 52 = e at hr'
  rw [hr', roundHalfEven_mul_self _ (Nat.two_pow_pos e)]

/-! ### The two facts -/

/-- **A value that exists is its own rounding.** -/
theorem rounded_value (negative : Bool) (m : Magnitude) :
    rounded negative m.value = .finite negative m := by
  have hunits : ofUnits negative m.units 1 = rounded negative m.value := by
    rw [ofUnits_eq_rounded negative Nat.one_pos, Nat.cast_one, div_one, Magnitude.value]
  rw [← hunits, ofUnits]
  simp only [nearestUnits_units, m.representable, dite_true]

/-- The number of units that a number rounds to. -/
theorem nearestUnits_near {q : ℚ} (hq : 0 ≤ q) :
    |(nearestUnits (q.num.toNat * unitsOfOne) q.den : ℚ) - q * unitsOfOne| ≤
      q * unitsOfOne / 2 ^ 53 + 1 / 2 := by
  have hquot : ((q.num.toNat * unitsOfOne : ℕ) : ℚ) / q.den = q * unitsOfOne := by
    have hcast : ((q.num.toNat : ℤ) : ℚ) = q.num :=
      congrArg _ (Int.toNat_of_nonneg (Rat.num_nonneg.2 hq))
    rw [Nat.cast_mul, ← Int.cast_natCast q.num.toNat, hcast, mul_div_right_comm, Rat.num_div_den]
  have hnear := abs_nearestUnits_sub_le (q.num.toNat * unitsOfOne) q.den_pos
  rwa [hquot] at hnear

/-- **Rounding is off by little.** -/
theorem near_of_rounded {negative : Bool} {q : ℚ} {m : Magnitude} (hq : 0 ≤ q)
    (h : rounded negative q = .finite negative m) :
    |m.value - q| ≤ q / 2 ^ 53 + 1 / 2 ^ 100 := by
  have hone : (0 : ℚ) < unitsOfOne := by exact_mod_cast unitsOfOne_pos
  have hunits : (2 : ℚ) ^ 100 ≤ unitsOfOne := by exact_mod_cast pow_hundred_le_unitsOfOne
  have hm : m.units = nearestUnits (q.num.toNat * unitsOfOne) q.den := by
    rw [rounded, ofRatio, ofUnits] at h
    split at h
    · rw [← (Binary64.finite.inj h).2]
    · cases h
  have hnear := nearestUnits_near hq
  rw [← hm] at hnear
  have hvalue : m.value - q = (m.units - q * unitsOfOne) / unitsOfOne := by
    rw [Magnitude.value]
    field_simp
  calc |m.value - q| = |(m.units : ℚ) - q * unitsOfOne| / unitsOfOne := by
        rw [hvalue, abs_div, abs_of_pos hone]
    _ ≤ (q * unitsOfOne / 2 ^ 53 + 1 / 2) / unitsOfOne := div_le_div_of_nonneg_right hnear hone.le
    _ = q / 2 ^ 53 + 1 / 2 / unitsOfOne := by field_simp
    _ ≤ q / 2 ^ 53 + 1 / 2 ^ 100 := by
        gcongr
        · norm_num

/-- A number that may not reach the first power of two beyond all values has a finite rounding. -/
theorem exists_rounded_eq_of_add_le (negative : Bool) {q : ℚ} (hq : 0 ≤ q)
    (hlimit : q + q / 2 ^ 53 + 1 ≤ 2 ^ 1024) : ∃ m, rounded negative q = .finite negative m := by
  have hone : (1 : ℚ) ≤ unitsOfOne := by exact_mod_cast unitsOfOne_pos
  have hnear := nearestUnits_near hq
  set n := nearestUnits (q.num.toNat * unitsOfOne) q.den with hn
  have hlt : n < unitsLimit := by
    have hupper := (abs_le.1 hnear).2
    have hbig : (q + q / 2 ^ 53 + 1) * unitsOfOne ≤ 2 ^ 1024 * unitsOfOne :=
      mul_le_mul_of_nonneg_right hlimit (zero_le_one.trans hone)
    have hsplit : (q + q / 2 ^ 53 + 1) * unitsOfOne =
        q * unitsOfOne + q * unitsOfOne / 2 ^ 53 + unitsOfOne := by ring
    have : (n : ℚ) < unitsLimit := by
      rw [unitsLimit_eq, Nat.cast_mul, Nat.cast_pow, Nat.cast_ofNat]
      generalize (2 : ℚ) ^ 1024 * unitsOfOne = limit at hbig ⊢
      linarith
    exact_mod_cast this
  refine ⟨⟨n, representable_nearestUnits hlt⟩, ?_⟩
  rw [rounded, ofRatio, ofUnits]
  exact dif_pos (representable_nearestUnits hlt)

/-- Up to `2 ^ 1023` every number has a finite rounding. -/
theorem exists_rounded_eq (negative : Bool) {q : ℚ} (hq : 0 ≤ q) (hlimit : q ≤ 2 ^ 1023) :
    ∃ m, rounded negative q = .finite negative m := by
  refine exists_rounded_eq_of_add_le negative hq ?_
  have hpow : (2 : ℚ) ^ 1024 = 2 * 2 ^ 1023 := pow_succ' 2 1023
  have hpos : (2 : ℚ) ^ 2 ≤ 2 ^ 1023 := pow_le_pow_right₀ (by norm_num) (by norm_num)
  rw [hpow]
  generalize (2 : ℚ) ^ 1023 = limit at hlimit hpos ⊢
  linarith

/-- **Up to `2 ^ 1023` rounding is finite and off by little.** -/
theorem near_rounded (negative : Bool) {q : ℚ} (hq : 0 ≤ q) (hlimit : q ≤ 2 ^ 1023) :
    ∃ m, rounded negative q = .finite negative m ∧ |m.value - q| ≤ q / 2 ^ 53 + 1 / 2 ^ 100 := by
  obtain ⟨m, hm⟩ := exists_rounded_eq negative hq hlimit
  exact ⟨m, hm, near_of_rounded hq hm⟩

/-- A number of at most 53 binary digits is a value, also with binary places. -/
theorem rounded_div_two_pow (negative : Bool) {r k : ℕ} (hr : r ≤ 2 ^ 53) (hk : k ≤ places) :
    ∃ m, rounded negative (r / 2 ^ k) = .finite negative m ∧ m.value = r / 2 ^ k := by
  have hexponent : 53 < 1024 := by decide
  have hsplit : unitsOfOne = 2 ^ (places - k) * 2 ^ k := by
    rw [unitsOfOne_eq, ← Nat.pow_add, Nat.sub_add_cancel hk]
  have hlt : r * 2 ^ (places - k) < unitsLimit := by
    rw [unitsLimit_eq]
    generalize 1024 = limit at hexponent
    calc r * 2 ^ (places - k) ≤ 2 ^ 53 * unitsOfOne :=
          Nat.mul_le_mul hr (hsplit ▸ Nat.le_mul_of_pos_right _ (Nat.two_pow_pos k))
      _ < 2 ^ limit * unitsOfOne :=
          Nat.mul_lt_mul_of_pos_right (Nat.pow_lt_pow_right (by decide) hexponent) unitsOfOne_pos
  have hvalue : Magnitude.value ⟨_, representable_mul_two_pow _ hr hlt⟩ = r / 2 ^ k := by
    have hpow : ((2 ^ (places - k) : ℕ) : ℚ) ≠ 0 := by
      exact_mod_cast (Nat.two_pow_pos (places - k)).ne'
    rw [Magnitude.value, hsplit, Nat.cast_mul, Nat.cast_mul, mul_comm (r : ℚ),
      mul_div_mul_left _ _ hpow, Nat.cast_pow, Nat.cast_ofNat]
  exact ⟨_, by rw [← hvalue, rounded_value], hvalue⟩

/-- A natural number with at most 53 binary digits is a value. -/
theorem rounded_natCast (negative : Bool) {n : ℕ} (hn : n ≤ 2 ^ 53) :
    ∃ m, rounded negative n = .finite negative m ∧ m.value = n := by
  simpa using rounded_div_two_pow negative hn (Nat.zero_le places)

end Binary64
end PocketCalculator
