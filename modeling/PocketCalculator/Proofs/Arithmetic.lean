/-
# Arithmetic as rounded rational arithmetic

Each operation on finite values is the rational operation, rounded once. `Binary64.Near x q` says
that `x` is a finite value that rounding `q` may give: it is off by at most the part `2⁻⁵³` of `q`,
or by a negligible amount. Results that are whole numbers of at most 53 binary digits are exact,
and so are negation and `Binary64.floor`.
-/

import PocketCalculator.Proofs.Rounding
import Mathlib.Data.Nat.Cast.Field

namespace PocketCalculator
namespace Binary64

seal unitsOfOne unitsLimit

/-- A finite value that is off by as much as rounding `q` may be. -/
def Near (x : Binary64) (q : ℚ) : Prop :=
  x.isFinite ∧ |x.toRat - q| ≤ |q| / 2 ^ 53 + 1 / 2 ^ 100

/-- A finite value is a magnitude with a sign. -/
theorem exists_finite_of_isFinite {x : Binary64} (hx : x.isFinite) :
    ∃ negative m, x = .finite negative m := by
  cases x with
  | finite negative m => exact ⟨negative, m, rfl⟩
  | infinite negative => cases hx
  | nan => cases hx

/-- Rounding keeps the sign, if it is finite. -/
theorem exists_finite_of_isFinite_rounded {negative : Bool} {q : ℚ}
    (h : (rounded negative q).isFinite) : ∃ m, rounded negative q = .finite negative m := by
  rw [rounded, ofRatio, ofUnits] at h ⊢
  split
  · exact ⟨_, rfl⟩
  · rename_i hnot
    rw [dif_neg hnot] at h
    cases h

/-- The signed units of a value, as the number that they stand for. -/
theorem signedUnits_div_unitsOfOne (negative : Bool) (m : Magnitude) :
    (signedUnits negative m : ℚ) / unitsOfOne = (finite negative m).toRat := by
  cases negative
  · rfl
  · rw [toRat_finite_true, Magnitude.value, signedUnits]
    push_cast
    exact neg_div _ _

/-- Only no units are zero. -/
theorem value_eq_zero {m : Magnitude} : m.value = 0 ↔ m.units = 0 := by
  have hone : (unitsOfOne : ℚ) ≠ 0 := by exact_mod_cast unitsOfOne_pos.ne'
  rw [Magnitude.value, div_eq_zero_iff, or_iff_left hone, Nat.cast_eq_zero]

/-- Both zeros stand for zero. -/
theorem toRat_zero (negative : Bool) : (zero negative).toRat = 0 := by
  have hvalue : Magnitude.zero.value = 0 := value_eq_zero.2 rfl
  cases negative
  · exact hvalue
  · rw [zero, toRat_finite_true, hvalue, neg_zero]

/-- Rounding the absolute value of `q` under the sign of `q`, if the result is finite. -/
theorem near_rounded_abs_of_isFinite {negative : Bool} {q : ℚ}
    (hsign : q = if negative then -|q| else |q|) (hfinite : (rounded negative |q|).isFinite) :
    Near (rounded negative |q|) q := by
  obtain ⟨m, hm⟩ := exists_finite_of_isFinite_rounded hfinite
  have hnear := near_of_rounded (abs_nonneg q) hm
  rw [hm]
  refine ⟨rfl, ?_⟩
  cases negative with
  | false =>
    have hq : |q| = q := hsign.symm
    rw [toRat_finite_false]
    rwa [hq] at hnear ⊢
  | true =>
    have hq : q = -|q| := hsign
    have hdiff : (finite true m).toRat - q = -(m.value - |q|) := by
      rw [toRat_finite_true]
      linarith
    rwa [hdiff, abs_neg]

/-- Rounding the absolute value of `q` under the sign of `q`, if `q` is not too great. -/
theorem near_rounded_abs {negative : Bool} {q : ℚ} (hsign : q = if negative then -|q| else |q|)
    (hlimit : |q| ≤ 2 ^ 1023) : Near (rounded negative |q|) q := by
  obtain ⟨m, hm⟩ := exists_rounded_eq negative (abs_nonneg q) hlimit
  exact near_rounded_abs_of_isFinite hsign (by rw [hm]; rfl)

/-! ### The operations -/

/-- Negation is exact. -/
theorem toRat_neg (x : Binary64) : (-x).toRat = -x.toRat := by
  cases x with
  | finite negative m =>
    cases negative
    · rfl
    · exact (neg_neg m.value).symm
  | infinite negative => exact neg_zero.symm
  | nan => exact neg_zero.symm

/-- Negation keeps what is finite. -/
theorem isFinite_neg (x : Binary64) : (-x).isFinite = x.isFinite := by
  cases x <;> rfl

/-- A sum that is not zero is the exact sum rounded. -/
theorem add_eq_rounded {x y : Binary64} (hx : x.isFinite) (hy : y.isFinite)
    (hsum : x.toRat + y.toRat ≠ 0) :
    x + y = rounded (x.toRat + y.toRat < 0) |x.toRat + y.toRat| := by
  obtain ⟨a, m, rfl⟩ := exists_finite_of_isFinite hx
  obtain ⟨b, n, rfl⟩ := exists_finite_of_isFinite hy
  set sum := signedUnits a m + signedUnits b n with hsumdef
  have hone : (0 : ℚ) < unitsOfOne := by exact_mod_cast unitsOfOne_pos
  have hrat : (finite a m).toRat + (finite b n).toRat = (sum : ℚ) / unitsOfOne := by
    rw [← signedUnits_div_unitsOfOne, ← signedUnits_div_unitsOfOne, ← add_div, hsumdef,
      Int.cast_add]
  have hne : sum ≠ 0 := by
    rintro h
    rw [hrat, h, Int.cast_zero, zero_div] at hsum
    exact hsum rfl
  have hsign : ((sum : ℚ) / unitsOfOne < 0) ↔ sum < 0 := by
    rw [div_lt_iff₀ hone, zero_mul, Int.cast_lt_zero]
  have habs : |(sum : ℚ) / unitsOfOne| = (sum.natAbs : ℚ) / (1 : ℕ) / unitsOfOne := by
    rw [abs_div, abs_of_pos hone, Nat.cast_one, div_one, Nat.cast_natAbs, Int.cast_abs]
  have hadd : finite a m + finite b n = ofUnits (sum < 0) sum.natAbs 1 := if_neg hne
  rw [hadd, ofUnits_eq_rounded _ Nat.one_pos, hrat, habs]
  simp only [hsign]

/-- An exact sum of zero is a zero of some sign. -/
theorem add_eq_zero {x y : Binary64} (hx : x.isFinite) (hy : y.isFinite)
    (hsum : x.toRat + y.toRat = 0) : ∃ negative, x + y = zero negative := by
  obtain ⟨a, m, rfl⟩ := exists_finite_of_isFinite hx
  obtain ⟨b, n, rfl⟩ := exists_finite_of_isFinite hy
  have hone : (unitsOfOne : ℚ) ≠ 0 := by exact_mod_cast unitsOfOne_pos.ne'
  have hzero : signedUnits a m + signedUnits b n = 0 := by
    rw [← signedUnits_div_unitsOfOne, ← signedUnits_div_unitsOfOne, ← add_div, div_eq_zero_iff,
      or_iff_left hone] at hsum
    exact_mod_cast hsum
  exact ⟨a && b, if_pos hzero⟩

/-- A sum is the exact sum rounded, up to the sign of a zero. -/
theorem exists_add_eq {x y : Binary64} (hx : x.isFinite) (hy : y.isFinite) :
    ∃ negative : Bool, (x.toRat + y.toRat =
        if negative then -|x.toRat + y.toRat| else |x.toRat + y.toRat|) ∧
      x + y = rounded negative |x.toRat + y.toRat| := by
  by_cases hsum : x.toRat + y.toRat = 0
  · obtain ⟨negative, h⟩ := add_eq_zero hx hy hsum
    have hzero : Magnitude.zero.value = 0 := value_eq_zero.2 rfl
    refine ⟨negative, by simp [hsum], ?_⟩
    rw [h, hsum, abs_zero, ← hzero, rounded_value, zero]
  · refine ⟨x.toRat + y.toRat < 0, ?_, add_eq_rounded hx hy hsum⟩
    by_cases hneg : x.toRat + y.toRat < 0
    · simp [hneg, abs_of_neg hneg]
    · simp [hneg, abs_of_nonneg (not_lt.1 hneg)]

/-- **A sum is off by little**, if it is not too great. -/
theorem near_add {x y : Binary64} (hx : x.isFinite) (hy : y.isFinite)
    (hlimit : |x.toRat + y.toRat| ≤ 2 ^ 1023) : Near (x + y) (x.toRat + y.toRat) := by
  obtain ⟨negative, hsign, hadd⟩ := exists_add_eq hx hy
  rw [hadd]
  exact near_rounded_abs hsign hlimit

/-- A sum that is finite is off by little. -/
theorem near_add_of_isFinite {x y : Binary64} (hx : x.isFinite) (hy : y.isFinite)
    (hfinite : (x + y).isFinite) : Near (x + y) (x.toRat + y.toRat) := by
  obtain ⟨negative, hsign, hadd⟩ := exists_add_eq hx hy
  rw [hadd] at hfinite ⊢
  exact near_rounded_abs_of_isFinite hsign hfinite

/-- A sum that is a whole number of at most 53 binary digits is exact. -/
theorem add_eq_intCast {x y : Binary64} {n : ℤ} (hx : x.isFinite) (hy : y.isFinite)
    (hsum : x.toRat + y.toRat = n) (hn : n.natAbs ≤ 2 ^ 53) :
    (x + y).isFinite ∧ (x + y).toRat = n := by
  by_cases hzero : x.toRat + y.toRat = 0
  · obtain ⟨negative, h⟩ := add_eq_zero hx hy hzero
    rw [h, ← hsum, hzero]
    exact ⟨rfl, toRat_zero negative⟩
  · rw [add_eq_rounded hx hy hzero, hsum]
    have habs : |(n : ℚ)| = n.natAbs := by rw [Nat.cast_natAbs, Int.cast_abs]
    obtain ⟨m, hm, hvalue⟩ := rounded_natCast ((n : ℚ) < 0) hn
    rw [habs, hm]
    refine ⟨rfl, ?_⟩
    by_cases hneg : (n : ℚ) < 0
    · rw [decide_eq_true hneg, toRat_finite_true, hvalue, ← habs, abs_of_neg hneg, neg_neg]
    · rw [decide_eq_false hneg, toRat_finite_false, hvalue, ← habs, abs_of_nonneg (not_lt.1 hneg)]

/-- **A difference is off by little**, if it is not too great. -/
theorem near_sub {x y : Binary64} (hx : x.isFinite) (hy : y.isFinite)
    (hlimit : |x.toRat - y.toRat| ≤ 2 ^ 1023) : Near (x - y) (x.toRat - y.toRat) := by
  have hsub : x - y = x + -y := rfl
  have hrat : x.toRat - y.toRat = x.toRat + (-y).toRat := by rw [toRat_neg, sub_eq_add_neg]
  rw [hrat] at hlimit ⊢
  rw [hsub]
  exact near_add hx ((isFinite_neg y).trans hy) hlimit

/-- A difference that is a whole number of at most 53 binary digits is exact. -/
theorem sub_eq_intCast {x y : Binary64} {n : ℤ} (hx : x.isFinite) (hy : y.isFinite)
    (hdiff : x.toRat - y.toRat = n) (hn : n.natAbs ≤ 2 ^ 53) :
    (x - y).isFinite ∧ (x - y).toRat = n := by
  rw [sub_eq_add_neg, ← toRat_neg] at hdiff
  exact add_eq_intCast hx ((isFinite_neg y).trans hy) hdiff hn

/-- The sign of a product or a quotient. -/
theorem toRat_sign_cases (a b : Bool) (m n : Magnitude) :
    (finite a m).toRat * (finite b n).toRat =
      if (a != b) then -(m.value * n.value) else m.value * n.value := by
  cases a <;> cases b <;> simp [toRat]

/-- A product of magnitudes is the exact product rounded, under the sign of both. -/
theorem mul_eq_rounded (a b : Bool) (m n : Magnitude) :
    finite a m * finite b n = rounded (a != b) (m.value * n.value) := by
  have hmul : finite a m * finite b n = ofUnits (a != b) (m.units * n.units) unitsOfOne := rfl
  rw [hmul, ofUnits_eq_rounded _ unitsOfOne_pos]
  congr 1
  rw [Magnitude.value, Magnitude.value, Nat.cast_mul, div_mul_div_comm, div_div]

/-- A product is the exact product rounded. -/
theorem exists_mul_eq {x y : Binary64} (hx : x.isFinite) (hy : y.isFinite) :
    ∃ negative : Bool, (x.toRat * y.toRat =
        if negative then -|x.toRat * y.toRat| else |x.toRat * y.toRat|) ∧
      x * y = rounded negative |x.toRat * y.toRat| := by
  obtain ⟨a, m, rfl⟩ := exists_finite_of_isFinite hx
  obtain ⟨b, n, rfl⟩ := exists_finite_of_isFinite hy
  have habs : |(finite a m).toRat * (finite b n).toRat| = m.value * n.value := by
    rw [abs_mul, abs_toRat_finite, abs_toRat_finite]
  refine ⟨a != b, ?_, ?_⟩
  · rw [habs, toRat_sign_cases]
  · rw [mul_eq_rounded, habs]

/-- **A product is off by little**, if it is not too great. -/
theorem near_mul {x y : Binary64} (hx : x.isFinite) (hy : y.isFinite)
    (hlimit : |x.toRat * y.toRat| ≤ 2 ^ 1023) : Near (x * y) (x.toRat * y.toRat) := by
  obtain ⟨negative, hsign, hmul⟩ := exists_mul_eq hx hy
  rw [hmul]
  exact near_rounded_abs hsign hlimit

/-- A product that is finite is off by little. -/
theorem near_mul_of_isFinite {x y : Binary64} (hx : x.isFinite) (hy : y.isFinite)
    (hfinite : (x * y).isFinite) : Near (x * y) (x.toRat * y.toRat) := by
  obtain ⟨negative, hsign, hmul⟩ := exists_mul_eq hx hy
  rw [hmul] at hfinite ⊢
  exact near_rounded_abs_of_isFinite hsign hfinite

/-- A quotient of magnitudes is the exact quotient rounded, under the sign of both. -/
theorem div_eq_rounded (a b : Bool) (m : Magnitude) {n : Magnitude} (hn : n.value ≠ 0) :
    finite a m / finite b n = rounded (a != b) (m.value / n.value) := by
  have hunits : n.units ≠ 0 := mt value_eq_zero.2 hn
  have hone : (unitsOfOne : ℚ) ≠ 0 := by exact_mod_cast unitsOfOne_pos.ne'
  have hdiv : finite a m / finite b n = ofRatio (a != b) m.units n.units := if_neg hunits
  rw [hdiv, ofRatio_eq_rounded _ (Nat.pos_of_ne_zero hunits)]
  congr 1
  rw [Magnitude.value, Magnitude.value, div_div_div_cancel_right₀ hone]

/-- The order of finite values is that of the numbers. -/
theorem le_iff_toRat_le {x y : Binary64} (hx : x.isFinite) (hy : y.isFinite) :
    x ≤ y ↔ x.toRat ≤ y.toRat := by
  obtain ⟨a, m, rfl⟩ := exists_finite_of_isFinite hx
  obtain ⟨b, n, rfl⟩ := exists_finite_of_isFinite hy
  have hone : (0 : ℚ) < unitsOfOne := by exact_mod_cast unitsOfOne_pos
  rw [← signedUnits_div_unitsOfOne, ← signedUnits_div_unitsOfOne, div_le_div_iff_of_pos_right hone,
    Int.cast_le]
  exact decide_eq_true_iff

/-! ### Whole numbers -/

/-- Beyond 53 binary digits every value is a whole number. -/
theorem value_eq_natCast_of_le {m : Magnitude} (hm : 2 ^ 53 ≤ m.value) :
    ((m.units / unitsOfOne : ℕ) : ℚ) = m.value := by
  have hone : (unitsOfOne : ℚ) ≠ 0 := by exact_mod_cast unitsOfOne_pos.ne'
  have hunits : 2 ^ 53 * unitsOfOne ≤ m.units := by
    rw [Magnitude.value, le_div_iff₀ (by exact_mod_cast unitsOfOne_pos)] at hm
    exact_mod_cast hm
  have hdvd : unitsOfOne ∣ m.units := by
    rw [unitsOfOne_eq] at hunits ⊢
    generalize places = n at hunits ⊢
    have hpos : 0 < 2 ^ 53 * 2 ^ n := Nat.mul_pos (Nat.two_pow_pos 53) (Nat.two_pow_pos n)
    have hlog : 53 + n ≤ m.units.log2 := by
      rw [Nat.le_log2 (hpos.trans_le hunits).ne', Nat.pow_add]
      exact hunits
    exact (Nat.pow_dvd_pow 2 (by omega)).trans m.representable.2
  rw [Magnitude.value, Nat.cast_div hdvd hone]

/-- Beyond 53 binary digits every value is its own floor. -/
theorem floor_toRat_of_le {x : Binary64} (hx : x.isFinite) (hbig : 2 ^ 53 ≤ |x.toRat|) :
    (⌊x.toRat⌋ : ℚ) = x.toRat := by
  obtain ⟨a, m, rfl⟩ := exists_finite_of_isFinite hx
  rw [abs_toRat_finite] at hbig
  rw [Int.floor_eq_self_iff_mem]
  cases a with
  | false => exact ⟨(m.units / unitsOfOne : ℕ), by exact_mod_cast value_eq_natCast_of_le hbig⟩
  | true =>
    refine ⟨-(m.units / unitsOfOne : ℕ), ?_⟩
    rw [toRat_finite_true, ← value_eq_natCast_of_le hbig]
    push_cast
    rfl

/-- A natural number of at most 53 binary digits, as a quotient by one, is exact. -/
theorem ofRatio_one_natCast (negative : Bool) {n : ℕ} (hn : n ≤ 2 ^ 53) :
    ∃ m, ofRatio negative n 1 = .finite negative m ∧ m.value = n := by
  rw [ofRatio_eq_rounded negative Nat.one_pos, Nat.cast_one, div_one]
  exact rounded_natCast negative hn

/-- The whole units of one in a magnitude, and whether anything is left. -/
theorem value_bounds (m : Magnitude) :
    ((m.units / unitsOfOne : ℕ) : ℚ) ≤ m.value ∧ m.value < (m.units / unitsOfOne : ℕ) + 1 ∧
      (m.units % unitsOfOne = 0 → ((m.units / unitsOfOne : ℕ) : ℚ) = m.value) ∧
      (m.units % unitsOfOne ≠ 0 → ((m.units / unitsOfOne : ℕ) : ℚ) < m.value) := by
  have hone : (0 : ℚ) < unitsOfOne := by exact_mod_cast unitsOfOne_pos
  have hdiv := Nat.div_add_mod m.units unitsOfOne
  have hmod := Nat.mod_lt m.units unitsOfOne_pos
  generalize m.units / unitsOfOne = whole at hdiv ⊢
  generalize m.units % unitsOfOne = rest at hdiv hmod ⊢
  have hunits : (m.units : ℚ) = unitsOfOne * whole + rest := by exact_mod_cast hdiv.symm
  have hvalue : m.value = whole + rest / unitsOfOne := by
    rw [Magnitude.value, hunits]
    field_simp
  have hrest : (rest : ℚ) / unitsOfOne < 1 := (div_lt_one hone).2 (by exact_mod_cast hmod)
  have hnonneg : 0 ≤ (rest : ℚ) / unitsOfOne := by positivity
  refine ⟨by linarith, by linarith, ?_, ?_⟩
  · rintro rfl
    rw [hvalue, Nat.cast_zero, zero_div, add_zero]
  · intro hne
    have : 0 < (rest : ℚ) / unitsOfOne := div_pos (by exact_mod_cast Nat.pos_of_ne_zero hne) hone
    linarith

/-- The floor of a finite value is exact. -/
theorem floor_spec {x : Binary64} (hx : x.isFinite) :
    x.floor.isFinite ∧ x.floor.toRat = ⌊x.toRat⌋ := by
  obtain ⟨a, m, rfl⟩ := exists_finite_of_isFinite hx
  obtain ⟨hlow, hhigh, hexact, hstrict⟩ := value_bounds m
  have hfloor : floor (finite a m) =
      if a = true ∧ m.units % unitsOfOne ≠ 0 then ofRatio a (m.units / unitsOfOne + 1) 1
      else ofRatio a (m.units / unitsOfOne) 1 := rfl
  rw [hfloor]
  -- Below `2 ^ 53` a rest can stand behind the point, and the whole units are exact. From there on
  -- every value is whole, and the floor changes nothing.
  rcases lt_or_ge m.value (2 ^ 53) with hsmall | hbig
  · have hwhole : m.units / unitsOfOne + 1 ≤ 2 ^ 53 := by
      have : ((m.units / unitsOfOne : ℕ) : ℚ) < 2 ^ 53 := hlow.trans_lt hsmall
      exact_mod_cast this
    generalize m.units / unitsOfOne = whole at hlow hhigh hexact hstrict hwhole ⊢
    generalize m.units % unitsOfOne = rest at hexact hstrict ⊢
    split
    · rename_i hcond
      obtain ⟨rfl, hrest⟩ := hcond
      obtain ⟨n, hn, hvalue⟩ := ofRatio_one_natCast true hwhole
      have hbelow := hstrict hrest
      have hint : ⌊-m.value⌋ = -(whole + 1 : ℤ) := by
        rw [Int.floor_eq_iff]
        push_cast
        constructor <;> linarith
      rw [hn, toRat_finite_true, toRat_finite_true, hvalue, hint]
      exact ⟨rfl, by push_cast; ring⟩
    · rename_i hcond
      obtain ⟨n, hn, hvalue⟩ := ofRatio_one_natCast a (Nat.le_of_succ_le hwhole)
      rw [hn]
      refine ⟨rfl, ?_⟩
      cases a with
      | false =>
        have hint : ⌊m.value⌋ = (whole : ℤ) := by
          rw [Int.floor_eq_iff]
          exact ⟨by exact_mod_cast hlow, by exact_mod_cast hhigh⟩
        rw [toRat_finite_false, toRat_finite_false, hvalue, hint, Int.cast_natCast]
      | true =>
        have hvalue' : (whole : ℚ) = m.value := hexact (by simpa using hcond)
        have hint : ⌊-(whole : ℚ)⌋ = -(whole : ℤ) := by
          rw [← Int.cast_natCast, ← Int.cast_neg, Int.floor_intCast]
        rw [toRat_finite_true, toRat_finite_true, hvalue, ← hvalue', hint]
        push_cast
        rfl
  · have hwhole := value_eq_natCast_of_le hbig
    have hrest : m.units % unitsOfOne = 0 := by
      by_contra hne
      exact absurd hwhole (hstrict hne).ne
    rw [if_neg fun h => h.2 hrest, ofRatio_eq_rounded a Nat.one_pos, Nat.cast_one, div_one, hwhole,
      rounded_value]
    refine ⟨rfl, ?_⟩
    cases a with
    | false => rw [toRat_finite_false, ← hwhole, Int.floor_natCast, Int.cast_natCast]
    | true =>
      rw [toRat_finite_true, ← hwhole, ← Int.cast_natCast, ← Int.cast_neg, Int.floor_intCast]

end Binary64
end PocketCalculator
