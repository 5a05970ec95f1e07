/-
# Rounding to ten decimal places

`Display.roundToTenPlaces x` adds `2⁻⁵²`, multiplies by `10¹⁰`, takes the nearest whole value and
divides again, with a rounding in every step. What is left of that here: the result is a whole
number `n` divided by `10¹⁰` and rounded once, and `n` is close to `10¹⁰ · x`, unless `x` is so
great that scaling it fails and `x` stays as it is.
-/

import PocketCalculator.Display
import PocketCalculator.Proofs.Arithmetic

namespace PocketCalculator

namespace Binary64

seal unitsOfOne unitsLimit

/-! ### Constants -/

/-- One over a power of two is exact. -/
theorem ofRatio_one_two_pow {k : ℕ} (hk : k ≤ places) :
    (ofRatio false 1 (2 ^ k)).isFinite ∧ (ofRatio false 1 (2 ^ k)).toRat = 1 / 2 ^ k := by
  obtain ⟨m, hm, hvalue⟩ := rounded_div_two_pow false (r := 1) (by decide) hk
  have hround := @ofRatio_eq_rounded 1 (2 ^ k) false (Nat.two_pow_pos k)
  push_cast at hround hm hvalue
  rw [hround, hm, toRat_finite_false, hvalue]
  exact ⟨rfl, rfl⟩

/-- A half is exact. -/
theorem toRat_half : half.isFinite ∧ half.toRat = 1 / 2 := by
  have hone := ofRatio_one_two_pow (k := 1) (by decide)
  rwa [pow_one, pow_one] at hone

/-- So is the `2⁻⁵²` that is added before scaling. -/
theorem toRat_epsilon : epsilon.isFinite ∧ epsilon.toRat = 1 / 2 ^ 52 :=
  ofRatio_one_two_pow (k := 52) (by decide)

/-- So is one. -/
theorem toRat_one : (1 : Binary64).isFinite ∧ (1 : Binary64).toRat = 1 := by
  obtain ⟨m, hm, hvalue⟩ := ofRatio_one_natCast false (n := 1) (by decide)
  rw [show (1 : Binary64) = ofRatio false 1 1 from rfl, hm, toRat_finite_false, hvalue,
    Nat.cast_one]
  exact ⟨rfl, rfl⟩

/-- A natural number of at most 53 binary digits is exact. -/
theorem ofNat_spec {n : ℕ} (hn : n ≤ 2 ^ 53) :
    ∃ m, ofNat n = .finite false m ∧ m.value = n :=
  ofRatio_one_natCast false hn

end Binary64

namespace Display

open Binary64

seal unitsOfOne unitsLimit

/-- **Half up is nearest**, up to what the subtraction in it loses: the result is a whole number
hardly more than one half away. -/
theorem roundHalfUp_spec {x : Binary64} (hx : x.isFinite) :
    ∃ n : ℤ, (roundHalfUp x).isFinite ∧ (roundHalfUp x).toRat = n ∧
      |n - x.toRat| ≤ 51 / 100 := by
  obtain ⟨hfloor, hfloorRat⟩ := floor_spec hx
  obtain ⟨hhalf, hhalfRat⟩ := toRat_half
  have hlow := Int.floor_le x.toRat
  have hhigh := Int.lt_floor_add_one x.toRat
  have hlimit : |x.toRat - x.floor.toRat| ≤ 2 ^ 1023 := by
    have hfract : x.toRat - ⌊x.toRat⌋ ≤ 1 := by linarith
    rw [hfloorRat, abs_of_nonneg (by linarith)]
    exact hfract.trans (one_le_pow₀ (by norm_num))
  obtain ⟨hsub, hnear⟩ := near_sub hx hfloor hlimit
  rw [hfloorRat] at hnear
  -- What is left above the floor, exactly and as it is computed.
  set left := x.toRat - (⌊x.toRat⌋ : ℚ) with hleft
  rw [abs_of_nonneg (show 0 ≤ left by linarith)] at hnear
  obtain ⟨hbelow, habove⟩ := abs_le.1 hnear
  have hround : roundHalfUp x = if half ≤ x - x.floor then x.floor + 1 else x.floor := rfl
  rw [hround]
  split
  · rename_i h
    rw [le_iff_toRat_le hhalf hsub, hhalfRat] at h
    have hlarge : 49 / 100 ≤ left := by linarith
    have hsmall : |x.toRat| < 2 ^ 53 := by
      by_contra hbig
      have := floor_toRat_of_le hx (not_lt.1 hbig)
      linarith
    rw [abs_lt] at hsmall
    have hint : (⌊x.toRat⌋ + 1).natAbs ≤ 2 ^ 53 := by
      have h₁ : -(2 : ℚ) ^ 53 < ⌊x.toRat⌋ + 1 := by linarith
      have h₂ : (⌊x.toRat⌋ : ℚ) < 2 ^ 53 := by linarith
      have h₁' : -(2 : ℤ) ^ 53 < ⌊x.toRat⌋ + 1 := by exact_mod_cast h₁
      have h₂' : ⌊x.toRat⌋ < (2 : ℤ) ^ 53 := by exact_mod_cast h₂
      omega
    obtain ⟨hone, honeRat⟩ := toRat_one
    obtain ⟨hfinite, hrat⟩ := add_eq_intCast (n := ⌊x.toRat⌋ + 1) hfloor hone
      (by rw [hfloorRat, honeRat]; push_cast; rfl) hint
    refine ⟨⌊x.toRat⌋ + 1, hfinite, hrat, ?_⟩
    push_cast
    rw [abs_le]
    constructor <;> linarith
  · rename_i h
    rw [le_iff_toRat_le hhalf hsub, hhalfRat, not_le] at h
    refine ⟨⌊x.toRat⌋, hfloor, hfloorRat, ?_⟩
    rw [abs_le]
    constructor <;> linarith

/-- Rounding to a whole number makes nothing finite that was not. -/
theorem isFinite_of_isFinite_roundHalfUp {x : Binary64} (hx : (roundHalfUp x).isFinite) :
    x.isFinite := by
  have hhalf : ¬ half ≤ .nan := by
    obtain ⟨negative, m, hm⟩ := exists_finite_of_isFinite toRat_half.1
    rw [hm]
    exact Bool.false_ne_true
  cases x with
  | finite negative m => rfl
  | infinite negative =>
    have hround : roundHalfUp (.infinite negative) = .infinite negative := by
      have hsub : (.infinite negative : Binary64) - floor (.infinite negative) = .nan := by
        cases negative <;> rfl
      unfold roundHalfUp
      simp only [hsub, if_neg hhalf]
      rfl
    rw [hround] at hx
    cases hx
  | nan =>
    have hround : roundHalfUp .nan = .nan := if_neg hhalf
    rw [hround] at hx
    cases hx

/-- The value times `10¹⁰`, as a whole value. -/
def scaled (x : Binary64) : Binary64 := roundHalfUp ((x + .epsilon) * 10000000000)

/-- Rounding to ten places is scaling and dividing again, where that is finite. -/
theorem roundToTenPlaces_eq (x : Binary64) :
    roundToTenPlaces x = if (scaled x / 10000000000).isFinite then scaled x / 10000000000 else x :=
  rfl

/-- The scale is a magnitude. -/
theorem ten_pow_eq : ∃ m, (10000000000 : Binary64) = .finite false m ∧ m.value = 10 ^ 10 := by
  obtain ⟨m, hm, hvalue⟩ := ofNat_spec (n := 10000000000) (by decide)
  exact ⟨m, hm, by rw [hvalue]; norm_num⟩

/-- A value that is not too great stays finite before scaling. -/
theorem isFinite_add_epsilon {x : Binary64} (hx : x.isFinite) (hlimit : |x.toRat| ≤ 2 ^ 100) :
    (x + .epsilon).isFinite := by
  obtain ⟨hepsilon, hepsilonRat⟩ := toRat_epsilon
  refine (near_add hx hepsilon ?_).1
  have hsmall : (2 : ℚ) ^ 100 + 1 / 2 ^ 52 ≤ 2 ^ 200 := by norm_num
  have hsum := abs_add_le x.toRat (1 / 2 ^ 52)
  rw [abs_of_pos (by positivity : (0 : ℚ) < 1 / 2 ^ 52)] at hsum
  rw [hepsilonRat]
  calc |x.toRat + 1 / 2 ^ 52| ≤ |x.toRat| + 1 / 2 ^ 52 := hsum
    _ ≤ 2 ^ 100 + 1 / 2 ^ 52 := add_le_add_left hlimit _
    _ ≤ 2 ^ 200 := hsmall
    _ ≤ 2 ^ 1023 := pow_le_pow_right₀ (by norm_num) (by norm_num)

/-- Adding the `2⁻⁵²` that makes up for what scaling may lose. -/
theorem add_epsilon_spec {x : Binary64} (hx : x.isFinite) (hfinite : (x + .epsilon).isFinite) :
    |(x + .epsilon).toRat - x.toRat| ≤ |x.toRat| / 2 ^ 53 + 1 / 2 ^ 51 ∧
      |(x + .epsilon).toRat| ≤ |x.toRat| * (1 + 1 / 2 ^ 53) + 1 / 2 ^ 51 := by
  obtain ⟨hepsilon, hepsilonRat⟩ := toRat_epsilon
  have hsum := abs_add_le x.toRat (1 / 2 ^ 52)
  rw [abs_of_pos (by positivity : (0 : ℚ) < 1 / 2 ^ 52)] at hsum
  obtain ⟨-, hnear⟩ := near_add_of_isFinite hx hepsilon hfinite
  rw [hepsilonRat] at hnear
  have htri := abs_sub_le (x + .epsilon).toRat (x.toRat + 1 / 2 ^ 52) x.toRat
  rw [add_sub_cancel_left, abs_of_pos (by positivity : (0 : ℚ) < 1 / 2 ^ 52)] at htri
  have hsize := abs_add_le ((x + .epsilon).toRat - x.toRat) x.toRat
  rw [sub_add_cancel] at hsize
  constructor <;> linarith

/-- The scale is exact. -/
theorem toRat_ten_pow : (10000000000 : Binary64).isFinite ∧
    (10000000000 : Binary64).toRat = 10 ^ 10 := by
  obtain ⟨m, hten, htenValue⟩ := ten_pow_eq
  rw [hten, toRat_finite_false, htenValue]
  exact ⟨rfl, rfl⟩

/-- A value that is not too great can be scaled. -/
theorem isFinite_scaled {x : Binary64} (hx : x.isFinite) (hlimit : |x.toRat| ≤ 2 ^ 100) :
    (scaled x).isFinite := by
  obtain ⟨hten, htenRat⟩ := toRat_ten_pow
  have hadd := isFinite_add_epsilon hx hlimit
  obtain ⟨-, hsize⟩ := add_epsilon_spec hx hadd
  have hroom : (2 : ℚ) ^ 200 ≤ 2 ^ 1023 := pow_le_pow_right₀ (by norm_num) (by norm_num)
  have hmul := near_mul (y := 10000000000) hadd hten (by
    rw [htenRat, abs_mul, abs_of_pos (by norm_num : (0 : ℚ) < 10 ^ 10)]
    refine le_trans ?_ hroom
    have : ((2 : ℚ) ^ 100 * (1 + 1 / 2 ^ 53) + 1 / 2 ^ 51) * 10 ^ 10 ≤ 2 ^ 200 := by norm_num
    linarith)
  obtain ⟨n, hround, -⟩ := roundHalfUp_spec hmul.1
  exact hround

/-- A value that was scaled did not overflow on the way. -/
theorem isFinite_of_isFinite_scaled {x : Binary64} (h : (scaled x).isFinite) :
    (x + .epsilon).isFinite ∧ ((x + .epsilon) * 10000000000).isFinite := by
  have hmul := isFinite_of_isFinite_roundHalfUp h
  refine ⟨?_, hmul⟩
  obtain ⟨m, hten, htenValue⟩ := ten_pow_eq
  rw [hten] at hmul
  cases hadd : x + .epsilon with
  | finite negative k => rfl
  | infinite negative =>
    have hinfinite : infinite negative * finite false m =
        if m.units = 0 then .nan else .infinite (negative != false) := rfl
    rw [hadd, hinfinite] at hmul
    split at hmul <;> cases hmul
  | nan =>
    rw [hadd] at hmul
    cases hmul

/-- **Scaling** hits a whole number close to `10¹⁰ · x`. -/
theorem scaled_spec {x : Binary64} (hx : x.isFinite) (hfinite : (scaled x).isFinite) :
    ∃ n : ℤ, (scaled x).toRat = n ∧
      |n - x.toRat * 10 ^ 10| ≤ 51 / 100 + |x.toRat| * 10 ^ 10 / 2 ^ 51 + 1 / 10 ^ 5 := by
  obtain ⟨hten, htenRat⟩ := toRat_ten_pow
  obtain ⟨hadd, hmul⟩ := isFinite_of_isFinite_scaled hfinite
  obtain ⟨hclose, hsize⟩ := add_epsilon_spec hx hadd
  -- The product.
  obtain ⟨-, hnearMul⟩ := near_mul_of_isFinite (y := 10000000000) hadd hten hmul
  rw [htenRat, abs_mul, abs_of_pos (by norm_num : (0 : ℚ) < 10 ^ 10)] at hnearMul
  -- The nearest whole number.
  obtain ⟨n, -, hroundRat, hwhole⟩ := roundHalfUp_spec hmul
  refine ⟨n, hroundRat, ?_⟩
  have hscale : |(x + .epsilon).toRat * 10 ^ 10 - x.toRat * 10 ^ 10| ≤
      (|x.toRat| / 2 ^ 53 + 1 / 2 ^ 51) * 10 ^ 10 := by
    rw [← sub_mul, abs_mul, abs_of_pos (by norm_num : (0 : ℚ) < 10 ^ 10)]
    exact mul_le_mul_of_nonneg_right hclose (by norm_num)
  have hproduct : |(x + .epsilon).toRat| * 10 ^ 10 / 2 ^ 53 ≤
      (|x.toRat| * (1 + 1 / 2 ^ 53) + 1 / 2 ^ 51) * 10 ^ 10 / 2 ^ 53 := by gcongr
  have hnonneg := abs_nonneg x.toRat
  calc |n - x.toRat * 10 ^ 10|
      ≤ |n - ((x + .epsilon) * 10000000000).toRat| +
          (|((x + .epsilon) * 10000000000).toRat - (x + .epsilon).toRat * 10 ^ 10| +
            |(x + .epsilon).toRat * 10 ^ 10 - x.toRat * 10 ^ 10|) :=
        (abs_sub_le _ _ _).trans (add_le_add_right (abs_sub_le _ _ _) _)
    _ ≤ 51 / 100 + (((|x.toRat| * (1 + 1 / 2 ^ 53) + 1 / 2 ^ 51) * 10 ^ 10 / 2 ^ 53 + 1 / 2 ^ 100) +
          (|x.toRat| / 2 ^ 53 + 1 / 2 ^ 51) * 10 ^ 10) :=
        add_le_add hwhole (add_le_add (hnearMul.trans (add_le_add_left hproduct _)) hscale)
    _ ≤ 51 / 100 + |x.toRat| * 10 ^ 10 / 2 ^ 51 + 1 / 10 ^ 5 := by linarith

/-- A value that is a whole number has its sign. -/
theorem eq_decide_of_toRat {negative : Bool} {m : Magnitude} {n : ℤ}
    (h : (finite negative m).toRat = n) (hn : n ≠ 0) : negative = decide (n < 0) := by
  have hnonneg := m.value_nonneg
  cases negative with
  | false =>
    rw [toRat_finite_false] at h
    have hcast : (0 : ℚ) ≤ n := h ▸ hnonneg
    have hint : 0 ≤ n := by exact_mod_cast hcast
    exact (decide_eq_false (not_lt.2 hint)).symm
  | true =>
    rw [toRat_finite_true] at h
    have hcast : (n : ℚ) ≤ 0 := by linarith
    have hint : n ≤ 0 := by exact_mod_cast hcast
    exact (decide_eq_true (lt_of_le_of_ne hint hn)).symm

/-- **Rounding to ten places** gives `n` units of the tenth place, rounded once, where `n` is close
to `10¹⁰ · x`; or it leaves a value alone that is too great to be scaled. -/
theorem roundToTenPlaces_cases {x : Binary64} (hx : x.isFinite) :
    ∃ negative m, roundToTenPlaces x = .finite negative m ∧
      ((∃ n : ℤ, Binary64.rounded negative (n.natAbs / 10 ^ 10) = .finite negative m ∧
          (n ≠ 0 → negative = decide (n < 0)) ∧
          |n - x.toRat * 10 ^ 10| ≤ 51 / 100 + |x.toRat| * 10 ^ 10 / 2 ^ 51 + 1 / 10 ^ 5) ∨
        (2 ^ 100 < m.value ∧ x = .finite negative m)) := by
  obtain ⟨ten, hten, htenValue⟩ := ten_pow_eq
  rw [roundToTenPlaces_eq]
  -- A value too great to be scaled makes the quotient infinite, and is returned as it is.
  by_cases hscaled : (scaled x).isFinite
  · obtain ⟨n, hn, hnear⟩ := scaled_spec hx hscaled
    obtain ⟨negative, s, hs⟩ := exists_finite_of_isFinite hscaled
    have hvalue : s.value = n.natAbs := by
      rw [Nat.cast_natAbs, Int.cast_abs, ← hn, hs, abs_toRat_finite]
    have hquot : scaled x / 10000000000 = Binary64.rounded negative (n.natAbs / 10 ^ 10) := by
      rw [hs, hten, div_eq_rounded _ _ _ (by rw [htenValue]; norm_num), htenValue, hvalue,
        Bool.bne_false]
    have hnonneg : (0 : ℚ) ≤ n.natAbs / 10 ^ 10 := by positivity
    have hlimit : (n.natAbs : ℚ) / 10 ^ 10 ≤ 2 ^ 1023 := by
      have hlt := s.value_lt
      rw [hvalue, show (2 : ℚ) ^ 1024 = 2 ^ 1023 * 2 from pow_succ 2 1023] at hlt
      generalize (2 : ℚ) ^ 1023 = limit at hlt ⊢
      linarith
    obtain ⟨m, hm⟩ := exists_rounded_eq negative hnonneg hlimit
    refine ⟨negative, m, ?_, .inl ⟨n, hm, fun hne => ?_, hnear⟩⟩
    · rw [hquot, hm]
      exact if_pos rfl
    · exact eq_decide_of_toRat (hs ▸ hn) hne
  · have hquot : ¬ (scaled x / 10000000000).isFinite := by
      rw [hten]
      cases hs : scaled x with
      | finite negative s => exact absurd (hs ▸ rfl) hscaled
      | infinite negative => exact Bool.false_ne_true
      | nan => exact Bool.false_ne_true
    obtain ⟨negative, m, rfl⟩ := exists_finite_of_isFinite hx
    refine ⟨negative, m, if_neg hquot, .inr ⟨?_, rfl⟩⟩
    rw [← abs_toRat_finite negative m]
    by_contra hsmall
    exact hscaled (isFinite_scaled hx (not_lt.1 hsmall))

end Display
end PocketCalculator
