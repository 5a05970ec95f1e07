/-
# Which text is shown

The text of a finite magnitude is one of four: `0`, the shortest digits in positional form, twelve
digits in positional form, or an exponential form of ten or twelve digits. The lemmas here say when
it is which, by the exponents of the digits. Two of them carry what is shown elsewhere:

- `Display.finiteText_of_near`: a magnitude near to a decimal of at most twelve digits and not too
  small is shown as that decimal;
- `Display.e_not_mem_finiteText`: between `10⁻⁵` and `10⁴` there is no exponential form.
-/

import PocketCalculator.Proofs.PlainText
import PocketCalculator.Proofs.TenPlaces

namespace PocketCalculator
namespace Display

open Binary64 Scientific

seal unitsOfOne unitsLimit

/-! ### The four texts -/

/-- A zero is shown without its sign. -/
theorem finiteText_of_zero {negative : Bool} {m : Magnitude} (hm : m.units = 0) :
    finiteText negative m = ['0'] := if_pos hm

/-- An exponential form has the mark of its exponent. -/
theorem e_mem_exponential (s : Scientific) : 'e' ∈ s.exponential := by simp [exponential]

/-- The shortest digits have an exponent just where they are not positional. -/
theorem e_mem_natural_iff (negative : Bool) {m : Magnitude} {c : ℕ} {x : ℤ}
    (hs : shortest m = written c x) :
    'e' ∈ signText negative ++ natural m ↔
      ¬ (-6 ≤ (written c x).exponent ∧ (written c x).exponent < 21) := by
  rw [natural, hs, layout]
  split
  · rename_i h
    simp [e_not_mem_positional negative c x, h]
  · rename_i h
    simp [e_mem_exponential, h]

section Forms

variable {negative : Bool} {m : Magnitude} {c n p : ℕ} {x z : ℤ}

/-- All the digits are shown where twelve characters hold them without an exponent. -/
theorem finiteText_of_short (hm : m.units ≠ 0) (hs : shortest m = written c x) (hc : c ≠ 0)
    (hexp : -6 ≤ (written c x).exponent ∧ (written c x).exponent < 21)
    (hlen : (signText negative ++ (written c x).positional).length ≤ 12) :
    finiteText negative m = signText negative ++ (ofScaled c x).positional := by
  have hnatural : natural m = (written c x).positional := by
    rw [natural, hs, layout]
    exact if_pos hexp
  have he := mt (e_mem_natural_iff negative hs).1 (not_not.2 hexp)
  rw [finiteText, if_neg hm]
  dsimp only
  rw [if_neg he, hnatural, if_neg (not_lt.2 hlen), trimPlaces_positional hc]

/-- Twelve digits are shown where they do not. -/
theorem finiteText_of_long (hm : m.units ≠ 0) (hs : shortest m = written c x)
    (hexp : -6 ≤ (written c x).exponent ∧ (written c x).exponent < 21)
    (hlen : 12 < (signText negative ++ (written c x).positional).length) :
    finiteText negative m = trimPlaces (signText negative ++ significant 12 m) := by
  have hnatural : natural m = (written c x).positional := by
    rw [natural, hs, layout]
    exact if_pos hexp
  have he := mt (e_mem_natural_iff negative hs).1 (not_not.2 hexp)
  rw [finiteText, if_neg hm]
  dsimp only
  rw [if_neg he, hnatural, if_pos hlen]

/-- Ten digits are shown where all of them are written with an exponent. -/
theorem finiteText_of_exponent (hm : m.units ≠ 0) (hs : shortest m = written c x)
    (hexp : ¬ (-6 ≤ (written c x).exponent ∧ (written c x).exponent < 21)) :
    finiteText negative m = trimPlaces (signText negative ++ significant 10 m) := by
  rw [finiteText, if_neg hm]
  exact if_pos ((e_mem_natural_iff negative hs).2 hexp)

/-- Trimmed, a fixed number of digits without an exponent is the shortest form of the decimal. -/
theorem significant_of_positional (hr : rounded p m = written n z) (hn : n ≠ 0)
    (hexp : -6 ≤ (written n z).exponent ∧ (written n z).exponent < p) :
    trimPlaces (signText negative ++ significant p m) =
      signText negative ++ (ofScaled n z).positional := by
  have hlayout : significant p m = (written n z).positional := by
    rw [significant, hr, layout]
    exact if_pos hexp
  rw [hlayout, trimPlaces_positional hn]

/-- With an exponent nothing is trimmed. -/
theorem significant_of_exponential (hr : rounded p m = written n z)
    (hexp : ¬ (-6 ≤ (written n z).exponent ∧ (written n z).exponent < p)) :
    trimPlaces (signText negative ++ significant p m) =
      signText negative ++ (written n z).exponential := by
  have hlayout : significant p m = (written n z).exponential := by
    rw [significant, hr, layout]
    exact if_neg hexp
  rw [hlayout]
  exact trimPlaces_of_mem_e (List.mem_append_right _ (e_mem_exponential _))

/-- Nor has the shortest positional form an exponent. -/
theorem e_not_mem_ofScaled (negative : Bool) (hc : c ≠ 0) (x : ℤ) :
    'e' ∉ signText negative ++ (ofScaled c x).positional := by
  obtain ⟨d, y, -, -, -, hwritten, -⟩ := exists_ofScaled_eq_written hc x
  rw [hwritten]
  exact e_not_mem_positional negative d y

end Forms

/-! ### Values near to short decimals -/

/-- The shortest digits are near to the magnitude. -/
theorem shortest_near {m : Magnitude} (hm : m.units ≠ 0) :
    ∃ c x, shortest m = written c x ∧ c ≠ 0 ∧
      |m.value - decimal c x| ≤ decimal c x / 2 ^ 53 + 1 / 2 ^ 100 := by
  obtain ⟨c, x, hs, -, hc, hrounded⟩ := shortest_spec hm
  exact ⟨c, x, hs, hc, near_of_rounded (decimal_nonneg c x) hrounded⟩

/-- A magnitude above zero has units. -/
theorem units_ne_zero {m : Magnitude} (hm : 0 < m.value) : m.units ≠ 0 := fun h =>
  hm.ne' (value_eq_zero.2 h)

/-- **A magnitude near to a short decimal** is shown as that decimal: if its shortest digits fill
the display, by twelve digits, and otherwise because there is only one short decimal so near. -/
theorem finiteText_of_near {negative : Bool} {m : Magnitude} {c : ℕ} {x : ℤ} (hc : c ≠ 0)
    (hc' : c < 10 ^ 12) (hlow : 1 / 10 ^ 6 + 1 / 10 ^ 10 ≤ decimal c x)
    (hhigh : decimal c x < 10 ^ 12) (hnear : |m.value - decimal c x| ≤ decimal c x / 2 ^ 48) :
    finiteText negative m = signText negative ++ (ofScaled c x).positional := by
  obtain ⟨hbelow, habove⟩ := abs_le.1 hnear
  have hm : m.units ≠ 0 := units_ne_zero (by linarith)
  obtain ⟨d, y, hs, hd, hshortest⟩ := shortest_near hm
  obtain ⟨hbelow', habove'⟩ := abs_le.1 hshortest
  have hexp : -6 ≤ (written d y).exponent ∧ (written d y).exponent < 21 :=
    (exponent_bounds_iff (k := 21) hd).2 ⟨by linarith, by linarith⟩
  rcases le_or_gt (signText negative ++ (written d y).positional).length 12 with hlen | hlen
  · rw [finiteText_of_short hm hs hd hexp hlen]
    have hd' : d < 10 ^ 12 := by
      rw [List.length_append] at hlen
      rw [← Text.length_ofNat_le_iff (by decide)]
      have := (digits_length_le_positional d y).1
      omega
    have hvalue : decimal d y = decimal c x := by
      refine decimal_eq_of_near hc' hd' ?_
      have := abs_sub_le (decimal d y) m.value (decimal c x)
      rw [abs_sub_comm (decimal d y) m.value] at this
      linarith
    rw [ofScaled_congr hd hc hvalue]
  · rw [finiteText_of_long hm hs hexp hlen]
    obtain ⟨n, z, hr, hn, -, hvalue⟩ :=
      rounded_eq_of_near (p := 12) (x := x) (by decide) le_rfl hc hc' (hnear.trans (by linarith))
    have hexp' : -6 ≤ (written n z).exponent ∧ (written n z).exponent < (12 : ℕ) :=
      (exponent_bounds_iff hn).2 ⟨by linarith, by linarith⟩
    rw [significant_of_positional hr hn hexp', ofScaled_congr hn hc hvalue]

/-- Digits of a fixed number are at most half the magnitude away from it. -/
theorem rounded_near {m : Magnitude} (hm : m.units ≠ 0) {p : ℕ} (hp : 2 ≤ p) :
    ∃ n z, rounded p m = written n z ∧ 10 ^ (p - 1) ≤ n ∧ n < 10 ^ p ∧
      |decimal n z - m.value| ≤ m.value / 20 := by
  obtain ⟨n, z, y, hr, hlow, hhigh, -, hgrid, -, hnear⟩ := rounded_spec hm (p := p) (by omega)
  refine ⟨n, z, hr, hlow, hhigh, hnear.trans ?_⟩
  have hten : (0 : ℚ) < 10 ^ y := by positivity
  have hpow : (10 : ℚ) ^ 1 ≤ 10 ^ (p - 1) := pow_le_pow_right₀ (by norm_num) (by omega)
  have := mul_le_mul_of_nonneg_right hpow hten.le
  linarith

/-- **In the middle of the range** no text has an exponent. -/
theorem e_not_mem_finiteText {negative : Bool} {m : Magnitude} (hlow : 1 / 10 ^ 5 ≤ m.value)
    (hhigh : m.value ≤ 10 ^ 4) : 'e' ∉ finiteText negative m := by
  have hm : m.units ≠ 0 := units_ne_zero (by linarith)
  obtain ⟨c, x, hs, hc, hshortest⟩ := shortest_near hm
  obtain ⟨hbelow, habove⟩ := abs_le.1 hshortest
  have hexp : -6 ≤ (written c x).exponent ∧ (written c x).exponent < 21 :=
    (exponent_bounds_iff (k := 21) hc).2 ⟨by linarith, by linarith⟩
  rcases le_or_gt (signText negative ++ (written c x).positional).length 12 with hlen | hlen
  · rw [finiteText_of_short hm hs hc hexp hlen]
    exact e_not_mem_ofScaled negative hc x
  · obtain ⟨n, z, hr, hn, -, hnear⟩ := rounded_near hm (p := 12) (by decide)
    obtain ⟨hbelow', habove'⟩ := abs_le.1 hnear
    have hn' : n ≠ 0 := by omega
    have hexp' : -6 ≤ (written n z).exponent ∧ (written n z).exponent < (12 : ℕ) :=
      (exponent_bounds_iff hn').2 ⟨by linarith, by linarith⟩
    rw [finiteText_of_long hm hs hexp hlen, significant_of_positional hr hn' hexp']
    exact e_not_mem_ofScaled negative hn' z

end Display
end PocketCalculator
