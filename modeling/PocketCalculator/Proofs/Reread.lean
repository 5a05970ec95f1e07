/-
# Reading what is shown

The text of a value is a numeral, and the value read from it is shown with the same text, but for
two texts and their negatives:

| shown | read as | shown again |
| --- | --- | --- |
| `1.00000000000e+21`, of a value just below `10²¹` | `10²¹` | `1.000000000e+21` |
| `1.797693135e+308`, of the greatest values | an infinity | `Error` |

Rounding goes across a threshold there. Below `10²¹` there are twelve digits, from it there are ten;
and ten digits of the greatest values stand for more than any value. `Display.reread_iff` is the
result.
-/

import PocketCalculator.Proofs.ExponentialText

namespace PocketCalculator
namespace Display

open Binary64 Scientific

seal unitsOfOne unitsLimit

variable {n k : ℕ} {z : ℤ}

/-! ### Reading an exponential text -/

/-- A written exponent is read as that exponent, whatever its sign. -/
theorem readInteger_exponent (e : ℤ) :
    Numeral.readInteger ((exponentOperator e).symbol :: Text.ofNat e.natAbs) = some e := by
  have hall : (Text.ofNat e.natAbs).all Char.isDigit :=
    List.all_eq_true.2 fun _ => Text.isDigit_of_mem_ofNat
  have hne := Text.ofNat_ne_nil e.natAbs
  rcases lt_or_ge e 0 with he | he
  · have hop : exponentOperator e = .minus := if_pos he
    simp only [hop, Numeral.readInteger, Operator.symbol, Numeral.splitSign, digitsValue_ofNat]
    rw [if_pos ⟨hne, hall⟩, if_pos trivial]
    congr 1
    omega
  · have hop : exponentOperator e = .plus := if_neg (not_lt.2 he)
    simp only [hop, Numeral.readInteger, Operator.symbol, Numeral.splitSign, digitsValue_ofNat]
    rw [if_pos ⟨hne, hall⟩, if_neg Bool.false_ne_true]
    congr 1
    omega

/-- **An exponential text** reads as the decimal it spells. -/
theorem read_exponential (negative : Bool) (z : ℤ) (hn : 10 ≤ n) :
    Numeral.read (signText negative ++ (written n z).exponential) =
      some (.ofDecimal negative n z) := by
  have hrest : ∀ c ∈ ('e' :: (exponentOperator (written n z).exponent).symbol ::
      Text.ofNat (written n z).exponent.natAbs).head?, Numeral.isBodyChar c = false := by
    rintro c ⟨⟩
    rfl
  rw [exponential_eq_plain negative hn, Numeral.read_plain_append (digits_leading n) hrest,
    Numeral.readExponent, if_pos (.inl rfl), readInteger_exponent, Option.map_some,
    Option.getD_some, List.take_append_drop, digitsValue_ofNat, sub_eq_add_neg,
    neg_length_drop n z, add_sub_cancel]

/-- The exponents of shown decimals are among those that are read. -/
theorem Exponential.read_eq_rounded (h : Exponential n z) (hk : decimal n z = k / 10 ^ 10)
    (negative : Bool) :
    Numeral.read (signText negative ++ (written n z).exponential) =
      some (Binary64.rounded negative (decimal n z)) := by
  obtain ⟨hn, hdigits⟩ := h.digits
  have hexp := h.exponent_cases hk
  have hlen := (Text.length_ofNat_le_iff (k := 12) (by decide)).2 hdigits
  have hlen' := Text.length_ofNat_pos n
  rw [written_exponent] at hexp
  rw [read_exponential negative z hn,
    ofDecimal_eq_rounded negative (by omega) (by omega) (by omega)]

/-! ### The texts that read back -/

/-- Reading the text gives a value that is shown with this text. -/
def ReadsBack (t : Text) : Prop := ∃ w, Numeral.read t = some w ∧ w.isFinite ∧ text w = t

/-- **An exponential text** reads back, with two exceptions. -/
theorem Exponential.readsBack (h : Exponential n z) (hk : decimal n z = k / 10 ^ 10)
    (hstep : ¬ (n = 10 ^ 11 ∧ z = 10)) (hgreatest : ¬ (n = 1797693135 ∧ z = 299))
    (negative : Bool) : ReadsBack (signText negative ++ (written n z).exponential) := by
  obtain ⟨m, hm, htext⟩ := h.text_rounded hk hstep hgreatest negative
  have hread := h.read_eq_rounded hk negative
  rw [hm] at hread
  exact ⟨_, hread, rfl, htext⟩

/-- **A text without an exponent** reads back. -/
theorem readsBack_of_not_mem {v : Binary64} (hv : v.isFinite) (he : 'e' ∉ text v) :
    ReadsBack (text v) := by
  rcases exists_shown hv he with htext | ⟨negative, c, x, hshown, htext⟩
  · have hread : Numeral.read ['0'] = some (zero false) := by decide +kernel
    rw [htext]
    exact ⟨_, hread, rfl, text_zero false⟩
  · obtain ⟨m, hm, hback⟩ := text_of_shown hshown negative
    have hread := read_positional negative hshown.ne_zero hshown.le_exponent
    rw [hm] at hread
    rw [htext]
    exact ⟨_, hread, rfl, hback⟩

/-! ### The two texts that do not read back -/

/-- The digits of the values next to the first power of two beyond all values stand for more than
these values. -/
theorem read_greatest (negative : Bool) :
    Numeral.read (signText negative ++ "1.797693135e+308".toList) = some (.infinite negative) := by
  cases negative <;> decide +kernel

/-- Twelve digits of the values just below `10²¹`. The power itself is shown with ten. -/
theorem read_step (negative : Bool) :
    ∃ w, Numeral.read (signText negative ++ "1.00000000000e+21".toList) = some w ∧ w.isFinite ∧
      text w = signText negative ++ "1.000000000e+21".toList := by
  refine ⟨.ofDecimal negative 1 21, ?_⟩
  cases negative <;> decide +kernel

/-- The first exception does not read back: what is read is not finite. -/
theorem ReadsBack.ne_greatest {t : Text} (h : ReadsBack t) (negative : Bool) :
    t ≠ signText negative ++ "1.797693135e+308".toList := by
  rintro rfl
  obtain ⟨w, hread, hw, -⟩ := h
  rw [read_greatest] at hread
  obtain rfl := Option.some.inj hread
  exact Bool.false_ne_true hw

/-- Nor does the second: what is read is shown otherwise. -/
theorem ReadsBack.ne_step {t : Text} (h : ReadsBack t) (negative : Bool) :
    t ≠ signText negative ++ "1.00000000000e+21".toList := by
  rintro rfl
  obtain ⟨w, hread, -, htext⟩ := h
  obtain ⟨w', hread', -, htext'⟩ := read_step negative
  obtain rfl := Option.some.inj (hread.symm.trans hread')
  rw [htext'] at htext
  exact absurd (List.append_cancel_left htext) (by decide)

/-- **A shown text** reads back, or is one of the two that do not. -/
theorem readsBack_cases {v : Binary64} (hv : v.isFinite) :
    ReadsBack (text v) ∨ (∃ a, text v = signText a ++ "1.00000000000e+21".toList) ∨
      ∃ a, text v = signText a ++ "1.797693135e+308".toList := by
  by_cases he : 'e' ∈ text v
  · obtain ⟨a, n, z, htext, h, k, hk⟩ := exists_exponential_of_mem hv he
    have hstep : (written (10 ^ 11) 10).exponential = "1.00000000000e+21".toList := by
      decide +kernel
    have hgreatest : (written 1797693135 299).exponential = "1.797693135e+308".toList := by
      decide +kernel
    by_cases hn : n = 10 ^ 11 ∧ z = 10
    · obtain ⟨rfl, rfl⟩ := hn
      exact .inr (.inl ⟨a, hstep ▸ htext⟩)
    by_cases hn' : n = 1797693135 ∧ z = 299
    · obtain ⟨rfl, rfl⟩ := hn'
      exact .inr (.inr ⟨a, hgreatest ▸ htext⟩)
    · exact .inl (htext ▸ h.readsBack hk hn hn' a)
  · exact .inl (readsBack_of_not_mem hv he)

/-- **A shown value is read again.** Its text is a numeral. The value read is finite unless it lies
beyond the greatest value, and it is shown with the same text unless it is `10²¹` as well. -/
theorem reread_iff {v : Binary64} (hv : v.isFinite) :
    ∃ w, Numeral.read (text v) = some w ∧
      (w.isFinite ↔ ∀ negative, text v ≠ signText negative ++ "1.797693135e+308".toList) ∧
      (text w = text v ↔ ∀ negative,
        text v ≠ signText negative ++ "1.797693135e+308".toList ∧
          text v ≠ signText negative ++ "1.00000000000e+21".toList) := by
  rcases readsBack_cases hv with h | ⟨a, h⟩ | ⟨a, h⟩
  · have hgreatest := h.ne_greatest
    have hstep := h.ne_step
    obtain ⟨w, hread, hw, htext⟩ := h
    exact ⟨w, hread, iff_of_true hw hgreatest,
      iff_of_true htext fun a => ⟨hgreatest a, hstep a⟩⟩
  · obtain ⟨w, hread, hw, htext⟩ := read_step a
    rw [h]
    refine ⟨w, hread, iff_of_true hw fun b => ?_, iff_of_false ?_ fun hne => (hne a).2 rfl⟩
    · cases a <;> cases b <;> decide
    · rw [htext, List.append_right_inj]
      decide
  · rw [h]
    refine ⟨_, read_greatest a, iff_of_false Bool.false_ne_true fun hne => hne a rfl,
      iff_of_false ?_ fun hne => (hne a).1 rfl⟩
    cases a <;> decide

/-- The value `9.99999999999991e20` and the greatest value. -/
theorem reread_iff_exceptions :
    (Binary64.ofDecimal false 999999999999991 6).isFinite ∧
      (∃ w, Numeral.read (text (.ofDecimal false 999999999999991 6)) = some w ∧ w.isFinite ∧
        text w ≠ text (.ofDecimal false 999999999999991 6)) ∧
      (Binary64.ofDecimal false 17976931348623157 292).isFinite ∧
      ∃ w, Numeral.read (text (.ofDecimal false 17976931348623157 292)) = some w ∧
        ¬ w.isFinite := by
  have hfinite : (Binary64.ofDecimal false 999999999999991 6).isFinite := by decide +kernel
  have hfinite' : (Binary64.ofDecimal false 17976931348623157 292).isFinite := by decide +kernel
  have htext : text (.ofDecimal false 999999999999991 6) = "1.00000000000e+21".toList := by
    decide +kernel
  have htext' : text (.ofDecimal false 17976931348623157 292) = "1.797693135e+308".toList := by
    decide +kernel
  obtain ⟨w, hread, hfin, hback⟩ := reread_iff hfinite
  obtain ⟨w', hread', hfin', -⟩ := reread_iff hfinite'
  refine ⟨hfinite, ⟨w, hread, hfin.2 fun a => ?_, fun h => (hback.1 h false).2 htext⟩, hfinite',
    w', hread', fun h => hfin'.1 h false htext'⟩
  rw [htext]
  cases a <;> decide

end Display
end PocketCalculator
