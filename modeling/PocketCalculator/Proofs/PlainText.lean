/-
# Plain texts of numbers

A plain text is an optional minus, digits, and perhaps a point with more digits behind it. The
display writes positional texts so, and the reader takes every plain text as the decimal it spells
(`Numeral.read_plain`), which is all there is to evaluate in it (`Evaluation.evaluate_numeral`).

The positional form of a decimal depends on the zeros that end its coefficient, but only by zeros at
its end: trimmed, it is the form without them (`Display.trimPlaces_positional`).
-/

import PocketCalculator.Display
import PocketCalculator.Evaluation
import PocketCalculator.Proofs.Digits
import PocketCalculator.Proofs.TokenGrammar
import Mathlib.Data.List.TakeWhile

namespace PocketCalculator

namespace Numeral

/-- An optional minus, digits, and perhaps a point with digits behind it. -/
def plain (negative : Bool) (whole : Text) (fraction : Option Text) : Text :=
  Display.signText negative ++ whole ++ (fraction.map ('.' :: ·)).getD []

/-- Digits, at least one of them before the point. -/
def Digits (whole : Text) (fraction : Option Text) : Prop :=
  whole ≠ [] ∧ (∀ c ∈ whole, c.isDigit) ∧ ∀ c ∈ fraction.getD [], c.isDigit

/-! ### Reading -/

/-- The sign of a plain text is its minus, or a plus that is not written. -/
theorem splitSign_plain {negative : Bool} {whole : Text} {fraction : Option Text}
    (h : Digits whole fraction) (rest : Text) :
    splitSign (plain negative whole fraction ++ rest) =
      (negative, plain false whole fraction ++ rest) := by
  obtain ⟨hne, hwhole, -⟩ := h
  cases negative with
  | true => rfl
  | false =>
    obtain ⟨c, whole, rfl⟩ := List.exists_cons_of_ne_nil hne
    have hc := hwhole c List.mem_cons_self
    rw [plain, splitSign.eq_def]
    simp only [Display.signText, Bool.false_eq_true, if_false, List.nil_append, List.cons_append]
    split
    · rename_i heq
      exact absurd ((List.cons.inj heq).1 ▸ hc) (by decide)
    · rename_i heq
      exact absurd ((List.cons.inj heq).1 ▸ hc) (by decide)
    · rfl

/-- The digits of a plain text are those before its point and those behind it, if nothing that goes
on with them follows. -/
theorem splitDecimal_plain {whole rest : Text} {fraction : Option Text} (h : Digits whole fraction)
    (hrest : ∀ c ∈ rest.head?, isBodyChar c = false) :
    splitDecimal (plain false whole fraction ++ rest) = (whole, fraction.getD [], rest) := by
  obtain ⟨-, hwhole, hfraction⟩ := h
  have hpoint : ¬ '.'.isDigit := by decide
  -- What follows ends the last run of digits, and is no point that would begin another.
  have hstop : rest.takeWhile Char.isDigit = [] ∧ rest.dropWhile Char.isDigit = rest ∧
      ∀ r, rest ≠ '.' :: r := by
    cases rest with
    | nil => simp
    | cons c rest =>
      have hc := hrest c rfl
      have hdigit : ¬ c.isDigit := fun hdigit => by simp [isBodyChar, hdigit] at hc
      have hne : c ≠ '.' := by
        rintro rfl
        exact absurd hc (by decide)
      rw [List.takeWhile_cons_of_neg hdigit, List.dropWhile_cons_of_neg hdigit]
      exact ⟨rfl, rfl, fun r hr => hne (List.cons.inj hr).1⟩
  obtain ⟨htake, hdrop, hne⟩ := hstop
  cases fraction with
  | none =>
    have hplain : plain false whole none ++ rest = whole ++ rest := by
      simp [plain, Display.signText]
    rw [hplain, splitDecimal, List.takeWhile_append_of_pos hwhole,
      List.dropWhile_append_of_pos hwhole, htake, hdrop, List.append_nil]
    split
    · exact absurd rfl (hne _)
    · rfl
  | some fraction =>
    replace hfraction : ∀ c ∈ fraction, c.isDigit := hfraction
    have hplain :
        plain false whole (some fraction) ++ rest = whole ++ '.' :: (fraction ++ rest) := by
      simp [plain, Display.signText]
    rw [hplain, splitDecimal, List.takeWhile_append_of_pos hwhole,
      List.dropWhile_append_of_pos hwhole, List.takeWhile_cons_of_neg hpoint,
      List.dropWhile_cons_of_neg hpoint, List.append_nil]
    simp only [List.takeWhile_append_of_pos hfraction, List.dropWhile_append_of_pos hfraction,
      htake, hdrop, List.append_nil, Option.getD_some]

/-- A text that begins with a digit is none of the words that are read beside decimals. -/
theorem map_toLower_ne {t word : Text} (ht : t.head?.any Char.isDigit)
    (hword : word.head?.any Char.isDigit = false) : t.map Char.toLower ≠ word := by
  intro heq
  cases t with
  | nil => cases ht
  | cons c t =>
    have hdigit : c.isDigit := ht
    have hlower : c.toLower = c := by
      have hrange := hdigit
      simp only [Char.isDigit, Bool.and_eq_true, decide_eq_true_eq] at hrange
      have hupper : ¬ (c.val ≥ 'A'.val ∧ c.val ≤ 'Z'.val) := fun hupper =>
        absurd (UInt32.le_trans hupper.1 hrange.2) (by decide)
      exact dif_neg hupper
    have hany : word.head?.any Char.isDigit = c.toLower.isDigit := by rw [← heq]; rfl
    rw [hword, hlower, hdigit] at hany
    cases hany

/-- **A plain text reads as the decimal it spells**, with the exponent that stands behind it. -/
theorem read_plain_append {negative : Bool} {whole rest : Text} {fraction : Option Text}
    (h : Digits whole fraction) (hrest : ∀ c ∈ rest.head?, isBodyChar c = false) :
    read (plain negative whole fraction ++ rest) = (readExponent rest).map fun exponent =>
      .ofDecimal negative (digitsValue (whole ++ fraction.getD []))
        (exponent - (fraction.getD []).length) := by
  have hdigit : (plain false whole fraction ++ rest).head?.any Char.isDigit := by
    obtain ⟨c, whole, rfl⟩ := List.exists_cons_of_ne_nil h.1
    exact h.2.1 c List.mem_cons_self
  have hinf := @map_toLower_ne _ "inf".toList hdigit (by decide)
  have hinfinity := @map_toLower_ne _ "infinity".toList hdigit (by decide)
  have hnan := @map_toLower_ne _ "nan".toList hdigit (by decide)
  rw [read, splitSign_plain h]
  simp only [hinf, hinfinity, hnan, or_self, if_false, readDecimal, splitDecimal_plain h hrest, h.1,
    false_and]

/-- **A plain text is read** as the decimal it spells, with as many places as digits behind the
point. -/
theorem read_plain {negative : Bool} {whole : Text} {fraction : Option Text}
    (h : Digits whole fraction) :
    read (plain negative whole fraction) =
      some (.ofDecimal negative (digitsValue (whole ++ fraction.getD []))
        (-((fraction.getD []).length : ℤ))) := by
  have hread := @read_plain_append negative whole [] fraction h (by simp)
  rwa [List.append_nil, readExponent, Option.map_some, Int.zero_sub] at hread

/-- A plain text has nothing but its sign, digits and a point. -/
theorem not_mem_plain {negative : Bool} {whole : Text} {fraction : Option Text} {c : Char}
    (h : Digits whole fraction) (hsign : c ∉ Display.signText negative) (hdigit : ¬ c.isDigit)
    (hpoint : c ≠ '.') : c ∉ plain negative whole fraction := by
  obtain ⟨-, hwhole, hfraction⟩ := h
  rw [plain, List.mem_append, List.mem_append]
  rintro ((h | h) | h)
  · exact hsign h
  · exact hdigit (hwhole _ h)
  · cases fraction with
    | none => cases h
    | some fraction =>
      rcases List.mem_cons.1 h with h | h
      · exact hpoint h
      · exact hdigit (hfraction _ h)

/-- A plain text has no exponent. -/
theorem e_not_mem_plain {negative : Bool} {whole : Text} {fraction : Option Text}
    (h : Digits whole fraction) : 'e' ∉ plain negative whole fraction :=
  not_mem_plain h (by cases negative <;> decide) (by decide) (by decide)

/-- **A plain text is spelled like a numeral**: a sign, and digits with one point at most. -/
theorem spelled_plain {negative : Bool} {whole : Text} {fraction : Option Text}
    (h : Digits whole fraction) : Spelled (plain negative whole fraction) := by
  -- The sign is the only minus: a plain text without one begins with a digit.
  have hunsigned : unsigned (plain negative whole fraction) = plain false whole fraction := by
    cases negative with
    | true => rfl
    | false =>
      obtain ⟨c, whole, rfl⟩ := List.exists_cons_of_ne_nil h.1
      have hc := h.2.1 c List.mem_cons_self
      simp only [plain, Display.signText, Bool.false_eq_true, if_false, List.nil_append,
        List.cons_append]
      unfold unsigned
      split
      · rename_i heq
        exact absurd ((List.cons.inj heq).1 ▸ hc) (by decide)
      · rfl
  obtain ⟨hne, hwhole, hfraction⟩ := h
  have hbody : ∀ {t : Text}, (∀ c ∈ t, c.isDigit) → (∀ c ∈ t, isBodyChar c) ∧ t.count '.' = 0 := by
    intro t ht
    refine ⟨fun c hc => by simp [isBodyChar, ht c hc], List.count_eq_zero.2 fun hpoint => ?_⟩
    exact absurd (ht _ hpoint) (by decide)
  obtain ⟨hwholeBody, hwholeCount⟩ := hbody hwhole
  obtain ⟨hfractionBody, hfractionCount⟩ := hbody hfraction
  rw [Spelled, Begun, hunsigned]
  cases fraction with
  | none =>
    have hplain : plain false whole none = whole := by simp [plain, Display.signText]
    rw [hplain]
    exact ⟨⟨hwholeBody, by omega⟩, hne⟩
  | some fraction =>
    replace hfractionCount : fraction.count '.' = 0 := hfractionCount
    have hplain : plain false whole (some fraction) = whole ++ '.' :: fraction := by
      simp [plain, Display.signText]
    rw [hplain]
    refine ⟨⟨fun c hc => ?_, ?_⟩, by simp⟩
    · rcases List.mem_append.1 hc with hc | hc
      · exact hwholeBody c hc
      · rcases List.mem_cons.1 hc with rfl | hc
        · decide
        · exact hfractionBody c hc
    · rw [List.count_append, List.count_cons_self, hwholeCount, hfractionCount]

end Numeral

namespace Evaluation

/-- **A numeral alone** is evaluated to its value. -/
theorem evaluate_numeral {t : Text} {v : Binary64} (ht : Numeral.Spelled t)
    (hread : Numeral.read t = some v) (hv : v.isFinite) : evaluate t = .ok v := by
  have hscan : Token.scan t = .ok [.numeral t] := Token.scan_eq_ok_iff.2 (.singleton ht)
  have hreduce : Postfix.reduce (Postfix.ofInfix [.numeral t]) = .ok v := by
    simp only [Postfix.reduce, Postfix.ofInfix, Postfix.ofInfixFrom, List.map_nil, List.foldlM_cons,
      Postfix.step, hread]
    exact if_pos hv
  rw [evaluate, completeTokens, hscan]
  exact hreduce

/-- **Two numerals** with an operator between them are evaluated to its value at theirs. What the
scanner passes over may stand between the first numeral and the operator. -/
theorem evaluate_pair {t u passed : Text} {a b : Binary64} (op : Operator)
    (hpassed : passed.filter isSignificant = []) (ht : Numeral.Spelled t)
    (hu : Numeral.Spelled u) (ha : Numeral.read t = some a) (hb : Numeral.read u = some b) :
    evaluate (t ++ passed ++ op.symbol :: u) =
      op.apply a b >>= fun v => Postfix.conclude [v] := by
  have hspells := Token.Spells.cons op ht (.singleton hu)
  have hscan : Token.scan (t ++ passed ++ op.symbol :: u) =
      .ok [.numeral t, .operator op, .numeral u] := by
    refine Token.scan_eq_ok_iff.2 ⟨hspells.alternating, hspells.spelled, hspells.complete.trans ?_⟩
    rw [List.filter_append, List.filter_append, List.filter_append, hpassed, List.append_nil]
  have hreduce : Postfix.reduce (Postfix.ofInfix [.numeral t, .operator op, .numeral u]) =
      op.apply a b >>= fun v => Postfix.conclude [v] := by
    have hfirst : Postfix.step [] (.numeral t) = .ok [a] := by rw [Postfix.step, ha]
    have hsecond : Postfix.step [a] (.numeral u) = .ok [b, a] := by rw [Postfix.step, hb]
    have hoperator : Postfix.step [b, a] (.operator op) = (op.apply a b).map ([·]) := rfl
    have hfold : [.numeral t, .numeral u, .operator op].foldlM Postfix.step [] =
        (op.apply a b).map ([·]) := by
      simp only [List.foldlM_cons, List.foldlM_nil, hfirst, hsecond, hoperator, bind, Except.bind]
      cases op.apply a b <;> rfl
    have hpostfix : Postfix.ofInfix [.numeral t, .operator op, .numeral u] =
        [.numeral t, .numeral u, .operator op] := rfl
    rw [Postfix.reduce, hpostfix, hfold]
    cases op.apply a b <;> rfl
  rw [evaluate, completeTokens, hscan]
  exact hreduce

end Evaluation

namespace Scientific

/-! ### Positional forms -/

/-- The digits of a natural number, with zeros in front where there are not more than `k`. -/
def padded (c k : ℕ) : Text :=
  List.replicate (k + 1 - (Text.ofNat c).length) '0' ++ Text.ofNat c

/-- Without places, the zeros of the exponent follow the digits. -/
theorem positional_written_of_nonneg (c : ℕ) {x : ℤ} (hx : 0 ≤ x) :
    (written c x).positional = Text.ofNat c ++ List.replicate x.toNat '0' := by
  have hlen := Text.length_ofNat_pos c
  have hexp := written_exponent c x
  rw [positional, if_neg (by omega), written_digits, if_pos (by omega)]
  congr 2
  omega

/-- More digits than places need no zeros in front. -/
theorem padded_of_lt {c k : ℕ} (h : k < (Text.ofNat c).length) : padded c k = Text.ofNat c := by
  rw [padded, Nat.sub_eq_zero_of_le h]
  rfl

/-- With as many places or more there is one zero before the point. -/
theorem padded_of_le {c k : ℕ} (h : (Text.ofNat c).length ≤ k) :
    padded c k = '0' :: (List.replicate (k - (Text.ofNat c).length) '0' ++ Text.ofNat c) := by
  rw [padded, Nat.succ_sub h]
  rfl

/-- So there is one character more than places. -/
theorem length_padded_of_le {c k : ℕ} (h : (Text.ofNat c).length ≤ k) :
    (padded c k).length = k + 1 := by
  rw [padded, List.length_append, List.length_replicate]
  omega

/-- The point stands before the last `k` digits. -/
theorem positional_written_of_neg (c : ℕ) {k : ℕ} (hk : 0 < k) :
    (written c (-k)).positional =
      (padded c k).take ((padded c k).length - k) ++
        '.' :: (padded c k).drop ((padded c k).length - k) := by
  have hlen := Text.length_ofNat_pos c
  have hexp := written_exponent c (-k)
  rw [positional, written_digits]
  rcases Nat.lt_or_ge k (Text.ofNat c).length with hlong | hshort
  · have hwhole : (written c (-k)).exponent.toNat + 1 = (Text.ofNat c).length - k := by omega
    rw [if_neg (by omega), hwhole, padded_of_lt hlong, if_neg (by omega)]
  · have hzeros : (-(written c (-k)).exponent - 1).toNat = k - (Text.ofNat c).length := by omega
    have hcut : (padded c k).length - k = 1 := by
      rw [length_padded_of_le hshort]
      omega
    rw [if_pos (by omega), hzeros, hcut, padded_of_le hshort]
    rfl

/-- Digits with zeros behind them are digits. -/
theorem isDigit_of_mem_append_zeros {c k : ℕ} {d : Char}
    (h : d ∈ Text.ofNat c ∨ d ∈ List.replicate k '0') : d.isDigit := by
  rcases h with h | h
  · exact Text.isDigit_of_mem_ofNat h
  · rw [List.eq_of_mem_replicate h]
    decide

/-- Zeros in front do not change the number. -/
theorem digitsValue_padded (c k : ℕ) : Numeral.digitsValue (padded c k) = c := by
  rw [Numeral.digitsValue, padded, Nat.ofDigitChars_append, Nat.ofDigitChars_replicate_zero,
    Nat.mul_zero]
  exact Nat.ofDigitChars_ten_toDigits

/-- There is always a digit before the point. -/
theorem lt_length_padded (c k : ℕ) : k < (padded c k).length := by
  rw [padded, List.length_append, List.length_replicate]
  omega

/-- **A positional form is plain**, and spells the decimal. -/
theorem positional_written (c : ℕ) (x : ℤ) :
    ∃ whole fraction, (written c x).positional = Numeral.plain false whole fraction ∧
      Numeral.Digits whole fraction ∧ (fraction.getD []).length = (-x).toNat ∧
        decimal (Numeral.digitsValue (whole ++ fraction.getD []))
          (-((fraction.getD []).length : ℤ)) = decimal c x := by
  -- Without places the zeros stand behind the digits, with `k` places before them.
  rcases le_or_gt 0 x with hx | hx
  · refine ⟨Text.ofNat c ++ List.replicate x.toNat '0', none, ?_, ⟨?_, fun d hd => ?_, ?_⟩, ?_, ?_⟩
    · rw [positional_written_of_nonneg c hx]
      simp [Numeral.plain, Display.signText]
    · simp [Text.ofNat_ne_nil]
    · exact isDigit_of_mem_append_zeros (List.mem_append.1 hd)
    · simp
    · rw [Option.getD_none, List.length_nil]
      omega
    · have hvalue : Numeral.digitsValue (Text.ofNat c ++ List.replicate x.toNat '0') =
          c * 10 ^ x.toNat := by
        rw [Numeral.digitsValue, Nat.ofDigitChars_append, Nat.ofDigitChars_replicate_zero,
          Nat.mul_comm]
        exact congrArg (· * _) Nat.ofDigitChars_ten_toDigits
      rw [Option.getD_none, List.append_nil, hvalue, decimal_mul_pow]
      congr 1
      simp only [List.length_nil]
      omega
  · obtain ⟨k, hk⟩ := Int.eq_ofNat_of_zero_le (show 0 ≤ -x by omega)
    obtain rfl : x = -k := by omega
    have hlen := lt_length_padded c k
    have hdigits : ∀ d ∈ padded c k, d.isDigit := fun d hd =>
      isDigit_of_mem_append_zeros (List.mem_append.1 hd).symm
    refine ⟨(padded c k).take ((padded c k).length - k),
      some ((padded c k).drop ((padded c k).length - k)), ?_, ⟨?_, ?_, ?_⟩, ?_, ?_⟩
    · rw [positional_written_of_neg c (by omega)]
      simp [Numeral.plain, Display.signText]
    · rw [ne_eq, List.take_eq_nil_iff, not_or]
      exact ⟨by omega, List.ne_nil_of_length_pos (by omega)⟩
    · exact fun d hd => hdigits d (List.mem_of_mem_take hd)
    · exact fun d hd => hdigits d (List.mem_of_mem_drop hd)
    · rw [Option.getD_some, List.length_drop]
      omega
    · rw [Option.getD_some, List.take_append_drop, digitsValue_padded, List.length_drop]
      congr 1
      omega

/-! What zeros at the end of the coefficient do to the positional form. -/

/-- Without places, they are as many zeros before the point. -/
theorem positional_mul_pow_of_nonneg {c : ℕ} (hc : c ≠ 0) (j : ℕ) {x : ℤ} (hx : 0 ≤ x) :
    (written (c * 10 ^ j) x).positional = (written c (x + j)).positional := by
  rw [positional_written_of_nonneg _ hx, positional_written_of_nonneg _ (by omega),
    Text.ofNat_mul_pow hc, List.append_assoc, ← List.replicate_add]
  congr 2
  omega

/-- If there are more places than zeros, they are the last of these. -/
theorem positional_mul_pow_of_lt {c j k : ℕ} (hc : c ≠ 0) (hjk : j < k) :
    (written (c * 10 ^ j) (-k)).positional =
      (written c (-((k - j : ℕ) : ℤ))).positional ++ List.replicate j '0' := by
  have hpadded : padded (c * 10 ^ j) k = padded c (k - j) ++ List.replicate j '0' := by
    rw [padded, Text.ofNat_mul_pow hc, List.length_append, List.length_replicate, padded,
      ← List.append_assoc]
    congr 3
    omega
  have hlength : (padded c (k - j) ++ List.replicate j '0').length - k =
      (padded c (k - j)).length - (k - j) := by
    rw [List.length_append, List.length_replicate]
    omega
  rw [positional_written_of_neg _ (by omega), hpadded, hlength,
    List.take_append_of_le_length (by omega), List.drop_append_of_le_length (by omega),
    positional_written_of_neg c (by omega), List.append_assoc, List.cons_append]

/-- If there are fewer, all the places are zeros. -/
theorem positional_mul_pow_of_le {c j k : ℕ} (hc : c ≠ 0) (hk : 0 < k) (hkj : k ≤ j) :
    (written (c * 10 ^ j) (-k)).positional =
      (written c (-k + j)).positional ++ '.' :: List.replicate k '0' := by
  have hlen := Text.length_ofNat_pos c
  have hpadded : padded (c * 10 ^ j) k =
      (Text.ofNat c ++ List.replicate (j - k) '0') ++ List.replicate k '0' := by
    rw [padded, Text.ofNat_mul_pow hc, List.length_append, List.length_replicate,
      Nat.sub_eq_zero_of_le (by omega), List.append_assoc, ← List.replicate_add,
      Nat.sub_add_cancel hkj]
    rfl
  have hcut : (padded (c * 10 ^ j) k).length - k =
      (Text.ofNat c ++ List.replicate (j - k) '0').length := by
    rw [hpadded, List.length_append, List.length_replicate, Nat.add_sub_cancel]
  rw [positional_written_of_neg _ hk, hcut, hpadded, List.take_left, List.drop_left,
    positional_written_of_nonneg c (by omega), show (-(k : ℤ) + j).toNat = j - k by omega]

/-- The positional form has at least the digits, those before the point, and the places with a zero
and a point. -/
theorem digits_length_le_positional (c : ℕ) (x : ℤ) :
    (Text.ofNat c).length ≤ (written c x).positional.length ∧
      (written c x).exponent + 1 ≤ (written c x).positional.length ∧
        (x < 0 → 2 - x ≤ (written c x).positional.length) := by
  have hlen := Text.length_ofNat_pos c
  have hexp := written_exponent c x
  rcases le_or_gt 0 x with hx | hx
  · rw [positional_written_of_nonneg c hx, List.length_append, List.length_replicate]
    omega
  · obtain ⟨k, hk⟩ := Int.eq_ofNat_of_zero_le (show 0 ≤ -x by omega)
    obtain rfl : x = -k := by omega
    have hpadded := lt_length_padded c k
    have hle : (Text.ofNat c).length ≤ (padded c k).length := by
      rw [padded, List.length_append]
      omega
    rw [positional_written_of_neg c (by omega), List.length_append, List.length_cons,
      List.length_take, List.length_drop]
    omega

end Scientific

namespace Display

open Scientific

/-! ### Zeros at the end -/

/-- Without places there is nothing to trim. -/
theorem trimPlaces_of_not_mem {t : Text} (h : '.' ∉ t) : trimPlaces t = t := if_neg fun h' => h h'.1

/-- A text with an exponent is not trimmed. -/
theorem trimPlaces_of_mem_e {t : Text} (h : 'e' ∈ t) : trimPlaces t = t := if_neg fun h' => h'.2 h

/-- More zeros among the places are trimmed too. -/
theorem trimPlaces_append_zeros {t : Text} (k : ℕ) (hpoint : '.' ∈ t) (he : 'e' ∉ t) :
    trimPlaces (t ++ List.replicate k '0') = trimPlaces t := by
  have he' : 'e' ∉ t ++ List.replicate k '0' := by
    simp [he, List.mem_replicate]
  rw [trimPlaces, if_pos ⟨List.mem_append_left _ hpoint, he'⟩, trimPlaces, if_pos ⟨hpoint, he⟩,
    Text.dropTrailing_append_replicate _ _ (by decide)]

/-- A point without places is trimmed. -/
theorem trimPlaces_append_point {t : Text} (he : 'e' ∉ t) (hlast : ∀ c ∈ t.getLast?, c ≠ '.') :
    trimPlaces (t ++ ['.']) = t := by
  have he' : 'e' ∉ t ++ ['.'] := by simp [he]
  have hzero : (t ++ ['.']).dropTrailing (· == '0') = t ++ ['.'] :=
    Text.dropTrailing_eq_self (by simp)
  have hpoint : (t ++ ['.']).dropTrailing (· == '.') = t := by
    have := Text.dropTrailing_append_replicate (p := (· == '.')) (c := '.') t 1 (by decide)
    rw [List.replicate_one] at this
    rw [this]
    exact Text.dropTrailing_eq_self fun c hc => by simpa using hlast c hc
  rw [trimPlaces, if_pos ⟨by simp, he'⟩, hzero, hpoint]

/-- A text that ends in neither a zero nor a point is not trimmed. -/
theorem trimPlaces_eq_self {t : Text} (hlast : ∀ c ∈ t.getLast?, c ≠ '0' ∧ c ≠ '.') :
    trimPlaces t = t := by
  have hzero : t.dropTrailing (· == '0') = t :=
    Text.dropTrailing_eq_self fun c hc => by simpa using (hlast c hc).1
  have hpoint : t.dropTrailing (· == '.') = t :=
    Text.dropTrailing_eq_self fun c hc => by simpa using (hlast c hc).2
  rw [trimPlaces, hzero, hpoint, ite_self]

/-- A digit is not a point. -/
theorem ne_point_of_isDigit {c : Char} (hc : c.isDigit) : c ≠ '.' := by
  rintro rfl
  exact absurd hc (by decide)

/-- A positional form without zeros at the end of its coefficient ends in none, if it has places. -/
theorem getLast?_positional_written {c k : ℕ} (hc : ¬ 10 ∣ c) (hk : 0 < k) :
    ∃ d, (written c (-k)).positional.getLast? = some d ∧ d ≠ '0' ∧ d ≠ '.' := by
  obtain ⟨d, hlast, hd⟩ := Text.getLast?_ofNat hc
  refine ⟨d, ?_, hd, ne_point_of_isDigit (Text.isDigit_of_mem_ofNat (List.mem_of_getLast? hlast))⟩
  have hlen := lt_length_padded c k
  rw [positional_written_of_neg c hk, List.getLast?_append, List.getLast?_cons, List.getLast?_drop,
    if_neg (by omega), padded, List.getLast?_append, hlast]
  rfl

/-- A positional form has no exponent. -/
theorem e_not_mem_positional (negative : Bool) (c : ℕ) (x : ℤ) :
    'e' ∉ signText negative ++ (written c x).positional := by
  obtain ⟨whole, fraction, hplain, hdigits, -, -⟩ := positional_written c x
  have := @Numeral.e_not_mem_plain negative _ _ hdigits
  rw [hplain]
  simpa [Numeral.plain, signText] using this

/-- **Trimmed**, a positional form is that of the decimal without zeros at the end of its
coefficient. The zeros go to the places, beyond which they are dropped, and before the point. -/
theorem trimPlaces_positional {c : ℕ} (hc : c ≠ 0) (x : ℤ) (negative : Bool) :
    trimPlaces (signText negative ++ (written c x).positional) =
      signText negative ++ (ofScaled c x).positional := by
  obtain ⟨d, j, rfl, hd⟩ := exists_reduced hc
  have hne : d ≠ 0 := left_ne_zero_of_mul hc
  have he := e_not_mem_positional negative d
  rw [ofScaled_mul_pow hne, ofScaled_of_not_dvd hd]
  -- Without places there is no point, and nothing to trim.
  rcases le_or_gt 0 x with hx | hx
  · have hsign : '.' ∉ signText negative := by cases negative <;> decide
    rw [positional_mul_pow_of_nonneg hne j hx]
    refine trimPlaces_of_not_mem fun h => ?_
    rcases List.mem_append.1 h with h | h
    · exact hsign h
    · rw [positional_written_of_nonneg _ (by omega)] at h
      exact ne_point_of_isDigit (isDigit_of_mem_append_zeros (List.mem_append.1 h)) rfl
  · obtain ⟨k, hk⟩ := Int.eq_ofNat_of_zero_le (show 0 ≤ -x by omega)
    obtain rfl : x = -k := by omega
    -- Either a digit that is not zero stops the trimming, or all the places are zeros and the point
    -- goes with them.
    rcases Nat.lt_or_ge j k with hjk | hkj
    · obtain ⟨e, hlast, hzero, hpoint⟩ := getLast?_positional_written hd (show 0 < k - j by omega)
      have hmem : '.' ∈ signText negative ++ (written d (-((k - j : ℕ) : ℤ))).positional := by
        rw [positional_written_of_neg d (by omega)]
        simp
      rw [positional_mul_pow_of_lt hne hjk, ← List.append_assoc,
        trimPlaces_append_zeros j hmem (he _), show -(k : ℤ) + j = -((k - j : ℕ) : ℤ) by omega]
      refine trimPlaces_eq_self fun f hf => ?_
      rw [List.getLast?_append, hlast] at hf
      obtain rfl : e = f := Option.some.inj hf
      exact ⟨hzero, hpoint⟩
    · have he' : 'e' ∉ signText negative ++ (written d (-k + j)).positional ++ ['.'] := by
        simpa using he (-k + j)
      rw [positional_mul_pow_of_le hne (by omega) hkj, ← List.append_assoc, List.append_cons,
        trimPlaces_append_zeros k (by simp) he']
      refine trimPlaces_append_point (he _) fun f hf => ne_point_of_isDigit ?_
      rw [positional_written_of_nonneg d (by omega), List.getLast?_append_of_ne_nil _ (by
        simp [Text.ofNat_ne_nil])] at hf
      exact isDigit_of_mem_append_zeros (List.mem_append.1 (List.mem_of_getLast? hf))

/-- The text of a decimal that is shown without an exponent is plain. -/
theorem exists_plain_positional {c : ℕ} (hc : c ≠ 0) (x : ℤ) (negative : Bool) :
    ∃ whole fraction, Numeral.Digits whole fraction ∧
      signText negative ++ (ofScaled c x).positional = Numeral.plain negative whole fraction ∧
        (fraction.getD []).length ≤ (-x).toNat ∧
          decimal (Numeral.digitsValue (whole ++ fraction.getD []))
            (-((fraction.getD []).length : ℤ)) = decimal c x := by
  obtain ⟨d, y, -, -, hxy, hwritten, hvalue⟩ := exists_ofScaled_eq_written hc x
  obtain ⟨whole, fraction, hplain, hdigits, hlen, hspelled⟩ := positional_written d y
  refine ⟨whole, fraction, hdigits, ?_, by omega, hspelled.trans hvalue.symm⟩
  rw [hwritten, hplain]
  simp [Numeral.plain, signText]

/-- A decimal that is shown without an exponent is read as its rounding. -/
theorem read_positional {c : ℕ} {x : ℤ} (negative : Bool) (hc : c ≠ 0) (hx : -324 ≤ x) :
    Numeral.read (signText negative ++ (ofScaled c x).positional) =
      some (Binary64.rounded negative (decimal c x)) := by
  obtain ⟨whole, fraction, hdigits, htext, hlen, hspelled⟩ := exists_plain_positional hc x negative
  have hne : Numeral.digitsValue (whole ++ fraction.getD []) ≠ 0 :=
    decimal_ne_zero (hspelled ▸ decimal_pos hc x)
  rw [htext, Numeral.read_plain hdigits,
    Binary64.ofDecimal_eq_rounded negative hne (by omega) (by omega), hspelled]

/-- **A decimal that is shown without an exponent** is evaluated to its rounding. -/
theorem evaluate_positional {c : ℕ} {x : ℤ} {negative : Bool} (hc : c ≠ 0) (hx : -324 ≤ x)
    (hfinite : (Binary64.rounded negative (decimal c x)).isFinite) :
    Evaluation.evaluate (signText negative ++ (ofScaled c x).positional) =
      .ok (Binary64.rounded negative (decimal c x)) := by
  refine Evaluation.evaluate_numeral ?_ (read_positional negative hc hx) hfinite
  obtain ⟨whole, fraction, hdigits, htext, -⟩ := exists_plain_positional hc x negative
  rw [htext]
  exact Numeral.spelled_plain hdigits

end Display
end PocketCalculator
