/-
# The operand of a function

A function key finds its operand by looking at the characters at the end of the expression, not at
its tokens. Where the last token is a numeral and no subtraction stands before it, or it has a sign
of its own, the characters found are that token (`Edit.lastNumeral_append_of_spelled`): the function
changes its operand and nothing else (`Edit.scan_applyFunction`).

A value that is shown is an expression too. Without an exponent its text is one numeral, all of
which is the operand. With an exponent it is not:

| shown | last numeral |
| --- | --- |
| `1.000000000e+21` | `21` |
| `1.000000000e-7` | `-7` |

There the function is applied to the exponent, and what stands before it remains
(`Edit.applyFunction_text_iff`).
-/

import PocketCalculator.Proofs.DigitRuns
import PocketCalculator.Proofs.Reread

namespace PocketCalculator

open Text (lastRun lastRun_eq_nil)

namespace Token

variable {init : List Token} {e m n : Text}

/-- **Another numeral** may stand in place of the last one. -/
theorem Spells.replace (h : Spells (init ++ [.numeral n]) e) (hm : Numeral.Spelled m) :
    Spells (init ++ [.numeral m]) (init.flatMap text ++ m) := by
  have hsignificant : ∀ c ∈ init.flatMap text ++ n, isSignificant c := by
    have hcomplete := h.complete
    rw [List.flatMap_append, List.flatMap_singleton, text] at hcomplete
    rw [hcomplete]
    exact fun c hc => (List.mem_filter.1 hc).2
  have halternating : Alternating (init ++ [.numeral m]) := by
    have hinit := alternating_concat_iff.1 h.alternating
    exact alternating_concat_iff.2 hinit
  refine ⟨halternating, fun t ht => ?_, ?_⟩
  · rcases List.mem_append.1 ht with ht | ht
    · exact h.spelled t (List.mem_append_left _ ht)
    · obtain rfl := Token.numeral.inj (List.mem_singleton.1 ht)
      exact hm
  · have hinit : (init.flatMap text).filter isSignificant = init.flatMap text :=
      List.filter_eq_self.2 fun c hc => hsignificant c (List.mem_append_left _ hc)
    rw [List.flatMap_append, List.flatMap_singleton, text, List.filter_append, hinit,
      hm.1.filter_isSignificant]

/-- Significant characters are the texts of their tokens. -/
theorem Spells.flatMap_text_append (h : Spells (init ++ [.numeral n]) e)
    (he : ∀ c ∈ e, isSignificant c) : init.flatMap text ++ n = e := by
  have hcomplete := h.complete
  rwa [List.filter_eq_self.2 he, List.flatMap_append, List.flatMap_singleton, text] at hcomplete

/-- The text before a numeral is empty or ends in the operator before it. -/
theorem Spells.flatMap_text_cases (h : Spells (init ++ [.numeral n]) e) :
    init = [] ∨ ∃ op, init.getLast? = some (.operator op) ∧
      (init.flatMap text).getLast? = some op.symbol := by
  rcases init.eq_nil_or_concat with rfl | ⟨before, t | op, rfl⟩
  · exact .inl rfl
  · exact absurd (by simp) ((alternating_concat_iff.1 h.alternating).2.1 rfl)
  · exact .inr ⟨op, by simp, by simp [text, Operator.text]⟩

end Token

namespace Edit

variable {before e n : Text}

/-- **A numeral at the end is the last numeral** if it has a sign, or if no digit, point or minus
stands before it. -/
theorem lastNumeral_append_of_spelled (hn : Numeral.Spelled n)
    (h : n.head? = some '-' ∨ lastRun before = [] ∧ before.getLast? ≠ some '-') :
    lastNumeral (before ++ n) = n := by
  obtain ⟨⟨hbody, hcount⟩, -⟩ := hn
  obtain ⟨negative, hsign⟩ := Numeral.exists_sign n
  generalize Numeral.unsigned n = run at hbody hcount hsign
  subst hsign
  cases negative with
  | true => exact lastNumeral_append_minus before hbody hcount
  | false =>
    have hplus : run.head? ≠ some '-' := fun hhead =>
      absurd (hbody '-' (List.mem_of_mem_head? hhead)) (by decide)
    obtain ⟨hrun, hlast⟩ := h.resolve_left hplus
    exact (lastNumeral_append hbody hcount hrun).trans (if_neg hlast)

/-- **The last token is the last numeral** if it has a sign, or if no minus stands before it. -/
theorem lastNumeral_of_spells {init : List Token} (h : Token.Spells (init ++ [.numeral n]) e)
    (hminus : n.head? = some '-' ∨ init.getLast? ≠ some (.operator .minus)) :
    lastNumeral (init.flatMap Token.text ++ n) = n := by
  have hspelled : Numeral.Spelled n := h.spelled n (by simp)
  refine lastNumeral_append_of_spelled hspelled (hminus.imp_right fun hminus => ?_)
  rcases h.flatMap_text_cases with rfl | ⟨op, hop, hend⟩
  · exact ⟨rfl, by simp⟩
  rw [hend]
  refine ⟨lastRun_eq_nil fun c hc => ?_, fun hsymbol => hminus ?_⟩
  · obtain rfl := Option.some.inj (hend.symm.trans hc)
    cases op <;> decide
  · cases op with
    | minus => exact hop
    | plus | times | divide => exact absurd hsymbol (by decide)

/-- **A function changes its operand and nothing else.** The operand is the last token, unless that
is a numeral without a sign behind a minus; its value takes its place among the tokens, and where
the function has no finite value there is none. -/
theorem scan_applyFunction {init : List Token} (he : ∀ c ∈ e, isSignificant c)
    (hscan : Token.scan e = .ok (init ++ [.numeral n])) (hdigit : n.any Char.isDigit)
    (hminus : n.head? = some '-' ∨ init.getLast? ≠ some (.operator .minus))
    (f : Binary64 → Binary64) :
    ∃ x, Numeral.read n = some x ∧
      ((f x).isFinite → ∃ applied, applyFunction f e = .ok applied ∧ applied.value = f x ∧
        ('e' ∉ Display.text (f x) →
          Token.scan applied.expression = .ok (init ++ [.numeral (Display.text (f x))]))) ∧
      (¬ (f x).isFinite → applyFunction f e = .error .invalidResult) := by
  have hspells := Token.scan_eq_ok_iff.1 hscan
  have hspelled : Numeral.Spelled n := hspells.spelled n (by simp)
  obtain ⟨x, hx⟩ := Option.isSome_iff_exists.1 (hspelled.isSome_read_iff.2 hdigit)
  have happly := applyFunction_append (f := f) (lastNumeral_of_spells hspells hminus) hx
  rw [hspells.flatMap_text_append he] at happly
  refine ⟨x, hx, fun hfinite => ?_, fun hfinite => by rw [happly, if_neg hfinite]⟩
  rw [if_pos hfinite] at happly
  refine ⟨_, happly, rfl, fun hexponent => ?_⟩
  obtain ⟨negative, whole, fraction, hdigits, htext⟩ := Display.exists_plain hfinite hexponent
  exact Token.scan_eq_ok_iff.2 (hspells.replace (htext ▸ Numeral.spelled_plain hdigits))

/-- A signed operand behind a minus, the square of which takes its sign away, and a root of it,
which there is not. -/
theorem scan_applyFunction_difference :
    let e := "5--3".toList
    let init : List Token := [.numeral ['5'], .operator .minus]
    (∀ c ∈ e, isSignificant c) ∧ Token.scan e = .ok (init ++ [.numeral "-3".toList]) ∧
      (∃ applied, applyFunction (fun x => x * x) e = .ok applied ∧
        Token.scan applied.expression = .ok (init ++ [.numeral ['9']])) ∧
      applyFunction Binary64.sqrt e = .error .invalidResult := by
  intro e init
  have he : ∀ c ∈ e, isSignificant c := List.all_eq_true.1 rfl
  have hscan : Token.scan e = .ok (init ++ [.numeral "-3".toList]) := by decide
  have hread : Numeral.read "-3".toList = some (.ofDecimal true 3 0) := by decide +kernel
  obtain ⟨x, hx, hsquare, -⟩ :=
    scan_applyFunction he hscan (by decide) (.inl rfl) (fun x => x * x)
  obtain ⟨y, hy, -, hroot⟩ :=
    scan_applyFunction he hscan (by decide) (.inl rfl) Binary64.sqrt
  obtain rfl := Option.some.inj (hread.symm.trans hx)
  obtain rfl := Option.some.inj (hread.symm.trans hy)
  obtain ⟨applied, happlied, -, htokens⟩ := hsquare (by decide +kernel)
  refine ⟨he, hscan, ⟨applied, happlied, ?_⟩, hroot (by decide +kernel)⟩
  rw [htokens (by decide +kernel)]
  decide +kernel

end Edit

/-! ### A shown value -/

namespace Display

open Scientific

variable {v : Binary64}

/-- What is shown can be read. -/
theorem exists_read_text (hv : v.isFinite) : ∃ x, Numeral.read (text v) = some x := by
  by_cases he : 'e' ∈ text v
  · obtain ⟨negative, n, z, htext, hexponential, -⟩ := exists_exponential_of_mem hv he
    rw [htext]
    exact ⟨_, read_exponential negative z hexponential.digits.1⟩
  · obtain ⟨negative, whole, fraction, hdigits, htext⟩ := exists_plain hv he
    rw [htext]
    exact ⟨_, Numeral.read_plain hdigits⟩

/-- **A text with an exponent** ends in a numeral, which is the exponent. A minus belongs to it, and
a plus does not. -/
theorem exists_exponent_of_mem (hv : v.isFinite) (he : 'e' ∈ text v) :
    ∃ before exponent y, text v = before ++ exponent ∧ 'e' ∈ before ∧
      Numeral.Spelled exponent ∧ Numeral.read exponent = some y ∧
        (exponent.head? = some '-' ∨ lastRun before = [] ∧ before.getLast? ≠ some '-') := by
  obtain ⟨negative, n, z, htext, hexponential, -⟩ := exists_exponential_of_mem hv he
  rw [exponential_eq_plain negative hexponential.digits.1, symbol_exponentOperator] at htext
  generalize Numeral.plain negative _ _ = mantissa at htext
  generalize (written n z).exponent = exponent at htext
  have hdigits : Numeral.Digits (Text.ofNat exponent.natAbs) none :=
    ⟨Text.ofNat_ne_nil _, fun _ => Text.isDigit_of_mem_ofNat, by simp⟩
  by_cases hminus : exponent < 0
  · refine ⟨mantissa ++ ['e'], Numeral.plain true (Text.ofNat exponent.natAbs) none, _, ?_, by simp,
      Numeral.spelled_plain hdigits, Numeral.read_plain hdigits, .inl rfl⟩
    rw [htext, if_pos hminus]
    simp [Numeral.plain, signText]
  · have hplus : lastRun (mantissa ++ ['e', '+']) = [] := lastRun_eq_nil (by simp; decide)
    refine ⟨mantissa ++ ['e', '+'], Numeral.plain false (Text.ofNat exponent.natAbs) none, _, ?_,
      by simp, Numeral.spelled_plain hdigits, Numeral.read_plain hdigits, .inr ⟨hplus, by simp⟩⟩
    rw [htext, if_neg hminus]
    simp [Numeral.plain, signText]

end Display

namespace Edit

variable {v : Binary64}

/-- All of a text without an exponent is its last numeral. -/
theorem lastNumeral_text (hv : v.isFinite) (he : 'e' ∉ Display.text v) :
    lastNumeral (Display.text v) = Display.text v := by
  obtain ⟨negative, whole, fraction, hdigits, htext⟩ := Display.exists_plain hv he
  have hspelled : Numeral.Spelled (Display.text v) := htext ▸ Numeral.spelled_plain hdigits
  exact @lastNumeral_append_of_spelled [] _ hspelled (.inr ⟨rfl, by simp⟩)

/-- **A function at a shown value** acts on all of it just if it is shown without an exponent. With
one it acts on the exponent, and what stands before that remains. -/
theorem applyFunction_text_iff (hv : v.isFinite) (f : Binary64 → Binary64) :
    ∃ x, Numeral.read (Display.text v) = some x ∧
      (lastNumeral (Display.text v) = Display.text v ↔ 'e' ∉ Display.text v) ∧
      ((f x).isFinite → (applyFunction f (Display.text v) = .ok ⟨Display.text (f x), f x⟩ ↔
        'e' ∉ Display.text v)) ∧
      ('e' ∈ Display.text v → ∃ before exponent y, 'e' ∈ before ∧
        Display.text v = before ++ exponent ∧ lastNumeral (Display.text v) = exponent ∧
          Numeral.read exponent = some y ∧
            applyFunction f (Display.text v) =
              if (f y).isFinite then .ok ⟨before ++ Display.text (f y), f y⟩
              else .error .invalidResult) := by
  obtain ⟨x, hx⟩ := Display.exists_read_text hv
  refine ⟨x, hx, ?_⟩
  by_cases he : 'e' ∈ Display.text v
  · obtain ⟨before, exponent, y, htext, hmem, hspelled, hread, hend⟩ :=
      Display.exists_exponent_of_mem hv he
    have hne : before ≠ [] := List.ne_nil_of_mem hmem
    have hlast := lastNumeral_append_of_spelled hspelled hend
    have happly := applyFunction_append (f := f) hlast hread
    rw [← htext] at hlast happly
    refine ⟨iff_of_false (fun hall => hne ?_) (not_not_intro he), fun _ => ?_, fun _ => ?_⟩
    · have hnil : before ++ exponent = exponent := by rw [← htext, ← hall, hlast]
      exact List.append_left_eq_self.1 hnil
    · refine iff_of_false (fun hwhole => ?_) (not_not_intro he)
      rw [happly] at hwhole
      split at hwhole
      · have hvalue : f y = f x := congrArg Applied.value (Except.ok.inj hwhole)
        have hexpression : before ++ Display.text (f y) = Display.text (f x) :=
          congrArg Applied.expression (Except.ok.inj hwhole)
        rw [hvalue] at hexpression
        exact hne (List.append_left_eq_self.1 hexpression)
      · cases hwhole
    · exact ⟨before, exponent, y, hmem, htext, hlast, hread, happly⟩
  · have hlast := lastNumeral_text hv he
    have happly := @applyFunction_append f [] _ _ hlast hx
    refine ⟨iff_of_true hlast he, fun hfinite => iff_of_true ?_ he, fun hmem => absurd hmem he⟩
    rw [List.nil_append, if_pos hfinite] at happly
    exact happly

/-- The square of what is shown as `1.000000000e+21` is that of its exponent, and the square of `1.5`
is that of the value. -/
theorem applyFunction_text_iff_square :
    let square : Binary64 → Binary64 := fun x => x * x
    let large := Binary64.ofDecimal false 1 21
    let small := Binary64.ofDecimal false 15 (-1)
    lastNumeral (Display.text large) ≠ Display.text large ∧
      applyFunction square (Display.text large) ≠
        .ok ⟨Display.text (square large), square large⟩ ∧
      applyFunction square (Display.text large) =
        .ok ⟨"1.000000000e+441".toList, .ofDecimal false 441 0⟩ ∧
      lastNumeral (Display.text small) = Display.text small ∧
      applyFunction square (Display.text small) =
        .ok ⟨Display.text (square small), square small⟩ := by
  intro square large small
  have hlarge : Numeral.read (Display.text large) = some large := by decide +kernel
  have hsmall : Numeral.read (Display.text small) = some small := by decide +kernel
  have hexponent : 'e' ∈ Display.text large := by decide +kernel
  have hplain : 'e' ∉ Display.text small := by decide +kernel
  obtain ⟨x, hx, hlast, hwhole, -⟩ := applyFunction_text_iff (v := large) (by decide +kernel) square
  obtain ⟨y, hy, hlast', hwhole', -⟩ :=
    applyFunction_text_iff (v := small) (by decide +kernel) square
  obtain rfl := Option.some.inj (hlarge.symm.trans hx)
  obtain rfl := Option.some.inj (hsmall.symm.trans hy)
  refine ⟨fun h => hlast.1 h hexponent, fun h => (hwhole (by decide +kernel)).1 h hexponent, ?_,
    hlast'.2 hplain, (hwhole' (by decide +kernel)).2 hplain⟩
  decide +kernel

end Edit
end PocketCalculator
