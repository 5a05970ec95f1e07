/-
# The operator that waits at the end

Three parts of the calculator say what the end of an expression is, each in its own way. The scanner
reads from the left and takes a minus as a sign or as an operator by what it has read before it; the
marked key looks at the last two characters; the preview cuts every operator off. On an expression
that the scanner accepts they agree (`Edit.trailingOperator_agrees`):

| last token | marked key | preview |
| --- | --- | --- |
| an operator | that operator | the tokens before it |
| a numeral, or none at all | none | all of the expression |

An accepted expression ends in one operator at most, because a numeral stands before each. A sign
that waits for its numeral is no token, and the scanner refuses it; the marked key does not take it
for an operator either.
-/

import PocketCalculator.Proofs.Insertion
import PocketCalculator.Proofs.LastOperator
import PocketCalculator.Proofs.Operand

namespace PocketCalculator

/-- What the scanner has read before an operator at the end: tokens of their own, whose text ends in
a numeral. -/
theorem Token.Spells.before_operator {init : List Token} {op : Operator} {e : Text}
    (h : Spells (init ++ [.operator op]) e) (he : ∀ c ∈ e, isSignificant c) :
    e = init.flatMap text ++ [op.symbol] ∧ scan (init.flatMap text) = .ok init ∧
      ∃ c, (init.flatMap text).getLast? = some c ∧ isOperator c = false := by
  obtain ⟨halternating, hnumeral⟩ := alternating_concat_iff.1 h.alternating
  have hspelled : ∀ t, .numeral t ∈ init → Numeral.Spelled t := fun t ht =>
    h.spelled t (List.mem_append_left _ ht)
  have hcomplete := h.complete
  rw [List.filter_eq_self.2 he, List.flatMap_append, List.flatMap_singleton] at hcomplete
  refine ⟨hcomplete.symm, scanFrom_flatMap_text halternating hspelled, ?_⟩
  rcases init.eq_nil_or_concat with rfl | ⟨first, t | op', rfl⟩
  · simp at hnumeral
  · obtain ⟨c, hc, hop⟩ := (hspelled t (by simp)).exists_getLast?
    refine ⟨c, ?_, hop⟩
    simp [text, hc]
  · simp at hnumeral

namespace Edit

variable {e : Text}

/-- No operator waits where none stands last. -/
theorem trailingOperator_eq_none (h : ¬ e.getLast?.any isOperator) : trailingOperator e = none := by
  rcases e.eq_nil_or_concat with rfl | ⟨before, c, rfl⟩
  · rfl
  · have hc : Operator.ofChar? c = none := by simpa [isOperator] using h
    rw [trailingOperator, List.concat_eq_append, List.reverse_append, List.reverse_singleton,
      List.singleton_append]
    simp [hc]

/-- An accepted expression ends in an operator just if its tokens do. -/
theorem any_isOperator_iff {ts : List Token} (he : ∀ c ∈ e, isSignificant c)
    (h : Token.Spells ts e) :
    e.getLast?.any isOperator ↔ ∃ op, ts.getLast? = some (.operator op) := by
  rw [← h.isOperator_getLast?_iff, List.filter_eq_self.2 he, Option.any_eq_true]
  rfl

/-- A lone sign at the end is refused. -/
theorem scan_concat_minus {before : Text} (he : ∀ c ∈ before ++ ['-'], isSignificant c)
    (hends : before.getLast?.all isOperator) :
    Token.scan (before ++ ['-']) = .error .malformedNumeral := by
  cases hscan : Token.scan (before ++ ['-']) with
  | error cause => rw [Token.scanFrom_eq_error hscan]
  | ok ts =>
    have hspells := Token.scan_eq_ok_iff.1 hscan
    have hminus : (before ++ ['-']).getLast?.any isOperator := by
      rw [List.getLast?_concat]
      rfl
    obtain ⟨op, hop⟩ := (any_isOperator_iff he hspells).1 hminus
    obtain ⟨init, rfl⟩ := List.getLast?_eq_some_iff.1 hop
    obtain ⟨heq, -, c, hc, hnumeral⟩ := hspells.before_operator he
    obtain ⟨rfl, -⟩ := List.append_inj' heq rfl
    simp [hc, hnumeral] at hends

/-- **The scanner, the marked key and the preview agree** on the operator that waits at the end of an
accepted expression. Behind an accepted expression that is empty or ends in an operator, a minus is
a sign: the scanner refuses it alone, and no operator is marked. -/
theorem trailingOperator_agrees (he : ∀ c ∈ e, isSignificant c) :
    (∀ ts, Token.scan e = .ok ts →
      (∀ op, trailingOperator e = some op ↔ ts.getLast? = some (.operator op)) ∧
      ((∃ op, ts.getLast? = some (.operator op)) → Token.scan (preview e) = .ok ts.dropLast) ∧
      ((∀ op, ts.getLast? ≠ some (.operator op)) → preview e = e)) ∧
    ∀ before ts, e = before ++ ['-'] → Token.scan before = .ok ts →
      before.getLast?.all isOperator →
        Token.scan e = .error .malformedNumeral ∧ trailingOperator e = none := by
  constructor
  · intro ts hscan
    have hspells := Token.scan_eq_ok_iff.1 hscan
    by_cases hlast : ∃ op, ts.getLast? = some (.operator op)
    · obtain ⟨op, hop⟩ := hlast
      obtain ⟨init, rfl⟩ := List.getLast?_eq_some_iff.1 hop
      obtain ⟨rfl, hinit, c, hc, hnumeral⟩ := hspells.before_operator he
      have hends : ¬ (init.flatMap Token.text).getLast?.all isOperator := by simp [hc, hnumeral]
      have hpreview : preview (init.flatMap Token.text ++ [op.symbol]) =
          init.flatMap Token.text := by
        rw [preview_concat_symbol, preview_of_getLast? (by simp [hc, hnumeral])]
      have hmarked : trailingOperator (init.flatMap Token.text ++ [op.symbol]) = some op := by
        rw [trailingOperator_concat, if_neg fun hsign => hends hsign.2]
      refine ⟨fun op' => ?_, fun _ => ?_, fun hnone => absurd hop (hnone op)⟩
      · rw [hmarked, hop]
        simp
      · rw [hpreview, hinit, List.dropLast_concat]
    · have hends : ¬ e.getLast?.any isOperator := mt (any_isOperator_iff he hspells).1 hlast
      refine ⟨fun op => ?_, fun hop => absurd hop hlast, fun _ => preview_of_getLast? hends⟩
      rw [trailingOperator_eq_none hends]
      exact iff_of_false (by simp) fun hop => hlast ⟨op, hop⟩
  · rintro before ts rfl - hends
    rw [trailingOperator_concat_minus, if_pos hends]
    exact ⟨scan_concat_minus he hends, rfl⟩

/-- A difference without its right operand behind a signed factor, and a sign behind a quotient. -/
theorem trailingOperator_agrees_difference :
    let waiting := "-5*-.5-".toList
    let sign := "8/-".toList
    (∀ c ∈ waiting, isSignificant c) ∧ (∀ c ∈ sign, isSignificant c) ∧
      trailingOperator waiting = some .minus ∧
      Token.scan (preview waiting) =
        .ok [.numeral "-5".toList, .operator .times, .numeral "-.5".toList] ∧
      Token.scan sign = .error .malformedNumeral ∧ trailingOperator sign = none := by
  intro waiting sign
  have hwaiting : ∀ c ∈ waiting, isSignificant c := List.all_eq_true.1 rfl
  have hsign : ∀ c ∈ sign, isSignificant c := List.all_eq_true.1 rfl
  have hscan : Token.scan waiting = .ok [.numeral "-5".toList, .operator .times,
      .numeral "-.5".toList, .operator .minus] := by decide
  have hquotient : Token.scan "8/".toList = .ok [.numeral ['8'], .operator .divide] := by decide
  obtain ⟨hmarked, hpreview, -⟩ := (trailingOperator_agrees hwaiting).1 _ hscan
  obtain ⟨herror, hnone⟩ :=
    (trailingOperator_agrees hsign).2 "8/".toList _ (by decide) hquotient (by decide)
  exact ⟨hwaiting, hsign, (hmarked .minus).2 rfl, hpreview ⟨.minus, rfl⟩, herror, hnone⟩

end Edit
end PocketCalculator
