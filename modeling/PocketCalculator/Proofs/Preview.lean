/-
# What the preview shows

The second line of the display, the keys that act on the memory and the equals key each evaluate the
preview for themselves. They agree in every session, whatever text its expression is:

| outcome of the preview | second line | current value | equals key |
| --- | --- | --- | --- |
| a value (`Session.Commits`) | its text | the value | commits what is shown |
| a division by zero (`Session.Divides`) | `Error` | none | enters the error state |
| empty or invalid (`Session.Waits`) | `0` | none | does nothing |

`Session.preview_agrees` says that exactly one row of the table holds outside the error state, and
what holds in it. An empty preview has no row of its own, since its outcome is invalid too.
-/

import PocketCalculator.Proofs.Redisplay
import PocketCalculator.Proofs.TypedSession

namespace PocketCalculator

namespace Display

/-- The text of a finite value has a value, unless it has an exponent. -/
theorem text_ne_of_invalid {v : Binary64} {t : Text} (hv : v.isFinite) (he : 'e' ∉ t)
    (ht : Outcome.ofExpression t = .invalid) : text v ≠ t := by
  rintro rfl
  obtain ⟨w, hw, -⟩ := redisplay_of_not_mem hv he
  cases ht.symm.trans hw

/-- A value is not shown as an empty text. -/
theorem text_ne_nil {v : Binary64} (hv : v.isFinite) : text v ≠ [] :=
  text_ne_of_invalid hv (by decide) rfl

/-- A value is not shown as an error. -/
theorem text_ne_errorText {v : Binary64} (hv : v.isFinite) : text v ≠ errorText :=
  text_ne_of_invalid hv (by decide) rfl

end Display

namespace Session

/-- The preview has the value `v`, which is shown, and the equals key commits it. -/
structure Commits (s : Session) (v : Binary64) : Prop where
  outcome : Outcome.ofExpression s.preview = .success v
  resultLine : s.resultLine = Display.text v
  currentValue? : s.currentValue? = some v
  expression : s.equals.expression = s.resultLine
  expressionLine : s.equals.expressionLine = s.resultLine
  newest : s.equals.history.get? 0 = some ⟨s.preview, s.resultLine⟩
  evaluated : s.equals.evaluated

/-- The preview divides by zero, which is shown as an error, and the equals key fails. -/
structure Divides (s : Session) : Prop where
  outcome : Outcome.ofExpression s.preview = .divisionByZero
  resultLine : s.resultLine = Display.errorText
  currentValue? : s.currentValue? = none
  failed : s.equals.failed
  lines : s.equals.expressionLine = Display.errorText ∧ s.equals.resultLine = Display.errorText
  history : s.equals.history = s.history

/-- There is nothing to be evaluated yet, and the equals key does nothing. -/
structure Waits (s : Session) : Prop where
  outcome : s.preview = [] ∨ Outcome.ofExpression s.preview = .invalid
  resultLine : s.resultLine = ['0']
  currentValue? : s.currentValue? = none
  equals : s.equals = s

variable {s : Session}

/-! ### What the equals key does at each outcome -/

/-- An empty preview has no value. -/
theorem outcome_of_preview_eq_nil (h : s.preview = []) :
    Outcome.ofExpression s.preview = .invalid := by
  rw [h]
  rfl

/-- A preview with a value or a division by zero is not empty. -/
theorem preview_ne_nil (h : Outcome.ofExpression s.preview ≠ .invalid) : s.preview ≠ [] :=
  mt outcome_of_preview_eq_nil h

/-- In the error state the equals key does nothing. -/
theorem equals_of_failed (h : s.failed) : s.equals = s := if_pos (.inl h)

/-- A value is committed: it becomes the expression and a new entry. -/
theorem equals_of_success {v : Binary64} (hfailed : s.failed = false)
    (h : Outcome.ofExpression s.preview = .success v) :
    s.equals = { s with
      expression := Display.text v
      evaluated := true
      history := s.history.push ⟨s.preview, Display.text v⟩ } := by
  have hne : s.preview ≠ [] := preview_ne_nil (by simp [h])
  simp [equals, hfailed, hne, h]

/-- A division by zero leads to the error state. -/
theorem equals_of_divisionByZero (hfailed : s.failed = false)
    (h : Outcome.ofExpression s.preview = .divisionByZero) : s.equals = s.showError := by
  have hne : s.preview ≠ [] := preview_ne_nil (by simp [h])
  simp [equals, hfailed, hne, h]

/-- Without a value and without a division by zero the equals key does nothing. -/
theorem equals_of_invalid (h : Outcome.ofExpression s.preview = .invalid) : s.equals = s := by
  simp [equals, h]

/-! ### The rows of the table -/

/-- The row of a preview with a value. -/
theorem commits_of_outcome {v : Binary64} (hfailed : s.failed = false)
    (h : Outcome.ofExpression s.preview = .success v) : s.Commits v := by
  have hv : v.isFinite := Evaluation.isFinite_of_evaluate (Outcome.evaluate_of_success h)
  have hne : s.preview ≠ [] := preview_ne_nil (by simp [h])
  have hline : s.resultLine = Display.text v := by simp [Session.resultLine, hfailed, hne, h]
  have hequals := equals_of_success hfailed h
  refine ⟨h, hline, ?_, ?_, ?_, ?_, ?_⟩
  · simp [Session.currentValue?, hfailed, h, Outcome.value?]
  · rw [hequals, hline]
  · rw [hequals, hline]
    simp [Session.expressionLine, hfailed, Display.text_ne_nil hv]
  · rw [hequals, hline]
    rfl
  · rw [hequals]

/-- The row of a preview that divides by zero. -/
theorem divides_of_outcome (hfailed : s.failed = false)
    (h : Outcome.ofExpression s.preview = .divisionByZero) : s.Divides := by
  have hne : s.preview ≠ [] := preview_ne_nil (by simp [h])
  have hequals := equals_of_divisionByZero hfailed h
  refine ⟨h, ?_, ?_, ?_, ?_, ?_⟩
  · simp [Session.resultLine, hfailed, hne, h]
  · simp [Session.currentValue?, hfailed, h, Outcome.value?]
  · rw [hequals]
    rfl
  · rw [hequals]
    exact ⟨rfl, rfl⟩
  · rw [hequals]
    rfl

/-- The row of a preview without either. -/
theorem waits_of_outcome (hfailed : s.failed = false)
    (h : Outcome.ofExpression s.preview = .invalid) : s.Waits := by
  refine ⟨.inr h, ?_, ?_, equals_of_invalid h⟩
  · simp [Session.resultLine, hfailed, h]
  · simp [Session.currentValue?, hfailed, h, Outcome.value?]

/-- A session that waits has nothing to evaluate, whether or not its preview is empty. -/
theorem Waits.outcome_eq (h : s.Waits) : Outcome.ofExpression s.preview = .invalid :=
  h.outcome.elim outcome_of_preview_eq_nil id

/-- **What is shown is what is committed and what the memory takes.** Outside the error state
exactly one row of the table holds. In the error state nothing is current and the equals key does
nothing. In every session the memory is changed at most by the current value, if that leaves it
finite, and with it nothing else. -/
theorem preview_agrees (s : Session) :
    (s.failed = false →
      ((∃ v, s.Commits v) ∨ s.Divides ∨ s.Waits) ∧
        ¬ ((∃ v, s.Commits v) ∧ s.Divides) ∧ ¬ ((∃ v, s.Commits v) ∧ s.Waits) ∧
        ¬ (s.Divides ∧ s.Waits)) ∧
      (s.failed → s.resultLine = Display.errorText ∧ s.currentValue? = none ∧ s.equals = s) ∧
      (s.currentValue? = none → s.memoryAdd = s ∧ s.memorySubtract = s) ∧
      ∀ v, s.currentValue? = some v →
        s.memoryAdd = (if (s.memory + v).isFinite then { s with memory := s.memory + v } else s) ∧
          s.memorySubtract =
            if (s.memory - v).isFinite then { s with memory := s.memory - v } else s := by
  refine ⟨fun hfailed => ⟨?_, ?_, ?_, ?_⟩, fun hfailed => ?_, fun hnone => ?_, fun v hv => ?_⟩
  · cases houtcome : Outcome.ofExpression s.preview with
    | success v => exact .inl ⟨v, commits_of_outcome hfailed houtcome⟩
    | divisionByZero => exact .inr (.inl (divides_of_outcome hfailed houtcome))
    | invalid => exact .inr (.inr (waits_of_outcome hfailed houtcome))
  · rintro ⟨⟨v, hv⟩, hdivides⟩
    cases hv.outcome.symm.trans hdivides.outcome
  · rintro ⟨⟨v, hv⟩, hwaits⟩
    cases hv.outcome.symm.trans hwaits.outcome_eq
  · rintro ⟨hdivides, hwaits⟩
    cases hdivides.outcome.symm.trans hwaits.outcome_eq
  · exact ⟨if_pos hfailed, if_pos hfailed, equals_of_failed hfailed⟩
  · simp [memoryAdd, memorySubtract, hnone]
  · simp [memoryAdd, memorySubtract, memorize, hv]

/-- The operator at the end is not part of the preview, which is committed. -/
theorem preview_agrees_quotient :
    let s : Session := { new .empty .standard with expression := "6/4*".toList }
    s.failed = false ∧ ∃ v, s.Commits v := by
  intro s
  have houtcome : Outcome.ofExpression s.preview ≠ .divisionByZero ∧
      Outcome.ofExpression s.preview ≠ .invalid := by decide +kernel
  refine ⟨rfl, ((preview_agrees s).1 rfl).1.resolve_right ?_⟩
  rintro (hdivides | hwaits)
  · exact houtcome.1 hdivides.outcome
  · exact houtcome.2 hwaits.outcome_eq

end Session
end PocketCalculator
