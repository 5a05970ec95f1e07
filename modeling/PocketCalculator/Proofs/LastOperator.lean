/-
# The last operator wins

What an operator key makes of an expression depends on its preview and on whether a minus stands
last:

| key | minus last | otherwise |
| --- | --- | --- |
| minus | nothing is changed | a minus is appended |
| any other | it stands behind the preview | it stands behind the preview |

Behind an empty preview, nothing stands. No operator key changes the preview
(`Edit.preview_withOperator`), so that any operator but a minus makes the key before it forgotten,
and so does a minus after a minus.

The session follows the expression (`Session.operator_eq`) only where a result is not blank, because
on an empty expression most operator keys leave the mark of a result alone. Every key keeps that
(`Session.Nonblank.apply`): a result is the text of a finite value, which is not empty.
-/

import PocketCalculator.Proofs.ErrorState
import PocketCalculator.Proofs.Written

namespace PocketCalculator

namespace Edit

/-- An expression after an operator key. -/
def withOperator (op : Operator) (e : Text) : Text :=
  if op = .minus then
    if e.getLast? = some '-' then e else e ++ [op.symbol]
  else if preview e = [] then [] else preview e ++ [op.symbol]

/-- An operator at the end is not previewed. -/
theorem preview_concat_symbol (e : Text) (op : Operator) : preview (e ++ [op.symbol]) = preview e :=
  Text.dropTrailing_append_replicate e 1 (isOperator_symbol op)

/-- A preview has no operator at its end. -/
theorem preview_preview (e : Text) : preview (preview e) = preview e :=
  Text.dropTrailing_eq_self fun _ => Text.getLast?_dropTrailing

/-- Without an operator at its end, an expression is its preview. -/
theorem preview_of_getLast? {e : Text} (h : ¬ e.getLast?.any isOperator) : preview e = e := by
  refine Text.dropTrailing_eq_self fun c hc => ?_
  rw [Option.mem_def.1 hc] at h
  simpa using h

/-- Behind a text that does not end in an operator, an operator is appended, but to an empty text
only a minus is. -/
theorem withOperator_of_getLast? {op : Operator} {e : Text} (h : ¬ e.getLast?.any isOperator) :
    withOperator op e = if e = [] ∧ op ≠ .minus then [] else e ++ [op.symbol] := by
  rw [withOperator, preview_of_getLast? h]
  by_cases hminus : op = .minus
  · subst hminus
    have hsign : e.getLast? ≠ some '-' := by
      intro hsign
      rw [hsign] at h
      exact h rfl
    rw [if_pos rfl, if_neg hsign, if_neg fun hfirst => hfirst.2 rfl]
  · simp only [hminus, if_false, ne_eq, not_false_eq_true, and_true]

/-- **No operator key changes the preview.** -/
theorem preview_withOperator (op : Operator) (e : Text) :
    preview (withOperator op e) = preview e := by
  rw [withOperator]
  split_ifs with hminus hlast hnil
  · rfl
  · exact preview_concat_symbol e op
  · rw [hnil]
    rfl
  · rw [preview_concat_symbol, preview_preview]

/-- Any operator but a minus depends on the preview alone. -/
theorem withOperator_withOperator {b : Operator} (hb : b ≠ .minus) (a : Operator) (e : Text) :
    withOperator b (withOperator a e) = withOperator b e := by
  rw [withOperator, if_neg hb, preview_withOperator, withOperator, if_neg hb]

/-- A minus is written once. -/
theorem withOperator_minus_minus (e : Text) :
    withOperator .minus (withOperator .minus e) = withOperator .minus e := by
  have hlast : (withOperator .minus e).getLast? = some '-' := by
    rw [withOperator, if_pos rfl]
    split
    · assumption
    · exact List.getLast?_concat
  rw [withOperator, if_pos rfl, if_pos hlast]

end Edit

namespace Session

variable {s : Session}

/-- A result is not blank. -/
def Nonblank (s : Session) : Prop := s.evaluated → s.expression ≠ []

/-- What is typed may be blank. -/
theorem Nonblank.of_not_evaluated (h : s.evaluated = false) : s.Nonblank := fun hevaluated => by
  rw [h] at hevaluated
  cases hevaluated

/-- Leaving the error state leaves no result. -/
theorem Nonblank.leaveError (h : s.Nonblank) : s.leaveError.Nonblank := by
  rw [Session.leaveError]
  split
  · exact .of_not_evaluated rfl
  · exact h

/-! ### An operator key -/

/-- **An operator key**, where a result is not blank. -/
theorem operator_eq (h : s.Nonblank) (op : Operator) :
    s.operator op = { s.leaveError with
      expression := Edit.withOperator op s.leaveError.expression
      evaluated := false } := by
  have hblank := h.leaveError
  rw [operator]
  generalize s.leaveError = t at hblank ⊢
  dsimp only
  have hpreview : preview { t with evaluated := false } = Edit.preview t.expression := rfl
  rw [hpreview]
  by_cases hlast : t.expression.getLast?.any isOperator
  · have hne : t.expression ≠ [] := by
      intro hnil
      rw [hnil] at hlast
      cases hlast
    rw [if_neg fun hfirst => hne hfirst.1, if_pos hlast, Edit.withOperator]
    split <;> split <;> rfl
  · rw [if_neg hlast, Edit.withOperator_of_getLast? hlast]
    by_cases hfirst : t.expression = [] ∧ op ≠ .minus
    · -- Nothing is done, and there is no mark of a result to be taken away.
      have hevaluated : t.evaluated = false := Bool.eq_false_of_not_eq_true fun hevaluated =>
        hblank hevaluated hfirst.1
      rw [if_pos hfirst, if_pos hfirst, ← hfirst.1, ← hevaluated]
    · rw [if_neg hfirst, if_neg hfirst]

/-- An operator key leaves no result that is blank. -/
theorem Nonblank.operator (h : s.Nonblank) (op : Operator) : (s.operator op).Nonblank := by
  rw [operator_eq h]
  exact .of_not_evaluated rfl

/-- Two operator keys are one, if they are one for the expression. -/
theorem operator_operator (h : s.Nonblank) {a b : Operator}
    (hexpression : ∀ e, Edit.withOperator b (Edit.withOperator a e) = Edit.withOperator b e) :
    (s.operator a).operator b = s.operator b := by
  have hfirst := operator_eq h a
  have hleave : (s.operator a).leaveError = s.operator a := by
    refine leaveError_of_not_failed ?_
    rw [hfirst]
    exact s.failed_leaveError
  rw [operator_eq (h.operator a), hleave, operator_eq h b, hfirst, hexpression]

/-! ### A result is not blank -/

/-- A digit key. It replaces a result, or a digit stands behind what there is. -/
theorem nonblank_digit (h : s.Nonblank) (c : Char) : (s.digit c).Nonblank := by
  rw [digit]
  split
  · dsimp only
    split
    · exact .of_not_evaluated rfl
    · exact fun _ => by simp
  · exact h

/-- The point key. It replaces a result too, or a point stands behind what there is. -/
theorem nonblank_point (h : s.Nonblank) : s.point.Nonblank := by
  rw [point]
  split_ifs
  · exact .of_not_evaluated rfl
  · exact fun _ => by simp
  · exact h.leaveError
  · exact fun _ => by simp

/-- The equals key, whose result is a text of at least one character. -/
theorem nonblank_equals (h : s.Nonblank) : s.equals.Nonblank := by
  rcases s.equals_cases with ⟨v, hv, -, heq⟩ | ⟨-, heq | heq⟩ <;> rw [heq]
  · have hne : Display.text v ≠ [] := Display.text_ne_nil hv
    exact fun _ => hne
  · exact .of_not_evaluated rfl
  · exact h

/-- The delete key, after which the expression is no result. -/
theorem nonblank_delete (h : s.Nonblank) : s.delete.Nonblank := by
  rw [delete]
  split_ifs
  · exact .of_not_evaluated rfl
  · exact h
  · exact .of_not_evaluated rfl

/-- A function key. It leaves the mark of a result alone and writes a value. -/
theorem nonblank_function (f : UnaryFunction) (s : Session) : (s.function f).Nonblank := by
  rw [function]
  split
  · rename_i applied happly
    obtain ⟨hfinite, hcases⟩ := Edit.applyFunction_cases happly
    have hne : Display.text applied.value ≠ [] := Display.text_ne_nil hfinite
    have happlied : applied.expression ≠ [] := by
      rcases hcases with halone | ⟨-, x, -, -, hreplaced⟩
      · rwa [halone]
      · obtain ⟨kept, -, hkept⟩ := Edit.exists_prefix_replaceLastNumeral s.leaveError.expression
          (Display.text applied.value)
        rw [hreplaced, hkept]
        exact List.append_ne_nil_of_right_ne_nil kept hne
    exact fun _ => happlied
  · exact .of_not_evaluated rfl

/-- Reusing an entry, whose result was written by the equals key. -/
theorem nonblank_reuse (h : s.Nonblank) (hwritten : s.Written) (i : ℕ) : (s.reuse i).Nonblank := by
  rw [reuse]
  split
  · rename_i e he
    obtain ⟨-, v, hv, hresult⟩ := hwritten.entries e (List.mem_of_getElem? he)
    have hne : e.result ≠ [] := by
      rw [hresult]
      exact Display.text_ne_nil hv
    exact fun _ => hne
  · exact h

namespace Nonblank

/-- **Every action** keeps results from being blank. -/
theorem apply (h : s.Nonblank) (hwritten : s.Written) (a : Action) : (s.apply a).Nonblank := by
  cases a with
  | digit c => exact nonblank_digit h c
  | point => exact nonblank_point h
  | operator op => exact h.operator op
  | equals => exact nonblank_equals h
  | clear => exact .of_not_evaluated rfl
  | delete => exact nonblank_delete h
  | function f => exact nonblank_function f s
  | constant c => exact .of_not_evaluated rfl
  | memoryRecall => exact .of_not_evaluated rfl
  | reuse i => exact nonblank_reuse h hwritten i
  | toggleAngle | clearHistory => exact h
  | memoryClear =>
    rw [Session.apply]
    exact fun hevaluated => h hevaluated
  | memoryAdd => rcases s.memoryAdd_cases with heq | ⟨v, -, heq⟩ <;> rwa [Session.apply, heq]
  | memorySubtract =>
    rcases s.memorySubtract_cases with heq | ⟨v, -, heq⟩ <;> rwa [Session.apply, heq]

/-- **One step** keeps results from being blank. -/
theorem advance (h : s.Nonblank) (hwritten : s.Written) (x : Step) : (s.advance x).Nonblank := by
  rcases s.advance_cases x with ⟨a, -, hadvance⟩ | ⟨-, hadvance | hadvance⟩ <;> rw [hadvance]
  · exact h.apply hwritten a
  · exact h
  · rw [reload, restore_save_eq_new]
    exact .of_not_evaluated rfl

/-- **A run** keeps results from being blank. -/
theorem after (h : s.Nonblank) (hwritten : s.Written) (steps : List Step) :
    (s.after steps).Nonblank := by
  induction steps generalizing s with
  | nil => exact h
  | cons x steps ih => exact ih (h.advance hwritten x) (hwritten.advance x)

end Nonblank

/-- **The last operator wins.** From a fresh start and whatever the steps, an operator key before an
operator key other than the minus is as if it had not been pressed, and so is any operator key
before the same one. -/
theorem last_operator_wins (preferences : Preferences) (steps : List Step) :
    let s := (new .empty preferences).after steps
    (∀ a b, b ≠ .minus → (s.operator a).operator b = s.operator b) ∧
      ∀ a, (s.operator a).operator a = s.operator a := by
  intro s
  have hnonblank : s.Nonblank :=
    Nonblank.after (.of_not_evaluated rfl) (.new preferences) steps
  have hlast : ∀ a b, b ≠ .minus → (s.operator a).operator b = s.operator b := fun a b hb =>
    operator_operator hnonblank (Edit.withOperator_withOperator hb a)
  refine ⟨hlast, fun a => ?_⟩
  by_cases ha : a = .minus
  · rw [ha]
    exact operator_operator hnonblank Edit.withOperator_minus_minus
  · exact hlast a a ha

/-- Behind a run of operators after a result; the minus between them is forgotten with the rest. -/
theorem last_operator_wins_behind_sign :
    let s := (new .empty .standard).after ("2*3=/-".toList.map .character)
    s.expression = "6/-".toList ∧ (s.operator .minus).operator .minus = s.operator .minus ∧
      (s.operator .divide).operator .plus = s.operator .plus ∧
        (s.operator .plus).expression = "6+".toList := by
  intro s
  have hlast := last_operator_wins .standard ("2*3=/-".toList.map .character)
  exact ⟨by decide +kernel, hlast.2 .minus, hlast.1 .divide .plus (by decide), by decide +kernel⟩

end Session
end PocketCalculator
