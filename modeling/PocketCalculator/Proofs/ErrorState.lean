/-
# The error state

A division by zero on the equals key, or a function key where the function has no finite value,
leads to the error state. It keeps nothing of what was typed (`Session.Clean`), and the memory, the
history and the preferences are as they were. What a step does in it (`Session.Terminal`):

| step | in the error state |
| --- | --- |
| what needs a value, a digit, or an entry that is not there (`Session.Idle`) | nothing |
| the angle's unit, clearing the memory or the history | acts on that alone |
| any other key | what it does in the cleared session |

So the error state is left only by a fresh start. Two lemmas carry the rest:
`Session.advance_of_fails` says what entering the error state does, and `Session.apply_of_failed`
that a key which leaves it acts on the cleared session.
-/

import PocketCalculator.Proofs.Foreground

namespace PocketCalculator

/-- Whether an action acts on a part of the session that the error state does not touch. -/
def Action.isBackground : Action → Bool
  | .toggleAngle | .memoryClear | .clearHistory => true
  | _ => false

namespace Session

/-- An error leaves no expression and no result. -/
def Clean (s : Session) : Prop := s.failed → s.expression = [] ∧ s.evaluated = false

/-- The steps that lead to the error state. -/
inductive Fails (s : Session) (x : Step) : Prop
  | equals (hx : x.action? = some .equals)
      (houtcome : Outcome.ofExpression s.preview = .divisionByZero)
  | function {f : UnaryFunction} {cause : EvalError} (hx : x.action? = some (.function f))
      (hcause : Edit.applyFunction (f.apply s.preferences.angle) s.expression = .error cause)

/-- The actions that have nothing to act on in the error state. -/
inductive Idle (s : Session) : Action → Prop
  | equals : Idle s .equals
  | memoryAdd : Idle s .memoryAdd
  | memorySubtract : Idle s .memorySubtract
  | digit {c : Char} (hc : c.isDigit = false) : Idle s (.digit c)
  | reuse {i : ℕ} (hi : s.history.size ≤ i) : Idle s (.reuse i)

/-- What every step does in the error state. -/
structure Terminal (s : Session) : Prop where
  idle : ∀ x a, x.action? = some a → s.Idle a → s.advance x = s
  unknown : ∀ x, x.action? = none → x ≠ .reload → s.advance x = s
  toggleAngle : ∀ x, x.action? = some .toggleAngle →
    s.advance x = { s with preferences := ⟨s.preferences.angle.toggle⟩ }
  memoryClear : ∀ x, x.action? = some .memoryClear → s.advance x = { s with memory := 0 }
  clearHistory : ∀ x, x.action? = some .clearHistory → s.advance x = { s with history := .empty }
  others : ∀ x a, x.action? = some a → ¬ s.Idle a → a.isBackground = false →
    s.advance x = s.clear.advance x

variable {s : Session} {a : Action} {x : Step} {f : UnaryFunction}

/-! ### Entering the error state -/

/-- Leaving the error state clears the session. -/
theorem leaveError_of_failed (h : s.failed) : s.leaveError = s.clear := if_pos h

/-- Outside the error state there is nothing to leave. -/
theorem leaveError_of_not_failed (h : s.failed = false) : s.leaveError = s := if_neg (by simp [h])

/-- A session that has left the error state is not in it. -/
theorem failed_leaveError (s : Session) : s.leaveError.failed = false := by
  cases h : s.failed with
  | true => rw [leaveError_of_failed h, clear]
  | false => rw [leaveError_of_not_failed h, h]

/-- An error that follows an error shows nothing of the one before. -/
theorem showError_leaveError (s : Session) : s.leaveError.showError = s.showError := by
  rw [leaveError]
  split <;> rfl

/-- **A function key** gives a value or leads to the error state. -/
theorem function_cases (f : UnaryFunction) (s : Session) :
    (s.function f).failed = false ∨
      ∃ cause, Edit.applyFunction (f.apply s.leaveError.preferences.angle)
        s.leaveError.expression = .error cause ∧ s.function f = s.showError := by
  cases happly : Edit.applyFunction (f.apply s.leaveError.preferences.angle)
    s.leaveError.expression with
  | ok applied =>
    left
    simp only [function, happly]
    exact s.failed_leaveError
  | error cause =>
    right
    refine ⟨cause, rfl, ?_⟩
    simp only [function, happly]
    exact s.showError_leaveError

/-- A digit key does not fail. -/
theorem failed_digit (h : s.failed = false) (c : Char) : (s.digit c).failed = false := by
  simp only [digit, leaveError_of_not_failed h]
  split_ifs <;> exact h

/-- The point key does not fail. -/
theorem failed_point (h : s.failed = false) : s.point.failed = false := by
  simp only [point, leaveError_of_not_failed h]
  split_ifs <;> exact h

/-- An operator key does not fail. -/
theorem failed_operator (h : s.failed = false) (op : Operator) :
    (s.operator op).failed = false := by
  simp only [operator, leaveError_of_not_failed h]
  split_ifs <;> exact h

/-- The delete key does not fail, and leaves the error state. -/
theorem failed_delete (s : Session) : s.delete.failed = false := by
  rw [delete]
  split
  · rfl
  · rename_i h
    split <;> exact Bool.eq_false_of_not_eq_true h

/-- Inserting a value does not fail, and leaves the error state. -/
theorem failed_insert (v : Binary64) (s : Session) : (s.insert v).failed = false :=
  s.failed_leaveError

/-- Reusing an entry does not fail. -/
theorem failed_reuse (h : s.failed = false) (i : ℕ) : (s.reuse i).failed = false := by
  rw [reuse]
  split
  · rfl
  · exact h

/-- **Only the equals key and the function keys** lead to the error state. -/
theorem failed_apply (h : s.failed = false) (hequals : a ≠ .equals)
    (hfunction : ∀ f, a ≠ .function f) : (s.apply a).failed = false := by
  cases a with
  | equals => exact absurd rfl hequals
  | function f => exact absurd rfl (hfunction f)
  | digit c => exact failed_digit h c
  | point => exact failed_point h
  | operator op => exact failed_operator h op
  | clear => rfl
  | delete => exact s.failed_delete
  | constant c => exact failed_insert c.value s
  | memoryRecall => exact failed_insert s.memory s
  | memoryAdd => exact (congrArg failed s.foreground_memoryAdd :).trans h
  | memorySubtract => exact (congrArg failed s.foreground_memorySubtract :).trans h
  | reuse i => exact failed_reuse h i
  | toggleAngle | clearHistory => exact h
  | memoryClear => rw [apply, h]

/-- **Entering the error state** changes nothing but what it shows. -/
theorem advance_of_fails (h : s.failed = false) (hx : s.Fails x) : s.advance x = s.showError := by
  cases hx with
  | equals hx houtcome =>
    rw [advance_of_action? hx]
    exact equals_of_divisionByZero h houtcome
  | function hx hcause =>
    rw [advance_of_action? hx]
    simp only [apply, function, leaveError_of_not_failed h, hcause]

/-- A session that starts again has not failed. -/
theorem failed_reload (s : Session) : s.reload.failed = false := by
  rw [reload, restore_save_eq_new, new]

/-- An action that leads to the error state is a division by zero or a function without a value. -/
theorem fails_of_failed_apply (h : s.failed = false) (hx : x.action? = some a)
    (hfailed : (s.apply a).failed) : s.Fails x := by
  by_cases hequals : a = .equals
  · subst hequals
    refine .equals hx ?_
    cases houtcome : Outcome.ofExpression s.preview with
    | divisionByZero => rfl
    | invalid =>
      rw [apply, equals_of_invalid houtcome, h] at hfailed
      cases hfailed
    | success v =>
      rw [apply, equals_of_success h houtcome, h] at hfailed
      cases hfailed
  by_cases hfunction : ∀ f, a ≠ .function f
  · rw [failed_apply h hequals hfunction] at hfailed
    cases hfailed
  · obtain ⟨f, rfl⟩ := not_forall_not.1 hfunction
    rcases function_cases f s with hvalue | ⟨cause, hcause, -⟩
    · rw [apply, hvalue] at hfailed
      cases hfailed
    · rw [leaveError_of_not_failed h] at hcause
      exact .function hx hcause

/-- **The ways into the error state** from any other. -/
theorem failed_advance_iff (h : s.failed = false) : (s.advance x).failed ↔ s.Fails x := by
  constructor
  · intro hfailed
    rcases s.advance_cases x with ⟨a, ha, hadvance⟩ | ⟨-, hadvance | hadvance⟩ <;>
      rw [hadvance] at hfailed
    · exact fails_of_failed_apply h ha hfailed
    · rw [h] at hfailed
      cases hfailed
    · rw [failed_reload] at hfailed
      cases hfailed
  · intro hx
    rw [advance_of_fails h hx, showError]

/-! ### In the error state -/

/-- There is no entry beyond the history. -/
theorem reuse_of_size_le {i : ℕ} (hi : s.history.size ≤ i) : s.reuse i = s := by
  have hnone : s.history.get? i = none := List.getElem?_eq_none hi
  rw [reuse, hnone]

/-- Within the history there is an entry. -/
theorem exists_get?_of_lt {i : ℕ} (hi : i < s.history.size) : ∃ e, s.history.get? i = some e :=
  ⟨_, List.getElem?_eq_getElem hi⟩

/-- **What has nothing to act on** does nothing. -/
theorem apply_of_idle (h : s.failed) (ha : s.Idle a) : s.apply a = s := by
  have hvalue : s.currentValue? = none := if_pos h
  cases ha with
  | equals => exact equals_of_failed h
  | memoryAdd => rw [apply, memoryAdd, hvalue]
  | memorySubtract => rw [apply, memorySubtract, hvalue]
  | digit hc => rw [apply, digit, hc, if_neg Bool.false_ne_true]
  | reuse hi => exact reuse_of_size_le hi

/-- **Any other key** does what it does in the cleared session. -/
theorem apply_of_failed (h : s.failed) (hidle : ¬ s.Idle a) (ha : a.isBackground = false) :
    s.apply a = s.clear.apply a := by
  have hleave : s.clear.leaveError = s.leaveError := (leaveError_of_failed h).symm
  cases a with
  | equals => exact absurd .equals hidle
  | memoryAdd => exact absurd .memoryAdd hidle
  | memorySubtract => exact absurd .memorySubtract hidle
  | toggleAngle | memoryClear | clearHistory => cases ha
  | digit c =>
    have hc : c.isDigit := by
      by_contra hc
      exact hidle (.digit (Bool.eq_false_of_not_eq_true hc))
    simp only [apply, digit, if_pos hc, hleave]
  | point => simp only [apply, point, hleave]
  | operator op => simp only [apply, operator, hleave]
  | clear => rfl
  | delete =>
    rw [apply, apply, delete, if_pos h]
    rfl
  | function f => simp only [apply, function, hleave, showError_leaveError]
  | constant c => simp only [apply, insert, hleave]
  | memoryRecall =>
    have hmemory : s.clear.memory = s.memory := rfl
    simp only [apply, insert, hleave, hmemory]
  | reuse i =>
    have hi : i < s.history.size := by
      by_contra hi
      exact hidle (.reuse (not_lt.1 hi))
    obtain ⟨e, he⟩ := exists_get?_of_lt hi
    simp only [apply, reuse, he, clear]

/-- **Every step in the error state** is of one of these kinds. -/
theorem terminal_of_failed (h : s.failed) : s.Terminal where
  idle x a hx ha := by rw [advance_of_action? hx, apply_of_idle h ha]
  unknown _ hx hreload := advance_of_action?_eq_none hx hreload
  toggleAngle x hx := advance_of_action? hx
  memoryClear x hx := advance_of_action? hx
  clearHistory x hx := advance_of_action? hx
  others x a hx hidle ha := by
    rw [advance_of_action? hx, advance_of_action? hx, apply_of_failed h hidle ha]

/-! ### On the way -/

/-- Outside the error state there is nothing to be clean. -/
theorem Clean.of_not_failed (h : s.failed = false) : s.Clean := fun hfailed => by
  rw [h] at hfailed
  cases hfailed

/-- Whether an error is clean shows in the foreground. -/
theorem Clean.of_foreground_eq {t : Session} (h : s.Clean) (heq : t.foreground = s.foreground) :
    t.Clean := by
  obtain ⟨hexpression, hfailed, hevaluated⟩ := foreground_eq_iff.1 heq
  intro ht
  rw [hexpression, hevaluated]
  exact h (hfailed ▸ ht)

/-- Outside the error state there is only one way in, and it is clean. -/
theorem clean_advance_of_not_failed (h : s.failed = false) (x : Step) : (s.advance x).Clean := by
  intro hfailed
  rw [advance_of_fails h ((failed_advance_iff h).1 hfailed)]
  exact ⟨rfl, rfl⟩

/-- A key of the background leaves the foreground alone. -/
theorem foreground_apply_of_isBackground (ha : a.isBackground) :
    (s.apply a).foreground = s.foreground := by
  cases a with
  | toggleAngle | clearHistory => rfl
  | memoryClear => rw [apply, foreground, foreground]
  | _ => cases ha

/-- **One step** keeps an error clean. -/
theorem Clean.advance (h : s.Clean) (x : Step) : (s.advance x).Clean := by
  cases hfailed : s.failed with
  | false => exact clean_advance_of_not_failed hfailed x
  | true =>
    have hterminal := terminal_of_failed hfailed
    cases hx : x.action? with
    | none =>
      by_cases hreload : x = .reload
      · rw [hreload]
        exact .of_not_failed s.failed_reload
      · rwa [hterminal.unknown x hx hreload]
    | some a =>
      by_cases hidle : s.Idle a
      · rwa [hterminal.idle x a hx hidle]
      cases ha : a.isBackground with
      | true =>
        rw [advance_of_action? hx]
        exact h.of_foreground_eq (foreground_apply_of_isBackground ha)
      | false =>
        -- The cleared session is not in the error state, so the first case applies again.
        rw [hterminal.others x a hx hidle ha]
        exact clean_advance_of_not_failed rfl x

/-- **A run** keeps an error clean. -/
theorem Clean.after (h : s.Clean) (steps : List Step) : (s.after steps).Clean := by
  induction steps generalizing s with
  | nil => exact h
  | cons x steps ih => exact ih (h.advance x)

/-- **The error state is clean, and it is left only through a fresh start.** It never holds an
expression or a result. It is entered by the equals key at a division by zero and by a function key
without a finite value, by nothing else, and that changes neither memory nor history nor
preferences. In it every step does nothing, acts on one of these three alone, or does what it does
in the cleared session. -/
theorem error_terminal :
    (∀ history preferences steps, ((new history preferences).after steps).Clean) ∧
      (∀ (s : Session) (x : Step), s.failed = false →
        ((s.advance x).failed ↔ s.Fails x) ∧
          (s.Fails x → (s.advance x).memory = s.memory ∧ (s.advance x).history = s.history ∧
            (s.advance x).preferences = s.preferences)) ∧
      ∀ s : Session, s.failed → s.Terminal := by
  refine ⟨fun history preferences steps => ?_, fun s x h => ⟨failed_advance_iff h, fun hx => ?_⟩,
    fun s h => terminal_of_failed h⟩
  · exact (Clean.of_not_failed (s := new history preferences) rfl).after steps
  · rw [advance_of_fails h hx]
    exact ⟨rfl, rfl, rfl⟩

/-- A division by zero after a result that is kept in the memory; then the equals key, an entry that
is not there, a letter, and a digit. -/
theorem error_terminal_quotient :
    let before := "6*7=".toList.map .character ++
      [.action .memoryAdd] ++ "/0".toList.map .character
    let s := (new .empty .standard).after before
    let t := s.advance (.key .enter)
    s.failed = false ∧ s.Fails (.key .enter) ∧ t.failed ∧
      (t.expression = [] ∧ t.evaluated = false) ∧
      (t.memory = s.memory ∧ t.history = s.history ∧ t.preferences = s.preferences) ∧
      t.advance (.character '=') = t ∧ t.advance (.action (.reuse 1)) = t ∧
      t.advance (.character 'x') = t ∧
      t.advance (.character '5') = t.clear.advance (.character '5') := by
  intro before s t
  obtain ⟨hclean, henter, hterminal⟩ := error_terminal
  have hfailed : s.failed = false := by decide +kernel
  have hfails : s.Fails (.key .enter) := .equals rfl (by decide +kernel)
  have ht : t.failed := (henter s _ hfailed).1.2 hfails
  have hstate : t.Clean := by
    have hrun := hclean .empty .standard (before ++ [.key .enter])
    rwa [after_concat] at hrun
  have hidle : ¬ t.Idle (.digit '5') := by
    intro h
    cases h with
    | digit hc => exact absurd hc (by decide)
  have hsize : t.history.size ≤ 1 := by decide +kernel
  exact ⟨hfailed, hfails, ht, hstate ht, (henter s _ hfailed).2 hfails,
    (hterminal t ht).idle _ _ rfl .equals, (hterminal t ht).idle _ _ rfl (.reuse hsize),
    (hterminal t ht).unknown _ rfl (by decide),
    (hterminal t ht).others _ _ rfl hidle rfl⟩

end Session
end PocketCalculator
