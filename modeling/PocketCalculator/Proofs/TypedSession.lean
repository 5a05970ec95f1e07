/-
# Sessions that are typed

Every action but a function key and the memory's recall keeps the expression a text that keys can
type (`Session.Typed`), as long as the equals key commits no result with an exponent.

| part | where it may come from |
| --- | --- |
| `expression` | digits, points, operators and constants at its end, or a committed result |
| the results of the history | earlier commitments, which `Session.reuse` brings back |

One action keeps this (`Session.Typed.apply`), so a run does (`Session.Typed.run`), and the preview
of a session on the way is empty or has no error but a division by zero or a value that is not
finite (`Session.evaluate_preview_of_run`).
-/

import PocketCalculator.Keys
import PocketCalculator.Proofs.TypedText

namespace PocketCalculator

/-- An action that neither applies a function nor recalls the memory. -/
def Action.isPlain : Action → Bool
  | .function _ | .memoryRecall => false
  | _ => true

/-- What a reduction concludes is finite. -/
theorem Postfix.isFinite_of_conclude {stack : List Binary64} {v : Binary64}
    (h : conclude stack = .ok v) : v.isFinite := by
  rcases stack with _ | ⟨a, _ | ⟨b, stack⟩⟩
  · cases h
  · rw [conclude] at h
    split at h
    · rename_i ha
      cases h
      exact ha
    · cases h
  · cases h

/-- The value of an expression is finite. -/
theorem Evaluation.isFinite_of_evaluate {t : Text} {v : Binary64} (h : evaluate t = .ok v) :
    v.isFinite := by
  cases htokens : completeTokens t with
  | error e =>
    rw [evaluate, htokens] at h
    cases h
  | ok tokens =>
    replace h : Postfix.reduce (Postfix.ofInfix tokens) = .ok v := by rwa [evaluate, htokens] at h
    cases hstack : (Postfix.ofInfix tokens).foldlM Postfix.step [] with
    | error e =>
      rw [Postfix.reduce, hstack] at h
      cases h
    | ok stack =>
      rw [Postfix.reduce, hstack] at h
      exact Postfix.isFinite_of_conclude h

/-- An outcome with a value is that of an evaluation with this value. -/
theorem Outcome.evaluate_of_success {t : Text} {v : Binary64}
    (h : Outcome.ofExpression t = .success v) : Evaluation.evaluate t = .ok v := by
  rw [ofExpression] at h
  cases hevaluate : Evaluation.evaluate t with
  | ok w =>
    rw [hevaluate] at h
    cases h
    rfl
  | error e =>
    rw [hevaluate] at h
    cases e <;> cases h

namespace Edit

/-- A constant is shown without sign or exponent. -/
theorem exists_plain_constant (c : Constant) :
    ∃ whole fraction, Numeral.Digits whole fraction ∧
      Display.text c.value = Numeral.plain false whole fraction := by
  cases c with
  | pi =>
    have hdigits : Numeral.Digits ['3'] (some "1415926536".toList) :=
      ⟨by decide, List.all_eq_true.1 rfl, List.all_eq_true.1 rfl⟩
    exact ⟨_, _, hdigits, by decide +kernel⟩
  | euler =>
    have hdigits : Numeral.Digits ['2'] (some "7182818285".toList) :=
      ⟨by decide, List.all_eq_true.1 rfl, List.all_eq_true.1 rfl⟩
    exact ⟨_, _, hdigits, by decide +kernel⟩

/-- **A constant** can be typed behind any typed text, as a factor behind a numeral. -/
theorem typed_insertLiteral {t : Text} (ht : t.Typed) (c : Constant) :
    (insertLiteral t c.value).Typed := by
  obtain ⟨p, hp⟩ := ht
  obtain ⟨whole, fraction, hdigits, hplain⟩ := exists_plain_constant c
  by_cases hnumeral : p.inNumeral
  · obtain ⟨q, hq, -⟩ := @Place.after_plain .free false _ _ hdigits (.inl rfl)
    have hnext : p.next '*' = some .free := Place.next_operator .times hnumeral
    refine ⟨q, ?_⟩
    rw [insertLiteral_of_inNumeral hp hnumeral, hplain, Place.after_append, hp, Option.bind_some,
      Place.after_cons, hnext, Option.bind_some, hq]
  · have hstart : p = .free ∨ p = .sign ∧ false = false :=
      (Place.not_inNumeral_iff.1 hnumeral).imp_right fun hsign => ⟨hsign, rfl⟩
    obtain ⟨q, hq, -⟩ := Place.after_plain hdigits hstart
    refine ⟨q, ?_⟩
    rw [insertLiteral_of_not_inNumeral hp hnumeral, hplain, Place.after_append, hp,
      Option.bind_some, hq]

end Edit

namespace Session

/-! ### What a run commits -/

/-- The result that the equals key commits, if it commits one. -/
def committed? (s : Session) : Option Text :=
  if s.failed ∨ s.preview = [] then none
  else (Outcome.ofExpression s.preview).value?.map Display.text

/-- What an action commits. Only the equals key does. -/
def commits (s : Session) : Action → Option Text
  | .equals => s.committed?
  | _ => none

/-- The results that a run commits, in their order. -/
def committed (s : Session) : List Action → List Text
  | [] => []
  | a :: actions => (s.commits a).toList ++ (s.apply a).committed actions

/-- **What the equals key does.** It commits a result, enters the error state, or does nothing. -/
theorem equals_cases (s : Session) :
    (∃ v, v.isFinite ∧ s.committed? = some (Display.text v) ∧
        s.equals = { s with
          expression := Display.text v
          evaluated := true
          history := s.history.push ⟨s.preview, Display.text v⟩ }) ∨
      s.committed? = none ∧ (s.equals = s.showError ∨ s.equals = s) := by
  by_cases hnone : s.failed ∨ s.preview = []
  · exact .inr ⟨if_pos hnone, .inr (if_pos hnone)⟩
  rw [committed?, if_neg hnone, equals, if_neg hnone]
  cases houtcome : Outcome.ofExpression s.preview with
  | invalid => exact .inr ⟨rfl, .inr rfl⟩
  | divisionByZero => exact .inr ⟨rfl, .inl rfl⟩
  | success v =>
    exact .inl ⟨v, Evaluation.isFinite_of_evaluate (Outcome.evaluate_of_success houtcome), rfl, rfl⟩

/-- What is memorized is finite, or nothing is. -/
theorem memorize_cases (v : Binary64) (s : Session) :
    s.memorize v = s ∨ ∃ w, w.isFinite ∧ s.memorize v = { s with memory := w } := by
  rw [memorize]
  split
  · rename_i hv
    exact .inr ⟨v, hv, rfl⟩
  · exact .inl rfl

/-- **What the memory's keys do.** They put a finite number into the memory, or do nothing. -/
theorem memoryAdd_cases (s : Session) :
    s.memoryAdd = s ∨ ∃ w, w.isFinite ∧ s.memoryAdd = { s with memory := w } := by
  rw [memoryAdd]
  split
  · exact s.memorize_cases _
  · exact .inl rfl

/-- The key that subtracts does so as well. -/
theorem memorySubtract_cases (s : Session) :
    s.memorySubtract = s ∨ ∃ w, w.isFinite ∧ s.memorySubtract = { s with memory := w } := by
  rw [memorySubtract]
  split
  · exact s.memorize_cases _
  · exact .inl rfl

/-- A run commits what its beginning does, and then what the rest does. -/
theorem committed_append (s : Session) (before after : List Action) :
    s.committed (before ++ after) = s.committed before ++ (s.run before).committed after := by
  induction before generalizing s with
  | nil => rfl
  | cons a before ih => rw [List.cons_append, committed, committed, ih, List.append_assoc]; rfl

/-- A session whose expression, and whose results that can be taken back, keys can type. -/
structure Typed (s : Session) : Prop where
  expression : s.expression.Typed
  results : ∀ e ∈ s.history.entries, e.result.Typed

/-- A session begins with nothing typed. -/
theorem Typed.new (preferences : Preferences) : (new .empty preferences).Typed :=
  ⟨.nil, fun _ he => nomatch he⟩

namespace Typed

variable {s : Session}

/-! ### What one action keeps -/

/-- The clear key leaves nothing typed, and the history as it was. -/
theorem clear (h : s.Typed) : s.clear.Typed := ⟨.nil, h.results⟩

/-- An error leaves no expression. -/
theorem showError (h : s.Typed) : s.showError.Typed := ⟨.nil, h.results⟩

/-- Leaving the error state leaves no expression either. -/
theorem leaveError (h : s.Typed) : s.leaveError.Typed := by
  rw [Session.leaveError]
  split
  · exact h.clear
  · exact h

/-- A digit key. A digit may stand anywhere. -/
theorem digit (h : s.Typed) (c : Char) : (s.digit c).Typed := by
  rw [Session.digit]
  split
  · rename_i hc
    have hleft := h.leaveError
    obtain ⟨p, hp⟩ := hleft.expression
    dsimp only
    split
    · obtain ⟨q, hq, -⟩ := Place.next_digit .free hc
      exact ⟨⟨q, by rw [Place.after_singleton, hq]⟩, hleft.results⟩
    · obtain ⟨q, hq, -⟩ := Place.next_digit p hc
      exact ⟨⟨q, by rw [Place.after_concat hp, hq]⟩, hleft.results⟩
  · exact h

/-- The point key. What it looks for in the last numeral is just what tells the places apart where
a point may not follow. -/
theorem point (h : s.Typed) : s.point.Typed := by
  have hleft := h.leaveError
  obtain ⟨p, hp⟩ := hleft.expression
  rw [Session.point]
  split
  · exact ⟨⟨.fraction, rfl⟩, hleft.results⟩
  split
  · rename_i hall
    have hstart := Place.not_inNumeral_iff.1 ((Place.all_isOperator_iff hp).1 hall)
    refine ⟨⟨.fraction, ?_⟩, hleft.results⟩
    rw [Place.after_append, hp, Option.bind_some]
    rcases hstart with rfl | rfl <;> rfl
  split
  · exact hleft
  · rename_i hall hpoint
    have hnumeral : p.inNumeral := by
      by_contra hnot
      exact hall ((Place.all_isOperator_iff hp).2 hnot)
    rcases Place.inNumeral_iff.1 hnumeral with rfl | rfl
    · exact ⟨⟨.fraction, by rw [Place.after_concat hp, Place.next_point]⟩, hleft.results⟩
    · exact absurd (Place.point_mem_lastNumeral hp) hpoint

/-- An operator key. A minus behind an operator is a sign unless a sign stands there, and any other
operator stands behind the preview. -/
theorem operator (h : s.Typed) (op : Operator) : (s.operator op).Typed := by
  have hleft := h.leaveError
  obtain ⟨p, hp⟩ := hleft.expression
  rw [Session.operator]
  dsimp only
  split
  · exact hleft
  rename_i hfirst
  rcases Place.getLast?_cases hp with ⟨hnil, hfree⟩ | ⟨c, hlast, -, hop, hsign⟩
  · -- Only a minus comes first.
    have hminus : op = .minus := by
      by_contra hne
      exact hfirst ⟨hnil, hne⟩
    rw [hnil, hminus, if_neg (by decide)]
    exact ⟨⟨.sign, rfl⟩, hleft.results⟩
  rw [hlast]
  split
  · rename_i hany
    split
    · rename_i hminus
      subst hminus
      split
      · exact ⟨hleft.expression, hleft.results⟩
      rename_i hne
      rcases Place.not_inNumeral_iff.1 (hop.1 hany) with rfl | rfl
      · exact ⟨⟨.sign, by rw [Place.after_concat hp]; rfl⟩, hleft.results⟩
      · exact absurd (congrArg some (hsign rfl)) hne
    · split
      · exact ⟨.nil, hleft.results⟩
      rename_i hpreview
      obtain ⟨q, hq, hnumeral⟩ := (Place.after_preview hp).resolve_left hpreview
      refine ⟨⟨.free, ?_⟩, hleft.results⟩
      exact (Place.after_concat hq _).trans (Place.next_operator op hnumeral)
  · rename_i hany
    have hnumeral : p.inNumeral := by
      by_contra hnot
      exact hany (hop.2 hnot)
    refine ⟨⟨.free, ?_⟩, hleft.results⟩
    rw [Place.after_concat hp, Place.next_operator op hnumeral]

/-- The delete key. The beginning of a typed text is typed. -/
theorem delete (h : s.Typed) : s.delete.Typed := by
  rw [Session.delete]
  split
  · exact h.clear
  split
  · exact h
  · rename_i hne
    have hsplit := List.dropLast_append_getLast hne
    exact ⟨.of_append (hsplit ▸ h.expression), h.results⟩

/-- The equals key, when what it commits has no exponent. -/
theorem equals (h : s.Typed) (hcommitted : ∀ t ∈ s.committed?, 'e' ∉ t) : s.equals.Typed := by
  rcases s.equals_cases with ⟨v, hv, hsome, heq⟩ | ⟨-, heq | heq⟩
  · have htyped := Text.typed_display hv (hcommitted _ hsome)
    rw [heq]
    refine ⟨htyped, fun e he => ?_⟩
    rcases List.mem_cons.1 (List.mem_of_mem_take he) with rfl | he
    · exact htyped
    · exact h.results e he
  · rw [heq]
    exact h.showError
  · rwa [heq]

/-- A constant inserted as a literal. Its digits and its point can be typed. -/
theorem insert (h : s.Typed) (c : Constant) : (s.insert c.value).Typed := by
  have hleft := h.leaveError
  refine ⟨?_, hleft.results⟩
  rw [Session.insert]
  dsimp only
  split
  · exact Edit.typed_insertLiteral .nil c
  · exact Edit.typed_insertLiteral hleft.expression c

/-- Reusing an entry, whose result can be typed. -/
theorem reuse (h : s.Typed) (i : ℕ) : (s.reuse i).Typed := by
  rw [Session.reuse]
  split
  · rename_i e he
    exact ⟨h.results e (List.mem_of_getElem? he), h.results⟩
  · exact h

/-- What the memory holds does not matter. -/
theorem remember (h : s.Typed) (v : Binary64) : { s with memory := v }.Typed :=
  ⟨h.expression, h.results⟩

/-- The key that adds to the memory changes nothing that is typed. -/
theorem memoryAdd (h : s.Typed) : s.memoryAdd.Typed := by
  rcases s.memoryAdd_cases with heq | ⟨v, -, heq⟩ <;> rw [heq]
  · exact h
  · exact h.remember v

/-- Nor does the key that subtracts from it. -/
theorem memorySubtract (h : s.Typed) : s.memorySubtract.Typed := by
  rcases s.memorySubtract_cases with heq | ⟨v, -, heq⟩ <;> rw [heq]
  · exact h
  · exact h.remember v

/-- **One action** keeps a session typed, if it is plain and commits nothing with an exponent. -/
theorem apply {a : Action} (h : s.Typed) (ha : a.isPlain)
    (hcommits : ∀ t ∈ s.commits a, 'e' ∉ t) : (s.apply a).Typed := by
  cases a with
  | digit c => exact h.digit c
  | point => exact h.point
  | operator op => exact h.operator op
  | equals => exact h.equals hcommits
  | clear => exact h.clear
  | delete => exact h.delete
  | function f => cases ha
  | constant c => exact h.insert c
  | toggleAngle => exact ⟨h.expression, h.results⟩
  | memoryAdd => exact h.memoryAdd
  | memorySubtract => exact h.memorySubtract
  | memoryRecall => cases ha
  | memoryClear => exact h.remember 0
  | reuse i => exact h.reuse i
  | clearHistory => exact ⟨h.expression, fun _ he => nomatch he⟩

/-- **A run** of such actions keeps a session typed. -/
theorem run {actions : List Action} (h : s.Typed) (hplain : ∀ a ∈ actions, a.isPlain)
    (hcommitted : ∀ t ∈ s.committed actions, 'e' ∉ t) : (s.run actions).Typed := by
  induction actions generalizing s with
  | nil => exact h
  | cons a actions ih =>
    obtain ⟨ha, hplain⟩ := List.forall_mem_cons.1 hplain
    rw [committed] at hcommitted
    have hfirst : ∀ t ∈ s.commits a, 'e' ∉ t := fun t ht =>
      hcommitted t (List.mem_append_left _ (Option.mem_toList.2 ht))
    exact ih (h.apply ha hfirst) hplain fun t ht => hcommitted t (List.mem_append_right _ ht)

/-- The preview of a typed session is empty, has a value, divides by zero or has no finite value. -/
theorem evaluate_preview (h : s.Typed) :
    s.preview = [] ∨ TwoLevel.WellFormed (Evaluation.evaluate s.preview) := by
  obtain ⟨p, hp⟩ := h.expression
  rcases Place.after_preview hp with hnil | ⟨q, hq, hnumeral⟩
  · exact .inl hnil
  · exact .inr (Evaluation.evaluate_of_after hq hnumeral)

end Typed

/-- **In every session on the way** of a run from a fresh start, the preview is empty, has a value,
divides by zero or has no finite value, if the actions are plain and no committed result has an
exponent. -/
theorem evaluate_preview_of_run (preferences : Preferences) {before actions : List Action}
    (hplain : ∀ a ∈ actions, a.isPlain)
    (hcommitted : ∀ t ∈ (new .empty preferences).committed actions, 'e' ∉ t)
    (hbefore : before <+: actions) :
    let s := (new .empty preferences).run before
    s.preview = [] ∨ (∃ v, Evaluation.evaluate s.preview = .ok v) ∨
      (∃ a, Evaluation.evaluate s.preview = .error (.divisionByZero a)) ∨
        Evaluation.evaluate s.preview = .error .nonFiniteResult := by
  obtain ⟨rest, rfl⟩ := hbefore
  rw [committed_append] at hcommitted
  have htyped : ((new .empty preferences).run before).Typed :=
    (Typed.new preferences).run (fun a ha => hplain a (List.mem_append_left _ ha))
      fun t ht => hcommitted t (List.mem_append_left _ ht)
  exact htyped.evaluate_preview

/-- A committed result, a sign behind an operator, and a point without a digit behind it. -/
theorem evaluate_preview_of_run_quotient :
    let actions : List Action :=
      [.digit '6', .operator .divide, .digit '4', .equals, .operator .times, .operator .minus,
        .point]
    let s := (new .empty .standard).run actions
    (∀ a ∈ actions, a.isPlain) ∧ (∀ t ∈ (new .empty .standard).committed actions, 'e' ∉ t) ∧
      s.preview = "1.5*-0.".toList ∧ ((∃ v, Evaluation.evaluate s.preview = .ok v) ∨
        (∃ a, Evaluation.evaluate s.preview = .error (.divisionByZero a)) ∨
          Evaluation.evaluate s.preview = .error .nonFiniteResult) := by
  intro actions s
  have hplain : ∀ a ∈ actions, a.isPlain := by decide
  have hcommitted : ∀ t ∈ (new .empty .standard).committed actions, 'e' ∉ t := by decide +kernel
  have hpreview : s.preview = "1.5*-0.".toList := by decide +kernel
  have hne : s.preview ≠ [] := by
    rw [hpreview]
    decide
  exact ⟨hplain, hcommitted, hpreview,
    (evaluate_preview_of_run .standard hplain hcommitted List.prefix_rfl).resolve_left hne⟩

end Session
end PocketCalculator
