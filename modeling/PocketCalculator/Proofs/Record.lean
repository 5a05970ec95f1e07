/-
# The record of calculations

What happens to a session is a list of steps, and the history is the bounded record of what they
commit:

| step | the history |
| --- | --- |
| the equals key, when the preview has a value | has that calculation in front, cut at the limit |
| the key that clears the history | is empty |
| any other step, saving and starting again among them | is as before |

The calculations of a list of steps (`Session.calculations`) are collected without a bound. One step
puts its calculation in front and drops what is beyond the limit (`Session.entries_advance`), and
what is dropped early would be dropped at the end (`take_append_take`), so a run puts all its
calculations in front and drops once (`Session.entries_after`). Behind a step that empties the
history a run starts anew, which leaves the calculations since then (`Session.history_after`).
-/

import PocketCalculator.Proofs.Preview
import PocketCalculator.Proofs.ReadBack

namespace PocketCalculator

/-- What is dropped early would be dropped at the end. -/
theorem take_append_take {α : Type} (n : ℕ) (xs ys : List α) :
    (xs ++ ys.take n).take n = (xs ++ ys).take n := by
  rw [List.take_append, List.take_append, List.take_take, Nat.min_eq_left (Nat.sub_le n xs.length)]

/-- Whether an action writes to the expression and the flags, and to nothing else. -/
def Action.isEntry : Action → Bool
  | .equals | .toggleAngle | .memoryAdd | .memorySubtract | .memoryClear | .clearHistory => false
  | _ => true

/-! ### Steps -/

/-- What can happen to a session. -/
inductive Step where
  | action (a : Action)
  /-- A character that is typed, whether or not the calculator has a key for it. -/
  | character (c : Char)
  /-- A key of the keyboard that has no character. -/
  | key (k : Key)
  /-- The session is saved and started again. -/
  | reload
  deriving DecidableEq

namespace Step

/-- The action of a step, if it has one. -/
def action? : Step → Option Action
  | .action a => some a
  | .character c => Action.ofChar? c
  | .key k => k.action?
  | .reload => none

/-- Whether a step empties the history. -/
def empties (x : Step) : Bool := x.action? = some .clearHistory

end Step

namespace Session

/-- The session after a step. -/
def advance (s : Session) : Step → Session
  | .action a => s.apply a
  | .character c => (Action.ofChar? c).elim s s.apply
  | .key k => k.action?.elim s s.apply
  | .reload => s.reload

/-- The session after several steps, in their order. -/
def after (s : Session) (steps : List Step) : Session := steps.foldl advance s

/-- The calculation that the equals key commits: the preview with the text of its value. -/
def calculation? (s : Session) : Option Entry :=
  if s.failed then none
  else (Outcome.ofExpression s.preview).value?.map fun v => ⟨s.preview, Display.text v⟩

/-- The calculation that a step commits. Only the equals key commits one. -/
def stepCalculation? (s : Session) (x : Step) : Option Entry :=
  if x.action? = some .equals then s.calculation? else none

/-- The calculations that several steps commit, the most recent first. -/
def calculations (s : Session) : List Step → List Entry
  | [] => []
  | x :: steps => (s.advance x).calculations steps ++ (s.stepCalculation? x).toList

/-- A start of a session: with a history within the limit, or with what a storage holds. -/
inductive Started : Session → Prop
  | new {history : History} (preferences : Preferences) (hsize : history.size ≤ History.limit) :
      Started (new history preferences)
  | restore (storage : Storage) : Started (restore storage)

/-- What a step from a session does to the history. -/
structure Records (s : Session) : Prop where
  calculation? : ∀ e, s.calculation? = some e ↔
    s.failed = false ∧ ∃ v, Outcome.ofExpression s.preview = .success v ∧
      e = ⟨s.preview, Display.text v⟩
  wellFormed : ∀ e, s.calculation? = some e →
    e.expression ≠ [] ∧ (∀ c ∈ e.expression.getLast?, isOperator c = false) ∧
      e.result ≠ Display.errorText
  equals : s.equals.history = s.calculation?.elim s.history s.history.push
  empties : ∀ x : Step, x.empties → (s.advance x).history = .empty
  others : ∀ x : Step, x.action? ≠ some .equals → x.empties = false →
    (s.advance x).history = s.history

variable {s : Session} {x : Step} {steps : List Step}

/-- **What a step does**: its action, nothing, or saving and starting again. -/
theorem advance_cases (s : Session) (x : Step) :
    (∃ a, x.action? = some a ∧ s.advance x = s.apply a) ∨
      x.action? = none ∧ (s.advance x = s ∨ s.advance x = s.reload) := by
  cases x with
  | action a => exact .inl ⟨a, rfl, rfl⟩
  | character c =>
    rw [Step.action?, advance]
    cases Action.ofChar? c with
    | none => exact .inr ⟨rfl, .inl rfl⟩
    | some a => exact .inl ⟨a, rfl, rfl⟩
  | key k =>
    rw [Step.action?, advance]
    cases k.action? with
    | none => exact .inr ⟨rfl, .inl rfl⟩
    | some a => exact .inl ⟨a, rfl, rfl⟩
  | reload => exact .inr ⟨rfl, .inr rfl⟩

/-- A step with an action is that action. -/
theorem advance_of_action? {a : Action} (h : x.action? = some a) : s.advance x = s.apply a := by
  rcases s.advance_cases x with ⟨b, hb, hadvance⟩ | ⟨hnone, -⟩
  · cases h.symm.trans hb
    exact hadvance
  · cases h.symm.trans hnone

/-- A character or a key without a meaning does nothing. -/
theorem advance_of_action?_eq_none (h : x.action? = none) (hx : x ≠ .reload) : s.advance x = s := by
  cases x with
  | action a => cases h
  | character c =>
    have hnone : Action.ofChar? c = none := h
    rw [advance, hnone, Option.elim_none]
  | key k =>
    have hnone : k.action? = none := h
    rw [advance, hnone, Option.elim_none]
  | reload => exact absurd rfl hx

/-- The last step of a run comes behind the others. -/
theorem after_concat (s : Session) (steps : List Step) (x : Step) :
    s.after (steps ++ [x]) = (s.after steps).advance x := List.foldl_concat advance s x steps

/-! ### What is committed -/

/-- A calculation is the preview with its value, as it is shown. -/
theorem calculation?_eq_some_iff {e : Entry} :
    s.calculation? = some e ↔
      s.failed = false ∧ ∃ v, Outcome.ofExpression s.preview = .success v ∧
        e = ⟨s.preview, Display.text v⟩ := by
  rw [calculation?]
  cases hfailed : s.failed <;> cases Outcome.ofExpression s.preview <;>
    simp [Outcome.value?, eq_comm]

/-- What is committed can be shown: it is a value. -/
theorem wellFormed_of_calculation? {e : Entry} (h : s.calculation? = some e) :
    e.expression ≠ [] ∧ (∀ c ∈ e.expression.getLast?, isOperator c = false) ∧
      e.result ≠ Display.errorText := by
  obtain ⟨-, v, houtcome, rfl⟩ := calculation?_eq_some_iff.1 h
  have hv : v.isFinite := Evaluation.isFinite_of_evaluate (Outcome.evaluate_of_success houtcome)
  have hne : s.preview ≠ [] := preview_ne_nil (by simp [houtcome])
  have hlast : ∀ c ∈ s.preview.getLast?, isOperator c = false := fun c hc =>
    Text.getLast?_dropTrailing hc
  refine ⟨hne, hlast, ?_⟩
  dsimp only
  exact Display.text_ne_errorText hv

/-- **The equals key** puts what it commits in front of the history. -/
theorem history_equals (s : Session) :
    s.equals.history = s.calculation?.elim s.history s.history.push := by
  cases hfailed : s.failed with
  | true => rw [equals_of_failed hfailed, calculation?, if_pos hfailed, Option.elim_none]
  | false =>
    cases houtcome : Outcome.ofExpression s.preview with
    | invalid =>
      rw [equals_of_invalid houtcome]
      simp [calculation?, houtcome, Outcome.value?]
    | divisionByZero =>
      rw [equals_of_divisionByZero hfailed houtcome]
      simp [calculation?, houtcome, Outcome.value?, showError]
    | success v =>
      rw [equals_of_success hfailed houtcome]
      simp [calculation?, hfailed, houtcome, Outcome.value?]

/-! ### What leaves the history alone -/

/-- A cleared session has left the error state, whether or not it was in it. -/
theorem clear_leaveError (s : Session) : s.leaveError.clear = s.clear := by
  rw [leaveError]
  split <;> rfl

/-- **An entry** changes the expression and the flags, which the clear key would empty, and nothing
else. -/
theorem clear_apply {a : Action} (ha : a.isEntry) (s : Session) : (s.apply a).clear = s.clear := by
  have hleave := s.clear_leaveError
  cases a with
  | clear => rfl
  | digit c =>
    rw [apply, digit]
    split
    · dsimp only
      split <;> exact hleave
    · rfl
  | point =>
    rw [apply, point]
    split_ifs <;> exact hleave
  | operator op =>
    rw [apply, operator]
    dsimp only
    split_ifs <;> exact hleave
  | delete =>
    rw [apply, delete]
    split_ifs <;> rfl
  | function f =>
    rw [apply, function]
    split <;> exact hleave
  | constant c => exact hleave
  | memoryRecall => exact hleave
  | reuse i =>
    rw [apply, reuse]
    split <;> rfl
  | _ => cases ha

/-- **The other actions** leave the history alone. -/
theorem history_apply {a : Action} (hequals : a ≠ .equals) (hclear : a ≠ .clearHistory) :
    (s.apply a).history = s.history := by
  by_cases hentry : a.isEntry
  · exact (congrArg history (clear_apply hentry s) :)
  cases a with
  | equals => exact absurd rfl hequals
  | clearHistory => exact absurd rfl hclear
  | toggleAngle => rfl
  | memoryClear => rw [apply]
  | memoryAdd => rcases s.memoryAdd_cases with heq | ⟨v, -, heq⟩ <;> rw [apply, heq]
  | memorySubtract => rcases s.memorySubtract_cases with heq | ⟨v, -, heq⟩ <;> rw [apply, heq]
  | _ => exact absurd rfl hentry

/-- Saving and starting again leaves a history within the limit alone. -/
theorem history_reload (hsize : s.history.size ≤ History.limit) : s.reload.history = s.history := by
  rw [reload, restore_save_eq_new]
  exact congrArg History.mk (List.take_of_length_le hsize)

/-- A step that empties the history leaves none of it. -/
theorem history_advance_of_empties (hx : x.empties) : (s.advance x).history = .empty := by
  rw [advance_of_action? (of_decide_eq_true hx)]
  rfl

/-- **The other steps** leave a history within the limit alone. -/
theorem history_advance (hsize : s.history.size ≤ History.limit)
    (hequals : x.action? ≠ some .equals) (hx : x.empties = false) :
    (s.advance x).history = s.history := by
  rcases s.advance_cases x with ⟨a, ha, hadvance⟩ | ⟨-, hadvance | hadvance⟩ <;> rw [hadvance]
  · refine history_apply (fun h => hequals (h ▸ ha)) fun h => ?_
    exact of_decide_eq_false hx (h ▸ ha)
  · exact history_reload hsize

/-- **An entry after a step** was there before, or the step has committed it. -/
theorem mem_entries_advance {e : Entry} (he : e ∈ (s.advance x).history.entries) :
    e ∈ s.history.entries ∨ s.calculation? = some e := by
  rcases s.advance_cases x with ⟨a, -, hadvance⟩ | ⟨-, hadvance | hadvance⟩ <;> rw [hadvance] at he
  · by_cases hequals : a = .equals
    · rw [hequals, apply, history_equals] at he
      cases hcalculation : s.calculation? with
      | none =>
        rw [hcalculation] at he
        exact .inl he
      | some d =>
        rw [hcalculation] at he
        rcases List.mem_cons.1 (List.mem_of_mem_take he) with rfl | he
        · exact .inr rfl
        · exact .inl he
    by_cases hclear : a = .clearHistory
    · rw [hclear] at he
      cases he
    · rw [history_apply hequals hclear] at he
      exact .inl he
  · exact .inl he
  · rw [reload, restore_save_eq_new] at he
    exact .inl (List.mem_of_mem_take he)

/-! ### One step, and a run -/

/-- **One step** puts its calculation in front and drops what is beyond the limit. -/
theorem entries_advance (hsize : s.history.size ≤ History.limit) (hx : x.empties = false) :
    (s.advance x).history.entries =
      ((s.stepCalculation? x).toList ++ s.history.entries).take History.limit := by
  have hentries : s.history.entries.take History.limit = s.history.entries :=
    List.take_of_length_le hsize
  by_cases hequals : x.action? = some .equals
  · rw [advance_of_action? hequals, apply, history_equals, stepCalculation?, if_pos hequals]
    cases s.calculation? with
    | none => exact hentries.symm
    | some e => rfl
  · rw [history_advance hsize hequals hx, stepCalculation?, if_neg hequals]
    exact hentries.symm

/-- One step keeps the limit. -/
theorem size_advance_le (hsize : s.history.size ≤ History.limit) (x : Step) :
    (s.advance x).history.size ≤ History.limit := by
  cases hx : x.empties with
  | true =>
    rw [history_advance_of_empties hx]
    exact Nat.zero_le _
  | false =>
    rw [History.size, entries_advance hsize hx]
    exact List.length_take_le _ _

/-- **A run** keeps the limit. -/
theorem size_after_le (hsize : s.history.size ≤ History.limit) (steps : List Step) :
    (s.after steps).history.size ≤ History.limit := by
  induction steps generalizing s with
  | nil => exact hsize
  | cons x steps ih => exact ih (size_advance_le hsize x)

/-- **A run** that does not empty the history puts its calculations in front and drops what is
beyond the limit, once for all of them. -/
theorem entries_after (hsize : s.history.size ≤ History.limit)
    (hkeeps : ∀ x ∈ steps, x.empties = false) :
    (s.after steps).history.entries =
      (s.calculations steps ++ s.history.entries).take History.limit := by
  induction steps generalizing s with
  | nil => exact (List.take_of_length_le hsize).symm
  | cons x steps ih =>
    obtain ⟨hx, hkeeps⟩ := List.forall_mem_cons.1 hkeeps
    calc (s.after (x :: steps)).history.entries
      _ = ((s.advance x).calculations steps ++ (s.advance x).history.entries).take
            History.limit := ih (size_advance_le hsize x) hkeeps
      _ = ((s.advance x).calculations steps ++
            ((s.stepCalculation? x).toList ++ s.history.entries)).take History.limit := by
          rw [entries_advance hsize hx, take_append_take]
      _ = (s.calculations (x :: steps) ++ s.history.entries).take History.limit := by
          rw [calculations, List.append_assoc]

/-- A session starts within the limit. -/
theorem Started.size_le (h : s.Started) : s.history.size ≤ History.limit := by
  cases h with
  | new _ hsize => exact hsize
  | restore storage => exact List.length_take_le _ _

/-- What steps do to a history within the limit. -/
theorem records (hsize : s.history.size ≤ History.limit) : s.Records where
  calculation? _ := calculation?_eq_some_iff
  wellFormed _ := wellFormed_of_calculation?
  equals := s.history_equals
  empties _ := history_advance_of_empties
  others _ := history_advance hsize

/-- **The history is the bounded record of the calculations.** From a start of a session, whatever
the steps, it is the twenty most recent of the calculations since it was last emptied, and of those
it had at the start if it never was. In every session on the way only the equals key commits a
calculation, and only one that has a value. -/
theorem history_after (h : s.Started) (steps : List Step) :
    ((∀ x ∈ steps, x.empties = false) →
      (s.after steps).history.entries = (s.calculations steps ++ s.history.entries).take 20) ∧
    (∀ before x rest, steps = before ++ x :: rest → x.empties → (∀ y ∈ rest, y.empties = false) →
      (s.after steps).history.entries =
        ((s.after (before ++ [x])).calculations rest).take 20) ∧
    (s.after steps).Records := by
  have hsize := h.size_le
  refine ⟨fun hkeeps => entries_after hsize hkeeps, ?_, records (size_after_le hsize steps)⟩
  rintro before x rest rfl hx hkeeps
  have hempty : (s.after (before ++ [x])).history = .empty := by
    rw [after, List.foldl_concat]
    exact history_advance_of_empties hx
  have hsplit : s.after (before ++ x :: rest) = (s.after (before ++ [x])).after rest := by
    rw [List.append_cons, after, List.foldl_append]
    rfl
  rw [hsplit, entries_after (size_after_le hsize _) hkeeps, hempty]
  exact congrArg (List.take 20) (List.append_nil _)

/-- What was there at the start is kept until the history is emptied, also when a result is taken up
and when the session is started again. -/
theorem history_after_kept_and_emptied :
    let s := new ⟨[⟨"9-4".toList, ['5']⟩]⟩ .standard
    let before := "1+1=".toList.map .character ++ [.reload, .action (.reuse 1), .key .enter]
    let rest := "/0==6/4*".toList.map .character ++ [.key .enter, .reload]
    s.Started ∧ (∀ x ∈ before, x.empties = false) ∧ (∀ x ∈ rest, x.empties = false) ∧
      (s.after before).history.entries =
        [⟨['5'], ['5']⟩, ⟨"1+1".toList, ['2']⟩, ⟨"9-4".toList, ['5']⟩] ∧
      (s.after (before ++ .action .clearHistory :: rest)).history.entries =
        [⟨"6/4".toList, "1.5".toList⟩] := by
  intro s before rest
  have hstarted : s.Started := .new .standard (by decide)
  have hbefore : ∀ x ∈ before, x.empties = false := by decide +kernel
  have hrest : ∀ x ∈ rest, x.empties = false := by decide +kernel
  refine ⟨hstarted, hbefore, hrest, ?_, ?_⟩
  · rw [(history_after hstarted before).1 hbefore]
    decide +kernel
  · rw [(history_after hstarted _).2.1 before _ rest rfl rfl hrest]
    decide +kernel

end Session
end PocketCalculator
