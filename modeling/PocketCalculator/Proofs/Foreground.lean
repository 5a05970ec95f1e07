/-
# The display and what stands behind it

Three parts of a session are its foreground: the expression and the two flags. The memory, the
history and the preferences stand behind them, and come to the front only through the keys that call
them up:

| key | what it brings to the front |
| --- | --- |
| the recall of the memory | the memory |
| an entry of the history | its result |
| sine, cosine, tangent | the unit of angles |

`Session.foreground` blanks what stands behind. For every other step this commutes with the step
(`Session.foreground_apply`, `Session.foreground_advance`): what is in front afterwards depends on
what was in front before and on nothing else. Two sessions with one foreground therefore keep one
through a run (`Session.foreground_after`), and everything that is displayed or committed is a
function of it (`Session.alike_of_foreground_eq`).
-/

import PocketCalculator.Proofs.Record

namespace PocketCalculator

/-- Whether a function reads its operand as an angle. -/
def UnaryFunction.isCircular : UnaryFunction → Bool
  | .sine | .cosine | .tangent => true
  | _ => false

/-- A function that is not circular has one value in both units. -/
theorem UnaryFunction.apply_eq_apply {f : UnaryFunction} (hf : f.isCircular = false)
    (mode mode' : AngleMode) : f.apply mode = f.apply mode' := by
  funext x
  cases f with
  | sine | cosine | tangent => cases hf
  | squareRoot | square | inverse | percent | opposite => rfl

/-- Whether an action brings nothing to the front that stands behind. -/
def Action.isForeground : Action → Bool
  | .memoryRecall | .reuse _ => false
  | .function f => !f.isCircular
  | _ => true

/-- Whether a step brings nothing to the front that stands behind. -/
def Step.isForeground (x : Step) : Bool := x.action?.all Action.isForeground

namespace Session

/-- A session with no number, no entry and no choice behind its expression and its flags. -/
def foreground (s : Session) : Session :=
  { s with memory := .nan, history := .empty, preferences := .standard }

/-- All that two sessions display is the same, and so is what the equals key would commit. -/
structure Alike (s t : Session) : Prop where
  expression : s.expression = t.expression
  failed : s.failed = t.failed
  evaluated : s.evaluated = t.evaluated
  expressionLine : s.expressionLine = t.expressionLine
  resultLine : s.resultLine = t.resultLine
  activeOperator : s.activeOperator = t.activeOperator
  currentValue? : s.currentValue? = t.currentValue?
  /-- One entry is put in front of both histories, or none in front of either. -/
  committed : ∃ e : Option Entry, s.calculation? = e ∧ t.calculation? = e ∧
    s.equals.history = e.elim s.history s.history.push ∧
      t.equals.history = e.elim t.history t.history.push

variable {s t : Session}

/-! ### What the foreground keeps -/

@[simp] theorem foreground_expression (s : Session) : s.foreground.expression = s.expression := rfl

@[simp] theorem foreground_foreground (s : Session) : s.foreground.foreground = s.foreground := rfl

/-- Foregrounds are equal if the expressions and the two flags are. -/
theorem foreground_eq_iff :
    s.foreground = t.foreground ↔
      s.expression = t.expression ∧ s.failed = t.failed ∧ s.evaluated = t.evaluated := by
  constructor
  · intro h
    exact ⟨(congrArg expression h :), (congrArg failed h :), (congrArg evaluated h :)⟩
  · rintro ⟨hexpression, hfailed, hevaluated⟩
    rw [foreground, foreground, hexpression, hfailed, hevaluated]

/-- Leaving the error state concerns the foreground alone. -/
@[simp] theorem leaveError_foreground (s : Session) :
    s.foreground.leaveError = s.leaveError.foreground := by
  rw [leaveError, leaveError, apply_ite foreground]
  rfl

/-! ### One action -/

/-- A digit key reads the expression and the mark of a result, and writes these alone. -/
theorem foreground_digit (c : Char) (s : Session) :
    (s.digit c).foreground = (s.foreground.digit c).foreground := by
  simp only [digit, leaveError_foreground, apply_ite foreground]
  rfl

/-- So does the point key. The last numeral is part of the expression. -/
theorem foreground_point (s : Session) : s.point.foreground = s.foreground.point.foreground := by
  simp only [point, leaveError_foreground, apply_ite foreground]
  rfl

/-- So does an operator key. The preview is part of the expression. -/
theorem foreground_operator (op : Operator) (s : Session) :
    (s.operator op).foreground = (s.foreground.operator op).foreground := by
  simp only [operator, leaveError_foreground, apply_ite foreground]
  rfl

/-- The delete key cuts off a character, or clears the foreground in the error state. -/
theorem foreground_delete (s : Session) :
    s.delete.foreground = s.foreground.delete.foreground := by
  simp only [delete, apply_ite foreground]
  rfl

/-- A value inserted as a literal joins the expression in the same way wherever it comes from. -/
theorem foreground_insert (v : Binary64) (s : Session) :
    (s.insert v).foreground = (s.foreground.insert v).foreground := by
  simp only [insert, leaveError_foreground]
  rfl

/-- A function key. The angle's unit is all that it reads behind the foreground. -/
theorem foreground_function {f : UnaryFunction} (hf : f.isCircular = false) (s : Session) :
    (s.function f).foreground = (s.foreground.function f).foreground := by
  have hmode := UnaryFunction.apply_eq_apply hf s.leaveError.foreground.preferences.angle
    s.leaveError.preferences.angle
  simp only [function, leaveError_foreground, foreground_expression, hmode]
  split <;> rfl

/-- The equals key. Its entry goes behind the foreground. -/
theorem foreground_equals (s : Session) : s.equals.foreground = s.foreground.equals.foreground := by
  cases hfailed : s.failed with
  | true =>
    rw [equals_of_failed hfailed, equals_of_failed (s := s.foreground) hfailed,
      foreground_foreground]
  | false =>
    cases houtcome : Outcome.ofExpression s.preview with
    | invalid =>
      rw [equals_of_invalid houtcome, equals_of_invalid (s := s.foreground) houtcome,
        foreground_foreground]
    | divisionByZero =>
      rw [equals_of_divisionByZero hfailed houtcome,
        equals_of_divisionByZero (s := s.foreground) hfailed houtcome]
      rfl
    | success v =>
      rw [equals_of_success hfailed houtcome,
        equals_of_success (s := s.foreground) hfailed houtcome]
      rfl

/-- The key that adds to the memory leaves the foreground alone. -/
theorem foreground_memoryAdd (s : Session) : s.memoryAdd.foreground = s.foreground := by
  rcases s.memoryAdd_cases with heq | ⟨v, -, heq⟩ <;> rw [heq]
  rfl

/-- The key that subtracts from the memory leaves the foreground alone. -/
theorem foreground_memorySubtract (s : Session) : s.memorySubtract.foreground = s.foreground := by
  rcases s.memorySubtract_cases with heq | ⟨v, -, heq⟩ <;> rw [heq]
  rfl

/-- **One action** sees the foreground only. -/
theorem foreground_apply {a : Action} (ha : a.isForeground) (s : Session) :
    (s.apply a).foreground = (s.foreground.apply a).foreground := by
  cases a with
  | memoryRecall | reuse i => cases ha
  | digit c => exact foreground_digit c s
  | point => exact foreground_point s
  | operator op => exact foreground_operator op s
  | equals => exact foreground_equals s
  | delete => exact foreground_delete s
  | function f => exact foreground_function (Bool.not_eq_true' _ ▸ ha) s
  | constant c => exact foreground_insert c.value s
  | memoryAdd =>
    simp only [apply, foreground_memoryAdd, foreground_foreground]
  | memorySubtract =>
    simp only [apply, foreground_memorySubtract, foreground_foreground]
  | clear | toggleAngle | memoryClear | clearHistory => rfl

/-! ### Steps and runs -/

/-- **One step** sees the foreground only. -/
theorem foreground_advance {x : Step} (hx : x.isForeground) (s : Session) :
    (s.advance x).foreground = (s.foreground.advance x).foreground := by
  rw [Step.isForeground] at hx
  cases ha : x.action? with
  | some a =>
    rw [ha] at hx
    rw [advance_of_action? ha, advance_of_action? ha]
    exact foreground_apply hx s
  | none =>
    by_cases hreload : x = .reload
    · subst hreload
      -- A new start takes the history and the preferences with it, which stand behind.
      simp only [advance, reload, restore_save_eq_new]
      rfl
    · simp only [advance_of_action?_eq_none ha hreload, foreground_foreground]

/-- **A run** keeps two sessions with one foreground together. -/
theorem foreground_after {steps : List Step} (h : s.foreground = t.foreground)
    (hsteps : ∀ x ∈ steps, x.isForeground) :
    (s.after steps).foreground = (t.after steps).foreground := by
  induction steps generalizing s t with
  | nil => exact h
  | cons x steps ih =>
    obtain ⟨hx, hsteps⟩ := List.forall_mem_cons.1 hsteps
    refine ih ?_ hsteps
    calc (s.advance x).foreground
      _ = (s.foreground.advance x).foreground := foreground_advance hx s
      _ = (t.foreground.advance x).foreground := by rw [h]
      _ = (t.advance x).foreground := (foreground_advance hx t).symm

/-- **The foreground is all that is displayed and committed.** -/
theorem alike_of_foreground_eq (h : s.foreground = t.foreground) : s.Alike t where
  expression := (congrArg Session.expression h :)
  failed := (congrArg Session.failed h :)
  evaluated := (congrArg Session.evaluated h :)
  expressionLine := (congrArg Session.expressionLine h :)
  resultLine := (congrArg Session.resultLine h :)
  activeOperator := (congrArg Session.activeOperator h :)
  currentValue? := (congrArg Session.currentValue? h :)
  committed := by
    have hcalculation : s.calculation? = t.calculation? := (congrArg calculation? h :)
    refine ⟨t.calculation?, hcalculation, rfl, ?_, t.history_equals⟩
    rw [history_equals, hcalculation]

/-- **The display does not depend on the memory, the history or the angle's unit.** Two sessions
that differ only in these are displayed alike after every step of a run, and commit alike, as long
as no step calls one of these up. -/
theorem alike_after {steps before : List Step} (hexpression : s.expression = t.expression)
    (hfailed : s.failed = t.failed) (hevaluated : s.evaluated = t.evaluated)
    (hsteps : ∀ x ∈ steps, x.isForeground) (hbefore : before <+: steps) :
    (s.after before).Alike (t.after before) := by
  refine alike_of_foreground_eq (foreground_after ?_ fun x hx => hsteps x (hbefore.subset hx))
  exact foreground_eq_iff.2 ⟨hexpression, hfailed, hevaluated⟩

/-- A memory that is not finite, a history and the other unit, and a run that acts on all three and
fails in between. -/
theorem alike_after_other_registers :
    let s := new .empty .standard
    let t : Session := ⟨[], false, false, .infinite true, ⟨[⟨"2*3".toList, ['6']⟩]⟩, ⟨.radians⟩⟩
    let steps : List Step := "1/0=16".toList.map .character ++
      [.action .memoryAdd, .action .toggleAngle, .action (.function .squareRoot), .key .enter,
        .action .clearHistory, .action (.constant .pi)]
    (∀ x ∈ steps, x.isForeground) ∧ (s.after steps).memory ≠ (t.after steps).memory ∧
      (s.after steps).Alike (t.after steps) := by
  intro s t steps
  have hsteps : ∀ x ∈ steps, x.isForeground := by decide
  refine ⟨hsteps, by decide +kernel, ?_⟩
  exact alike_after rfl rfl rfl hsteps List.prefix_rfl

end Session
end PocketCalculator
