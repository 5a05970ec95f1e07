/-
# One point in a numeral

An expression that keys build should have no run of digits and points with two points. What a key
does to it:

| key | why no second point comes into a run |
| --- | --- |
| a digit, an operator | it has no point |
| the point | it does nothing where the last numeral has one |
| the equals key, an entry of the history | a shown value has at most one |
| a constant, the memory | behind a run it stands as a factor |
| a function | in place of the last numeral, often behind a sign |

The last line has an exception. A function takes the minus of a subtraction for the sign of its
operand, so that a value without a sign is joined to the numeral before that minus
(`Session.Joins`). One step keeps at most one point in every run just if it joins no two numerals
with points (`Session.onePoint_advance_iff`), and so does a run (`Session.onePoint_after_iff`).
-/

import PocketCalculator.Proofs.DigitRuns
import PocketCalculator.Proofs.ErrorState

namespace PocketCalculator

open Text

namespace Session

variable {s : Session} {a : Action} {x : Step} {f : UnaryFunction}

/-- A function key that joins two numerals with points. -/
inductive Joins (s : Session) (x : Step) : Prop
  | function {f : UnaryFunction} {before run : Text} {v : Binary64}
      (hx : x.action? = some (.function f))
      (hjoins : Edit.Joins (f.apply s.preferences.angle) s.expression before run v)

/-- What every step keeps, whatever the expression is. -/
structure Kept (s : Session) : Prop where
  clean : s.Clean
  size : s.history.size ≤ History.limit
  results : ∀ e ∈ s.history.entries, OnePoint e.result

/-- A session begins with no entry and no error. -/
theorem Kept.new (preferences : Preferences) : (new .empty preferences).Kept :=
  ⟨.of_not_failed rfl, Nat.zero_le _, fun _ he => nomatch he⟩

/-- **One step** keeps this: what the equals key enters is a shown value. -/
theorem Kept.advance (h : s.Kept) (x : Step) : (s.advance x).Kept := by
  refine ⟨h.clean.advance x, size_advance_le h.size x, fun e he => ?_⟩
  rcases mem_entries_advance he with he | hcalculation
  · exact h.results e he
  · obtain ⟨-, v, -, rfl⟩ := calculation?_eq_some_iff.1 hcalculation
    exact Display.onePoint_text v

/-- Leaving an error that is clean leaves the expression alone. -/
theorem expression_leaveError (h : s.Clean) : s.leaveError.expression = s.expression := by
  cases hfailed : s.failed with
  | true => rw [leaveError_of_failed hfailed, (h hfailed).1, clear]
  | false => rw [leaveError_of_not_failed hfailed]

/-- Leaving the error state does not concern the preferences. -/
theorem preferences_leaveError (s : Session) : s.leaveError.preferences = s.preferences :=
  (congrArg preferences s.clear_leaveError :)

/-- A character that is no point adds none. -/
theorem onePoint_concat {t : Text} {c : Char} (h : OnePoint t) (hc : c ≠ '.') :
    OnePoint (t ++ [c]) := by
  rw [onePoint_append_iff]
  refine ⟨h, .of_count (by simp [hc]), fun _ hmem => hc ?_⟩
  exact (List.mem_singleton.1 ((List.takeWhile_prefix _).subset hmem)).symm

/-! ### Keys -/

/-- A digit key. A digit is no point, alone or behind what there is. -/
theorem onePoint_digit (hclean : s.Clean) (h : OnePoint s.expression) (c : Char) :
    OnePoint (s.digit c).expression := by
  rw [digit]
  split
  · rename_i hc
    have hne : c ≠ '.' := Display.ne_point_of_isDigit hc
    dsimp only
    split
    · exact onePoint_concat .nil hne
    · exact onePoint_concat (expression_leaveError hclean ▸ h) hne
  · exact h

/-- The point key. Behind an operator no run goes on, and elsewhere the last numeral shows whether
the last run has a point. -/
theorem onePoint_point (hclean : s.Clean) (h : OnePoint s.expression) :
    OnePoint s.point.expression := by
  rw [← expression_leaveError hclean] at h
  have hstart : OnePoint ['0', '.'] := .of_count (by decide)
  rw [point]
  split
  · exact hstart
  split
  · rename_i hall
    have hrun : lastRun s.leaveError.expression = [] := lastRun_eq_nil fun c hc => by
      rw [Option.mem_def.1 hc] at hall
      by_contra hbody
      rw [Option.all_some, isOperator_of_isBodyChar (by simpa using hbody)] at hall
      cases hall
    rw [onePoint_append_iff, hrun]
    exact ⟨h, hstart, fun hmem => absurd hmem List.not_mem_nil⟩
  split
  · exact h
  · rename_i hpoint
    rw [onePoint_append_iff]
    exact ⟨h, .of_count (by decide), fun hmem => absurd (Edit.mem_lastNumeral h hmem) hpoint⟩

/-- The preview is a beginning of the expression. -/
theorem onePoint_preview (h : OnePoint s.expression) : OnePoint s.preview :=
  h.of_infix (Edit.preview_isPrefix _).isInfix

/-- An operator key. It ends the last run, if it is written at all. -/
theorem onePoint_operator (hclean : s.Clean) (h : OnePoint s.expression) (op : Operator) :
    OnePoint (s.operator op).expression := by
  have hne : op.symbol ≠ '.' := by cases op <;> decide
  rw [← expression_leaveError hclean] at h
  have hpreview : OnePoint s.leaveError.preview := onePoint_preview h
  rw [operator]
  dsimp only
  split_ifs
  · exact h
  · exact h
  · exact onePoint_concat h hne
  · exact .nil
  · exact onePoint_concat hpreview hne
  · exact onePoint_concat h hne

/-- The equals key, which writes a shown value or nothing. -/
theorem onePoint_equals (h : OnePoint s.expression) : OnePoint s.equals.expression := by
  rcases s.equals_cases with ⟨v, -, -, heq⟩ | ⟨-, heq | heq⟩ <;> rw [heq]
  · exact Display.onePoint_text v
  · exact .nil
  · exact h

/-- The delete key. What is left is a beginning of the expression. -/
theorem onePoint_delete (h : OnePoint s.expression) : OnePoint s.delete.expression := by
  rw [delete]
  split_ifs
  · exact .nil
  · exact h
  · exact h.of_infix (List.dropLast_prefix _).isInfix

/-- A value inserted as a literal. Behind a numeral a `*` keeps the two apart. -/
theorem onePoint_insert (hclean : s.Clean) (h : OnePoint s.expression) (v : Binary64) :
    OnePoint (s.insert v).expression := by
  rw [insert]
  dsimp only
  split
  · exact Edit.onePoint_insertLiteral .nil v
  · exact Edit.onePoint_insertLiteral (expression_leaveError hclean ▸ h) v

/-- Reusing an entry, whose result is a shown value. -/
theorem onePoint_reuse (hkept : s.Kept) (h : OnePoint s.expression) (i : ℕ) :
    OnePoint (s.reuse i).expression := by
  rw [reuse]
  split
  · rename_i e he
    exact hkept.results e (List.mem_of_getElem? he)
  · exact h

/-- **A function key** keeps one point in every run just if it does not join two numerals. -/
theorem onePoint_function_iff (hclean : s.Clean) (h : OnePoint s.expression)
    (hx : x.action? = some (.function f)) : OnePoint (s.function f).expression ↔ ¬ s.Joins x := by
  rw [function, expression_leaveError hclean, preferences_leaveError]
  constructor
  · rintro hfunction ⟨hx', hjoins⟩
    obtain rfl := Action.function.inj (Option.some.inj (hx.symm.trans hx'))
    rw [Edit.applyFunction_of_joins h hjoins] at hfunction
    exact (onePoint_append_iff.1 hfunction).2.2 hjoins.left hjoins.right
  · intro hnot
    split
    · rename_i applied happly
      rcases Edit.onePoint_applyFunction h happly with hpoint | ⟨before, run, v, hjoins⟩
      · exact hpoint
      · exact absurd (.function hx hjoins) hnot
    · exact .nil

/-- **The other actions** keep one point in every run. -/
theorem onePoint_apply (hkept : s.Kept) (h : OnePoint s.expression)
    (ha : ∀ f, a ≠ .function f) : OnePoint (s.apply a).expression := by
  cases a with
  | function f => exact absurd rfl (ha f)
  | digit c => exact onePoint_digit hkept.clean h c
  | point => exact onePoint_point hkept.clean h
  | operator op => exact onePoint_operator hkept.clean h op
  | equals => exact onePoint_equals h
  | clear => exact .nil
  | delete => exact onePoint_delete h
  | constant c => exact onePoint_insert hkept.clean h c.value
  | memoryRecall => exact onePoint_insert hkept.clean h s.memory
  | memoryAdd => rcases s.memoryAdd_cases with heq | ⟨v, -, heq⟩ <;> rwa [apply, heq]
  | memorySubtract => rcases s.memorySubtract_cases with heq | ⟨v, -, heq⟩ <;> rwa [apply, heq]
  | reuse i => exact onePoint_reuse hkept h i
  | toggleAngle | clearHistory => exact h
  | memoryClear =>
    rw [apply]
    exact h

/-- **One step** keeps one point in every run just if it does not join two numerals. -/
theorem onePoint_advance_iff (hkept : s.Kept) (h : OnePoint s.expression) (x : Step) :
    OnePoint (s.advance x).expression ↔ ¬ s.Joins x := by
  by_cases hfunction : ∃ f, x.action? = some (.function f)
  · obtain ⟨f, hx⟩ := hfunction
    rw [advance_of_action? hx]
    exact onePoint_function_iff hkept.clean h hx
  · refine iff_of_true ?_ fun ⟨hx, _⟩ => hfunction ⟨_, hx⟩
    rcases s.advance_cases x with ⟨a, ha, hadvance⟩ | ⟨-, hadvance | hadvance⟩ <;> rw [hadvance]
    · exact onePoint_apply hkept h fun f hf => hfunction ⟨f, hf ▸ ha⟩
    · exact h
    · rw [reload, restore_save_eq_new]
      exact .nil

/-- **A run** keeps one point in every run of digits just as long as no step joins two numerals. -/
theorem onePoint_run_iff {steps : List Step} (hkept : s.Kept) (h : OnePoint s.expression) :
    (∀ before, before <+: steps → OnePoint (s.after before).expression) ↔
      ∀ before x, before ++ [x] <+: steps → ¬ (s.after before).Joins x := by
  -- In both directions the first step joins nothing, so that the rest is a run from an expression
  -- with one point in every run.
  induction steps generalizing s with
  | nil =>
    refine iff_of_true (fun before hbefore => ?_) fun before x hbefore => ?_
    · rw [List.prefix_nil.1 hbefore]
      exact h
    · exact absurd (List.prefix_nil.1 hbefore) (by simp)
  | cons x steps ih =>
    have hstep := onePoint_advance_iff hkept h x
    constructor
    · intro hall before y hbefore
      have hx : ¬ s.Joins x := hstep.1 (hall [x] (by simp))
      cases before with
      | nil =>
        obtain ⟨rfl, -⟩ := List.cons_prefix_cons.1 hbefore
        exact hx
      | cons z before =>
        obtain ⟨rfl, htail⟩ := List.cons_prefix_cons.1 hbefore
        refine (ih (hkept.advance z) (hstep.2 hx)).1 (fun rest hrest => ?_) before y htail
        exact hall (z :: rest) (List.cons_prefix_cons.2 ⟨rfl, hrest⟩)
    · intro hall before hbefore
      have hx : ¬ s.Joins x := hall [] x (by simp)
      cases before with
      | nil => exact h
      | cons z before =>
        obtain ⟨rfl, htail⟩ := List.cons_prefix_cons.1 hbefore
        refine (ih (hkept.advance z) (hstep.2 hx)).2 (fun rest y hrest => ?_) before htail
        exact hall (z :: rest) y (List.cons_prefix_cons.2 ⟨rfl, hrest⟩)

/-- **An expression has at most one point in every run** of digits and points, from a fresh start on
and whatever the steps, just as long as no function key joins two numerals with points. -/
theorem onePoint_after_iff (preferences : Preferences) (steps : List Step) :
    let s := new .empty preferences
    (∀ before, before <+: steps → OnePoint (s.after before).expression) ↔
      ∀ before x, before ++ [x] <+: steps → ¬ (s.after before).Joins x :=
  onePoint_run_iff (.new preferences) .nil

/-- The square of what looks like a negative number: the minus of a difference is taken for its
sign, and the square is joined to the number before it. -/
theorem onePoint_after_iff_difference :
    let start := new .empty .standard
    let steps := "1.5-1.5".toList.map .character ++ [.action (.function .square)]
    (start.after steps).expression = "1.52.25".toList ∧
      ¬ OnePoint (start.after steps).expression ∧
        ∃ before x, before ++ [x] <+: steps ∧ (start.after before).Joins x := by
  intro start steps
  have hexpression : (start.after steps).expression = "1.52.25".toList := by decide +kernel
  have hnot : ¬ OnePoint (start.after steps).expression := by
    rw [hexpression]
    intro h
    exact absurd (h _ List.infix_rfl (List.all_eq_true.1 (by decide))) (by decide)
  have hjoins := mt (onePoint_after_iff .standard steps).2 fun h => hnot (h steps List.prefix_rfl)
  push Not at hjoins
  exact ⟨hexpression, hnot, hjoins⟩

end Session
end PocketCalculator
