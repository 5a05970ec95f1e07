/-
# What is written into the expression

Four keys write numbers into the expression, as they are shown, and each has a guard of its own that
the number is finite:

| key | number | guard |
| --- | --- | --- |
| the equals key | the value of the preview | an evaluation has a finite value or none |
| a function | its value at the last numeral | it fails without a finite value |
| the memory | what it holds | it is not changed without a finite value |
| an entry of the history | its result | it was committed by the equals key |

Together with a constant they do the same to an expression: a beginning is kept, characters are
typed behind it, and perhaps a finite value is written there (`Edit.Rewrites`). A session therefore
keeps three things at once (`Session.Written`): the memory is finite, the results of the history are
finite values, and the expression has the characters that keys and finite values write, which leaves
no room for `Error` (`Text.Written.not_infix_errorText`).
-/

import PocketCalculator.Proofs.DigitRuns
import PocketCalculator.Proofs.Record

namespace PocketCalculator

namespace Text

/-- A text of the characters that are typed or stand in a finite value. -/
def Written (t : Text) : Prop := ∀ c ∈ t, isSignificant c ∨ c = 'e'

variable {s t : Text}

/-- An empty text has no other character. -/
theorem Written.nil : Written [] := fun _ hc => absurd hc List.not_mem_nil

/-- Two written texts, one behind the other, are written. -/
theorem Written.append (hs : s.Written) (ht : t.Written) : (s ++ t).Written :=
  List.forall_mem_append.2 ⟨hs, ht⟩

/-- The beginning of a written text is written. -/
theorem Written.of_isPrefix (ht : t.Written) (h : s <+: t) : s.Written := fun c hc =>
  ht c (h.subset hc)

/-- What the scanner does not pass over is written. -/
theorem Written.of_significant (ht : ∀ c ∈ t, isSignificant c) : t.Written := fun c hc =>
  .inl (ht c hc)

/-- `Error` begins with a character that is not written. -/
theorem Written.not_infix_errorText (ht : t.Written) : ¬ Display.errorText <:+: t := by
  intro hinfix
  have hmem : 'E' ∈ t := hinfix.subset (by decide)
  exact absurd (ht _ hmem) (by decide)

end Text

namespace Display

open Scientific

/-- The scanner passes over no character of a plain text. -/
theorem isSignificant_of_mem_plain {negative : Bool} {whole : Text} {fraction : Option Text}
    (h : Numeral.Digits whole fraction) {c : Char}
    (hc : c ∈ Numeral.plain negative whole fraction) : isSignificant c :=
  List.filter_eq_self.1 (Numeral.spelled_plain h).1.filter_isSignificant c hc

/-- **A finite value** is shown with a sign, digits, a point and an exponent, and nothing else. -/
theorem written_text {v : Binary64} (hv : v.isFinite) : (text v).Written := by
  by_cases he : 'e' ∈ text v
  · obtain ⟨negative, n, z, htext, hexponential, -⟩ := exists_exponential_of_mem hv he
    have hexponent : ∀ c ∈ Text.ofNat (written n z).exponent.natAbs, isSignificant c := by
      intro c hc
      simp [isSignificant, Numeral.isBodyChar, Text.isDigit_of_mem_ofNat hc]
    have hsign : isSignificant (exponentOperator (written n z).exponent).symbol := by
      simp [isSignificant, isOperator_symbol]
    rw [htext, exponential_eq_plain negative hexponential.digits.1]
    refine .append (.of_significant fun c hc => ?_) (List.forall_mem_cons.2 ⟨.inr rfl, ?_⟩)
    · exact isSignificant_of_mem_plain (digits_leading n) hc
    · exact Text.Written.of_significant (List.forall_mem_cons.2 ⟨hsign, hexponent⟩)
  · obtain ⟨negative, whole, fraction, hdigits, htext⟩ := exists_plain hv he
    rw [htext]
    exact .of_significant fun c hc => isSignificant_of_mem_plain hdigits hc

end Display

/-- An empty memory is finite. -/
theorem Binary64.isFinite_zero : (0 : Binary64).isFinite := by decide +kernel

/-- A constant is finite. -/
theorem Constant.isFinite_value (c : Constant) : c.value.isFinite := by
  cases c <;> decide +kernel

namespace Edit

/-- What a key makes of an expression: a beginning is kept, characters are typed behind it, and a
finite value may be written behind these. -/
inductive Rewrites (e : Text) : Text → Prop
  | typed {kept added : Text} (hkept : kept <+: e) (hadded : ∀ c ∈ added, isSignificant c) :
      Rewrites e (kept ++ added)
  | shown {kept added : Text} {v : Binary64} (hkept : kept <+: e)
      (hadded : ∀ c ∈ added, isSignificant c) (hv : v.isFinite) :
      Rewrites e (kept ++ added ++ Display.text v)

variable {e e' t : Text} {v : Binary64}

namespace Rewrites

/-- **What a key makes of a written expression** is written. -/
theorem written (h : Rewrites e t) (he : e.Written) : t.Written := by
  cases h with
  | typed hkept hadded => exact (he.of_isPrefix hkept).append (.of_significant hadded)
  | shown hkept hadded hv =>
    exact ((he.of_isPrefix hkept).append (.of_significant hadded)).append (Display.written_text hv)

/-- What is kept of a beginning is kept of the whole. -/
theorem of_isPrefix (h : Rewrites e t) (he : e <+: e') : Rewrites e' t := by
  cases h with
  | typed hkept hadded => exact .typed (hkept.trans he) hadded
  | shown hkept hadded hv => exact .shown (hkept.trans he) hadded hv

/-- A key may keep a beginning of the expression. -/
theorem keep (h : t <+: e) : Rewrites e t := by
  have htyped : Rewrites e (t ++ []) := .typed h fun _ hc => absurd hc List.not_mem_nil
  rwa [List.append_nil] at htyped

/-- It may keep all of it. -/
theorem refl (e : Text) : Rewrites e e := .keep List.prefix_rfl

/-- It may keep nothing. -/
theorem nil (e : Text) : Rewrites e [] := .keep List.nil_prefix

/-- It may write a value behind what it keeps. -/
theorem behind (h : t <+: e) (hv : v.isFinite) : Rewrites e (t ++ Display.text v) := by
  have hshown : Rewrites e (t ++ [] ++ Display.text v) :=
    .shown h (fun _ hc => absurd hc List.not_mem_nil) hv
  rwa [List.append_nil] at hshown

/-- It may write a value in place of the expression. -/
theorem value (e : Text) (v : Binary64) (hv : v.isFinite) : Rewrites e (Display.text v) := by
  have hshown : Rewrites e ([] ++ Display.text v) := behind List.nil_prefix hv
  rwa [List.nil_append] at hshown

/-- It may type a digit behind what it keeps. -/
theorem digit (h : t <+: e) {c : Char} (hc : c.isDigit) : Rewrites e (t ++ [c]) := by
  refine .typed h (List.forall_mem_singleton.2 ?_)
  simp [isSignificant, Numeral.isBodyChar, hc]

/-- It may type an operator behind what it keeps. -/
theorem symbol (h : t <+: e) (op : Operator) : Rewrites e (t ++ [op.symbol]) := by
  refine .typed h (List.forall_mem_singleton.2 ?_)
  simp [isSignificant, isOperator_symbol]

end Rewrites

/-- A value is inserted behind the expression, or behind it and a `*`. -/
theorem rewrites_insertLiteral (e : Text) (hv : v.isFinite) : Rewrites e (insertLiteral e v) := by
  rw [insertLiteral]
  cases e.getLast? with
  | none => exact .value e v hv
  | some c =>
    dsimp only
    split
    · have hshown : Rewrites e (e ++ ['*'] ++ Display.text v) :=
        .shown List.prefix_rfl (List.forall_mem_singleton.2 rfl) hv
      rwa [List.append_assoc] at hshown
    · exact .behind List.prefix_rfl hv

/-- A function writes its value behind what is before the last numeral, or alone. -/
theorem rewrites_applyFunction {f : Binary64 → Binary64} {applied : Applied}
    (h : applyFunction f e = .ok applied) : Rewrites e applied.expression := by
  obtain ⟨hfinite, halone | ⟨-, x, -, -, hreplaced⟩⟩ := applyFunction_cases h
  · rw [halone]
    exact .value e _ hfinite
  · obtain ⟨kept, hkept, heq⟩ :=
      exists_prefix_replaceLastNumeral e (Display.text applied.value)
    rw [hreplaced, heq]
    exact .behind hkept hfinite

end Edit

open Edit (Rewrites)

namespace Session

variable {s : Session}

/-- What the memory, the history and the expression keep together: numbers that are written are
finite. -/
structure Written (s : Session) : Prop where
  memory : s.memory.isFinite
  expression : s.expression.Written
  entries : ∀ e ∈ s.history.entries,
    e.expression.Written ∧ ∃ v, v.isFinite ∧ e.result = Display.text v

/-- A session begins with nothing written and an empty memory. -/
theorem Written.new (preferences : Preferences) : (new .empty preferences).Written :=
  ⟨Binary64.isFinite_zero, .nil, fun _ he => nomatch he⟩

/-! ### The memory -/

/-- **Every action** keeps the memory finite. Only its own keys change it, and they put finite
numbers into it. -/
theorem isFinite_memory_apply (h : s.memory.isFinite) (a : Action) :
    (s.apply a).memory.isFinite := by
  by_cases hentry : a.isEntry
  · have hmemory : (s.apply a).memory = s.memory := (congrArg memory (clear_apply hentry s) :)
    rwa [hmemory]
  cases a with
  | toggleAngle | clearHistory => exact h
  | memoryClear => exact Binary64.isFinite_zero
  | equals =>
    rcases s.equals_cases with ⟨v, -, -, heq⟩ | ⟨-, heq | heq⟩ <;> rw [apply, heq] <;> exact h
  | memoryAdd =>
    rcases s.memoryAdd_cases with heq | ⟨v, hv, heq⟩ <;> rw [apply, heq]
    · exact h
    · exact hv
  | memorySubtract =>
    rcases s.memorySubtract_cases with heq | ⟨v, hv, heq⟩ <;> rw [apply, heq]
    · exact h
    · exact hv
  | _ => exact absurd rfl hentry

/-! ### The expression -/

/-- Leaving the error state keeps the expression or clears it. -/
theorem prefix_leaveError (s : Session) : s.leaveError.expression <+: s.expression := by
  rw [leaveError]
  split
  · exact List.nil_prefix
  · exact List.prefix_rfl

/-- A digit key types its digit, alone or behind the expression. -/
theorem rewrites_digit (c : Char) (s : Session) : Rewrites s.expression (s.digit c).expression := by
  rw [digit]
  split
  · rename_i hc
    dsimp only
    split
    · exact .digit List.nil_prefix hc
    · exact .digit s.prefix_leaveError hc
  · exact .refl _

/-- The point key types `0.` or a point, or does nothing. -/
theorem rewrites_point (s : Session) : Rewrites s.expression s.point.expression := by
  have hleft := s.prefix_leaveError
  have hstart : ∀ c ∈ ['0', '.'], isSignificant c := List.all_eq_true.1 rfl
  rw [point]
  split_ifs
  · exact .typed List.nil_prefix hstart
  · exact .typed hleft hstart
  · exact .keep hleft
  · exact .typed hleft (List.forall_mem_singleton.2 rfl)

/-- An operator key types its symbol behind a beginning of the expression, or keeps one. -/
theorem rewrites_operator (op : Operator) (s : Session) :
    Rewrites s.expression (s.operator op).expression := by
  have hleft := s.prefix_leaveError
  have hpreview : s.leaveError.preview <+: s.expression := (Edit.preview_isPrefix _).trans hleft
  rw [operator]
  dsimp only
  split_ifs
  · exact .keep hleft
  · exact .keep hleft
  · exact .symbol hleft op
  · exact .nil _
  · exact .symbol hpreview op
  · exact .symbol hleft op

/-- The equals key writes a value, clears the expression at an error, or does nothing. -/
theorem rewrites_equals (s : Session) : Rewrites s.expression s.equals.expression := by
  rcases s.equals_cases with ⟨v, hv, -, heq⟩ | ⟨-, heq | heq⟩ <;> rw [heq]
  · exact .value _ v hv
  · exact .nil _
  · exact .refl _

/-- The delete key keeps a beginning of the expression. -/
theorem rewrites_delete (s : Session) : Rewrites s.expression s.delete.expression := by
  rw [delete]
  split_ifs
  · exact .nil _
  · exact .refl _
  · exact .keep (List.dropLast_prefix _)

/-- A function key writes its value behind a beginning of the expression, or clears it. -/
theorem rewrites_function (f : UnaryFunction) (s : Session) :
    Rewrites s.expression (s.function f).expression := by
  rw [function]
  split
  · rename_i applied happly
    exact (Edit.rewrites_applyFunction happly).of_isPrefix s.prefix_leaveError
  · exact .nil _

/-- A value inserted as a literal stands alone in place of a result, or behind the expression. -/
theorem rewrites_insert {v : Binary64} (hv : v.isFinite) (s : Session) :
    Rewrites s.expression (s.insert v).expression := by
  have hbase : (if s.leaveError.evaluated then [] else s.leaveError.expression) <+:
      s.expression := by
    split
    · exact List.nil_prefix
    · exact s.prefix_leaveError
  exact (Edit.rewrites_insertLiteral _ hv).of_isPrefix hbase

/-- Reusing an entry, whose result is a finite value. -/
theorem rewrites_reuse (h : s.Written) (i : ℕ) :
    Rewrites s.expression (s.reuse i).expression := by
  rw [reuse]
  split
  · rename_i e he
    obtain ⟨-, v, hv, hresult⟩ := h.entries e (List.mem_of_getElem? he)
    rw [hresult]
    exact .value _ v hv
  · exact .refl _

/-- **What every action makes of the expression.** -/
theorem rewrites_apply (h : s.Written) (a : Action) :
    Rewrites s.expression (s.apply a).expression := by
  cases a with
  | digit c => exact rewrites_digit c s
  | point => exact s.rewrites_point
  | operator op => exact rewrites_operator op s
  | equals => exact s.rewrites_equals
  | clear => exact .nil _
  | delete => exact s.rewrites_delete
  | function f => exact rewrites_function f s
  | constant c => exact rewrites_insert c.isFinite_value s
  | memoryRecall => exact rewrites_insert h.memory s
  | reuse i => exact rewrites_reuse h i
  | toggleAngle | clearHistory => exact .refl _
  | memoryClear =>
    rw [apply]
    exact .refl s.expression
  | memoryAdd =>
    rcases s.memoryAdd_cases with heq | ⟨v, -, heq⟩ <;> rw [apply, heq] <;>
      exact .refl s.expression
  | memorySubtract =>
    rcases s.memorySubtract_cases with heq | ⟨v, -, heq⟩ <;> rw [apply, heq] <;>
      exact .refl s.expression

/-! ### Steps and runs -/

/-- **One step** keeps what is written. -/
theorem Written.advance (h : s.Written) (x : Step) : (s.advance x).Written := by
  have hentries : ∀ e ∈ (s.advance x).history.entries,
      e.expression.Written ∧ ∃ v, v.isFinite ∧ e.result = Display.text v := by
    intro e he
    rcases mem_entries_advance he with he | hcalculation
    · exact h.entries e he
    · obtain ⟨-, v, houtcome, rfl⟩ := calculation?_eq_some_iff.1 hcalculation
      have hv : v.isFinite := Evaluation.isFinite_of_evaluate (Outcome.evaluate_of_success houtcome)
      exact ⟨h.expression.of_isPrefix (Edit.preview_isPrefix _), v, hv, rfl⟩
  refine ⟨?_, ?_, hentries⟩ <;>
    rcases s.advance_cases x with ⟨a, -, hadvance⟩ | ⟨-, hadvance | hadvance⟩ <;> rw [hadvance]
  · exact isFinite_memory_apply h.memory a
  · exact h.memory
  · rw [reload, restore_save_eq_new]
    exact Binary64.isFinite_zero
  · exact (rewrites_apply h a).written h.expression
  · exact h.expression
  · rw [reload, restore_save_eq_new]
    exact .nil

/-- **A run** keeps what is written finite, and the expression written. -/
theorem Written.after (h : s.Written) (steps : List Step) : (s.after steps).Written := by
  induction steps generalizing s with
  | nil => exact h
  | cons x steps ih => exact ih (h.advance x)

/-- **Only finite numbers are written.** From a fresh start and whatever the steps, the memory is
finite, the expression has no character but digits, points, operators and the `e` of an exponent, so
that it never has `Error` in it, and every result of the history is a finite value as it is shown. -/
theorem written_after (preferences : Preferences) (steps : List Step) :
    let s := (new .empty preferences).after steps
    s.memory.isFinite ∧ (∀ c ∈ s.expression, isSignificant c ∨ c = 'e') ∧
      ¬ Display.errorText <:+: s.expression ∧
        ∀ e ∈ s.history.entries, ∃ v, v.isFinite ∧ e.result = Display.text v := by
  intro s
  have hwritten : s.Written := (Written.new preferences).after steps
  exact ⟨hwritten.memory, hwritten.expression, hwritten.expression.not_infix_errorText,
    fun e he => (hwritten.entries e he).2⟩

end Session
end PocketCalculator
