/-
# The first fault decides

Which error an expression has can be told from its tokens without any arithmetic. A numeral may be
at fault in two ways:

| fault | when | error |
| --- | --- | --- |
| `noDigit` | the numeral has no digit | `malformedNumeral` |
| `zeroDivisor` | a `/` stands right before it, and it is a zero of either sign | `divisionByZero` |

The first numeral with a fault, from left to right, decides the error; without a fault the
expression has a finite value or `nonFiniteResult`. A divisor is always a single numeral, and it is
divided by before the next numeral is read: that is what the two levels of
`TwoLevel.Expression.value` say, along which the induction goes. Each lemma leaves open what
follows, as the tokens that are still to come and the evaluation that goes on with them.

`Evaluation.evaluate_classified` is the result for every text.
-/

import PocketCalculator.Proofs.PlainText
import PocketCalculator.Proofs.TwoLevel

namespace PocketCalculator

namespace Numeral

/-- Every text is a minus, or no sign, and the rest. -/
theorem exists_sign (t : Text) : ∃ negative, t = Display.signText negative ++ unsigned t := by
  unfold unsigned
  split
  · exact ⟨true, rfl⟩
  · exact ⟨false, rfl⟩

/-- A spelled numeral is a sign, digits, and perhaps a point with digits behind it. -/
theorem Spelled.exists_plain {t : Text} (ht : Spelled t) :
    ∃ negative whole fraction, t = plain negative whole fraction ∧ (∀ c ∈ whole, c.isDigit) ∧
      (∀ c ∈ fraction.getD [], c.isDigit) ∧ (whole = [] → fraction.isSome) := by
  obtain ⟨⟨hbody, hcount⟩, hne⟩ := ht
  obtain ⟨negative, hsign⟩ := exists_sign t
  rw [hsign]
  generalize unsigned t = u at hbody hcount hne
  have hsplit := List.takeWhile_append_dropWhile (p := Char.isDigit) (l := u)
  have hwhole : ∀ c ∈ u.takeWhile Char.isDigit, c.isDigit := fun c hc =>
    List.mem_takeWhile_imp hc
  cases hrest : u.dropWhile Char.isDigit with
  | nil =>
    rw [hrest, List.append_nil] at hsplit
    exact ⟨negative, u, none, by simp [plain], hsplit ▸ hwhole, by simp, fun h => absurd h hne⟩
  | cons c fraction =>
    have hc : c.isDigit = false := by
      have := List.head?_dropWhile_not Char.isDigit u
      rw [hrest] at this
      simpa using this
    rw [hrest] at hsplit
    rw [← hsplit, List.count_append] at hcount
    have hmem : ∀ d ∈ c :: fraction, isBodyChar d := fun d hd =>
      hbody d (hsplit ▸ List.mem_append_right _ hd)
    obtain rfl : c = '.' := by simpa [isBodyChar, hc] using hmem c List.mem_cons_self
    rw [List.count_cons_self] at hcount
    have hpoint : '.' ∉ fraction := List.count_eq_zero.1 (by omega)
    refine ⟨negative, u.takeWhile Char.isDigit, some fraction, by simp [plain, hsplit], hwhole,
      fun d hd => ?_, fun _ => rfl⟩
    have hd' := hmem d (List.mem_cons_of_mem _ hd)
    have hne : d ≠ '.' := by rintro rfl; exact hpoint hd
    simpa [isBodyChar, hne] using hd'

/-- A numeral that begins with its point is read unless nothing stands behind the point. -/
theorem read_point {fraction : Text} (negative : Bool) (h : ∀ c ∈ fraction, c.isDigit) :
    (read (plain negative [] (some fraction))).isSome ↔ fraction ≠ [] := by
  have hpoint : ¬ '.'.isDigit := by decide
  have hsign : splitSign (plain negative [] (some fraction)) = (negative, '.' :: fraction) := by
    cases negative <;> rfl
  have hsplit : splitDecimal ('.' :: fraction) = ([], fraction, []) := by
    rw [splitDecimal, List.takeWhile_cons_of_neg hpoint, List.dropWhile_cons_of_neg hpoint]
    simp only [List.takeWhile_eq_self_iff.2 h, List.dropWhile_eq_nil_iff.2 h]
  have hword : ∀ word : Text, word.head? ≠ some '.' →
      ('.' :: fraction).map Char.toLower ≠ word := by
    rintro word hword rfl
    exact hword rfl
  rw [read, hsign]
  simp only [hword "inf".toList (by decide), hword "infinity".toList (by decide),
    hword "nan".toList (by decide), or_self, if_false, readDecimal, hsplit, true_and]
  split
  · rename_i hnil
    simp [hnil]
  · rename_i hne
    simp [readExponent, hne]

/-- **A spelled numeral can be read** just if it has a digit. -/
theorem Spelled.isSome_read_iff {t : Text} (ht : Spelled t) :
    (read t).isSome ↔ t.any Char.isDigit := by
  obtain ⟨negative, whole, fraction, rfl, hwhole, hfraction, hpoint⟩ := ht.exists_plain
  rcases whole with _ | ⟨c, whole⟩
  · obtain ⟨fraction, rfl⟩ := Option.isSome_iff_exists.1 (hpoint rfl)
    replace hfraction : ∀ c ∈ fraction, c.isDigit := hfraction
    rw [read_point negative hfraction]
    cases fraction with
    | nil => cases negative <;> decide
    | cons d fraction =>
      have hd : d.isDigit := hfraction d List.mem_cons_self
      simp [plain, hd]
  · have hc : c.isDigit := hwhole c List.mem_cons_self
    have hdigits : Digits (c :: whole) fraction := ⟨by simp, hwhole, hfraction⟩
    rw [read_plain hdigits]
    simp [plain, hc]

end Numeral

/-- What can be wrong with a numeral where it stands. -/
inductive Fault where
  | noDigit
  | zeroDivisor
  deriving DecidableEq

/-- The numerals among tokens, each with the operator right before it; `before` stands before the
first token. -/
def Token.numerals (before : Option Operator) : List Token → List (Option Operator × Text)
  | [] => []
  | .numeral t :: rest => (before, t) :: numerals none rest
  | .operator op :: rest => numerals (some op) rest

namespace Fault

/-- What is wrong with a numeral behind an operator. -/
def of? (before : Option Operator) (t : Text) : Option Fault :=
  if ¬ t.any Char.isDigit then some .noDigit
  else if before = some .divide ∧ (Numeral.read t).any Binary64.isZero then some .zeroDivisor
  else none

/-- What is wrong with the first numeral, from left to right, that something is wrong with. -/
def first? (before : Option Operator) (tokens : List Token) : Option Fault :=
  (Token.numerals before tokens).findSome? fun (before, t) => of? before t

/-- A fault has its error; without a fault the result is as `clear` says. -/
def Decides {α : Type} (clear : Except EvalError α → Prop) :
    Option Fault → Except EvalError α → Prop
  | some .noDigit, r => r = .error .malformedNumeral
  | some .zeroDivisor, r => ∃ a, r = .error (.divisionByZero a)
  | none, r => clear r

/-- There is a result. -/
def Succeeds {α : Type} (r : Except EvalError α) : Prop := ∃ a, r = .ok a

/-- The arithmetic is done: there is a finite value, or the value is not finite. -/
def Computed (r : Except EvalError Binary64) : Prop :=
  (∃ v, v.isFinite ∧ r = .ok v) ∨ r = .error .nonFiniteResult

/-- At a numeral the first fault is its own, or else the first one behind it. -/
theorem first?_numeral (before : Option Operator) (t : Text) (rest : List Token) :
    first? before (.numeral t :: rest) = (of? before t).or (first? none rest) := by
  rw [first?, first?, Token.numerals, List.findSome?_cons]
  dsimp only
  cases of? before t <;> rfl

/-- An operator has no fault, but decides whether the numeral behind it divides. -/
theorem first?_operator (before : Option Operator) (op : Operator) (rest : List Token) :
    first? before (.operator op :: rest) = first? (some op) rest := rfl

/-- The numerals with the operators before them are numerals of the tokens. -/
theorem mem_of_mem_numerals {before before' : Option Operator} {t : Text} {tokens : List Token}
    (h : (before', t) ∈ Token.numerals before tokens) : .numeral t ∈ tokens := by
  induction tokens generalizing before with
  | nil => cases h
  | cons u rest ih =>
    cases u with
    | operator op => exact List.mem_cons_of_mem _ (ih h)
    | numeral v =>
      rcases List.mem_cons.1 h with h | h
      · cases h
        exact List.mem_cons_self
      · exact List.mem_cons_of_mem _ (ih h)

/-- Where there is no numeral without digits, there is no such fault. -/
theorem first?_ne_noDigit {before : Option Operator} {tokens : List Token}
    (h : ∀ t, .numeral t ∈ tokens → t.any Char.isDigit) : first? before tokens ≠ some .noDigit := by
  intro hfirst
  obtain ⟨⟨before', t⟩, hmem, hof⟩ := List.exists_of_findSome?_eq_some hfirst
  have hdigit := h t (mem_of_mem_numerals hmem)
  dsimp only [of?] at hof
  rw [if_neg (not_not.2 hdigit)] at hof
  split at hof <;> cases hof

/-- Only a `/` makes a difference to a numeral. -/
theorem of?_of_ne_divide {before : Option Operator} (t : Text) (h : before ≠ some .divide) :
    of? before t = of? none t := by
  simp [of?, h]

/-- The faults of two evaluations one after the other: the earlier one decides. -/
theorem Decides.bind {α β : Type} {clear : Except EvalError β → Prop} {f g : Option Fault}
    {r : Except EvalError α} {k : α → Except EvalError β} (hr : Decides Succeeds f r)
    (hk : ∀ a, Decides clear g (k a)) : Decides clear (f.or g) (r >>= k) := by
  match f, hr with
  | some .noDigit, hr =>
    obtain rfl : r = _ := hr
    exact rfl
  | some .zeroDivisor, hr =>
    obtain ⟨a, rfl⟩ := hr
    exact ⟨a, rfl⟩
  | none, hr =>
    obtain ⟨a, rfl⟩ := hr
    exact hk a

/-- The errors that a numeral or the arithmetic can have. -/
theorem Decides.error_cases {f : Option Fault} {r : Except EvalError Binary64} {e : EvalError}
    (h : Decides Computed f r) (he : r = .error e) :
    e = .malformedNumeral ∨ (∃ a, e = .divisionByZero a) ∨ e = .nonFiniteResult := by
  subst he
  match f, h with
  | some .noDigit, h => exact .inl (Except.error.inj h)
  | some .zeroDivisor, ⟨a, h⟩ => exact .inr (.inl ⟨a, Except.error.inj h⟩)
  | none, .inl ⟨_, _, h⟩ => cases h
  | none, .inr h => exact .inr (.inr (Except.error.inj h))

end Fault

namespace TwoLevel

open Fault

/-- A numeral that is not divided by. -/
theorem decides_numeralValue {t : Text} (ht : Numeral.Spelled t) :
    Decides Succeeds (of? none t) (numeralValue t) := by
  have hread := ht.isSome_read_iff
  rw [of?, numeralValue]
  cases h : Numeral.read t with
  | none =>
    have hdigit : ¬ t.any Char.isDigit := by simpa [h] using hread
    rw [if_pos hdigit]
    exact rfl
  | some v =>
    have hdigit : t.any Char.isDigit := hread.1 (by rw [h]; rfl)
    rw [if_neg (not_not.2 hdigit), if_neg (by simp)]
    exact ⟨v, rfl⟩

/-- A numeral, and what the operator before it makes of it. -/
theorem Multiplicative.decides_apply (op : Multiplicative) (a : Binary64) {t : Text}
    (ht : Numeral.Spelled t) :
    Decides Succeeds (of? (some op.operator) t) (numeralValue t >>= fun b => op.apply a b) := by
  have hread := ht.isSome_read_iff
  rw [of?, numeralValue]
  cases h : Numeral.read t with
  | none =>
    have hdigit : ¬ t.any Char.isDigit := by simpa [h] using hread
    rw [if_pos hdigit]
    exact rfl
  | some v =>
    have hdigit : t.any Char.isDigit := hread.1 (by rw [h]; rfl)
    rw [if_neg (not_not.2 hdigit)]
    cases op with
    | times =>
      rw [if_neg (by simp [Multiplicative.operator])]
      exact ⟨a * v, rfl⟩
    | divide =>
      by_cases hzero : v.isZero
      · rw [if_pos ⟨rfl, hzero⟩]
        exact ⟨a, if_pos hzero⟩
      · rw [if_neg (by simpa using fun _ => hzero)]
        exact ⟨a / v, if_neg hzero⟩

section Along

variable {β : Type} {clear : Except EvalError β → Prop} {following : List Token}

/-- **The rest of a term.** The induction is on its factors; behind the numeral of each, nothing
stands before what follows. -/
theorem Term.decides_extend {rest : List (Multiplicative × Text)}
    (hrest : ∀ t, .numeral t ∈ restTokens rest → Numeral.Spelled t)
    {k : Binary64 → Except EvalError β} (hk : ∀ v, Decides clear (first? none following) (k v))
    (a : Binary64) :
    Decides clear (first? none (restTokens rest ++ following)) (extend a rest >>= k) := by
  induction rest generalizing a with
  | nil => exact hk a
  | cons factor rest ih =>
    obtain ⟨op, t⟩ := factor
    have ht := hrest t (by simp [restTokens])
    have hrest' : ∀ u, .numeral u ∈ restTokens rest → Numeral.Spelled u := fun u hu =>
      hrest u (List.mem_append_right [_, _] hu)
    have htokens : restTokens ((op, t) :: rest) ++ following =
        .operator op.operator :: .numeral t :: (restTokens rest ++ following) := rfl
    rw [htokens, first?_operator, first?_numeral, extend, List.foldlM_cons, bind_assoc]
    exact (op.decides_apply a ht).bind fun v => ih hrest' v

/-- **A term**, which is not a divisor. -/
theorem Term.decides_value {t : Term} {before : Option Operator} (hbefore : before ≠ some .divide)
    (ht : ∀ u, .numeral u ∈ t.tokens → Numeral.Spelled u) {k : Binary64 → Except EvalError β}
    (hk : ∀ v, Decides clear (first? none following) (k v)) :
    Decides clear (first? before (t.tokens ++ following)) (t.value >>= k) := by
  have hfirst := ht t.first List.mem_cons_self
  have hrest : ∀ u, .numeral u ∈ restTokens t.rest → Numeral.Spelled u := fun u hu =>
    ht u (List.mem_cons_of_mem _ hu)
  rw [tokens, List.cons_append, first?_numeral, of?_of_ne_divide _ hbefore, value, bind_assoc]
  exact (decides_numeralValue hfirst).bind fun v => decides_extend hrest hk v

/-- **The other terms of an expression**, from left to right. -/
theorem Expression.decides_rest {rest : List (Additive × Term)}
    (hrest : ∀ u, .numeral u ∈ restTokens rest → Numeral.Spelled u)
    {k : List (Additive × Binary64) → Except EvalError β} (hk : ∀ values, clear (k values)) :
    Decides clear (first? none (restTokens rest))
      ((rest.mapM fun (op, t) => do return (op, ← t.value)) >>= k) := by
  induction rest generalizing k with
  | nil => exact hk []
  | cons summand rest ih =>
    obtain ⟨op, t⟩ := summand
    have htokens : restTokens ((op, t) :: rest) =
        .operator op.operator :: (t.tokens ++ restTokens rest) := rfl
    rw [htokens] at hrest ⊢
    rw [first?_operator, List.mapM_cons]
    simp only [bind_assoc, pure_bind]
    have hop : some op.operator ≠ some .divide := by cases op <;> decide
    refine Term.decides_value hop (fun u hu => hrest u (by simp [hu])) fun v => ?_
    exact ih (fun u hu => hrest u (by simp [hu])) fun values => hk _

end Along

/-- **An expression** whose numerals are spelled. -/
theorem Expression.decides_value {e : Expression}
    (he : ∀ u, .numeral u ∈ e.tokens → Numeral.Spelled u) :
    Decides Computed (first? none e.tokens) e.value := by
  refine Term.decides_value (by decide) (fun u hu => he u (List.mem_append_left _ hu)) fun v => ?_
  refine Expression.decides_rest (fun u hu => he u (List.mem_append_right _ hu)) fun values => ?_
  dsimp only
  split
  · rename_i hfinite
    exact .inl ⟨_, hfinite, rfl⟩
  · exact .inr rfl

end TwoLevel

/-! ### The end of a text -/

/-- A numeral does not end in an operator. -/
theorem Numeral.Spelled.exists_getLast? {t : Text} (ht : Spelled t) :
    ∃ c, t.getLast? = some c ∧ isOperator c = false := by
  obtain ⟨⟨hbody, -⟩, hne⟩ := ht
  obtain ⟨negative, hsign⟩ := exists_sign t
  obtain ⟨c, hc⟩ : ∃ c, (unsigned t).getLast? = some c :=
    Option.isSome_iff_exists.1 (by simpa using hne)
  refine ⟨c, ?_, isOperator_of_isBodyChar (hbody c (List.mem_of_getLast? hc))⟩
  rw [hsign, List.getLast?_append, hc]
  rfl

namespace Token.Spells

variable {ts : List Token} {s : Text}

/-- Every token stands for some characters, the last of which tells its kind. -/
theorem exists_getLast?_text (h : Spells ts s) {u : Token} (hu : u ∈ ts) :
    ∃ c, u.text.getLast? = some c ∧ (isOperator c ↔ ∃ op, u = .operator op) := by
  cases u with
  | numeral t =>
    obtain ⟨c, hc, hop⟩ := (h.spelled t hu).exists_getLast?
    exact ⟨c, hc, by simp [hop]⟩
  | operator op => exact ⟨op.symbol, rfl, by simp [isOperator_symbol op]⟩

/-- The last character that matters is that of the last token. -/
theorem getLast?_filter (h : Spells ts s) :
    (s.filter isSignificant).getLast? = ts.getLast?.bind fun u => u.text.getLast? := by
  rw [← h.complete]
  rcases ts.eq_nil_or_concat with rfl | ⟨us, u, rfl⟩
  · rfl
  · rw [List.concat_eq_append] at h ⊢
    obtain ⟨c, hc, -⟩ := h.exists_getLast?_text (u := u) (by simp)
    simp [hc]

/-- A text without a character that matters has no tokens. -/
theorem eq_nil_iff (h : Spells ts s) : ts = [] ↔ ∀ c ∈ s, ¬ isSignificant c := by
  rw [← List.filter_eq_nil_iff, ← List.getLast?_eq_none_iff, ← List.getLast?_eq_none_iff,
    h.getLast?_filter]
  cases hlast : ts.getLast? with
  | none => simp
  | some u =>
    obtain ⟨c, hc, -⟩ := h.exists_getLast?_text (List.mem_of_getLast? hlast)
    simp [hc]

/-- A text ends in an operator just if its tokens do. -/
theorem isOperator_getLast?_iff (h : Spells ts s) :
    (∃ c ∈ (s.filter isSignificant).getLast?, isOperator c) ↔
      ∃ op, ts.getLast? = some (.operator op) := by
  rw [h.getLast?_filter]
  cases hlast : ts.getLast? with
  | none => simp
  | some u =>
    obtain ⟨c, hc, hop⟩ := h.exists_getLast?_text (List.mem_of_getLast? hlast)
    simpa [hc] using hop

end Token.Spells

namespace Evaluation

open Fault (Decides Computed)

/-- **What an evaluation comes to**, by the tokens of the text. -/
theorem evaluate_cases (s : Text) :
    (Token.scan s = .error .malformedNumeral ∧ evaluate s = .error .malformedNumeral) ∨
      (Token.scan s = .ok [] ∧ evaluate s = .error .emptyExpression) ∨
        (∃ ts op, Token.scan s = .ok ts ∧ ts.getLast? = some (.operator op) ∧
          evaluate s = .error .trailingOperator) ∨
          ∃ ts t, Token.scan s = .ok ts ∧ ts.getLast? = some (.numeral t) ∧
            Decides Computed (Fault.first? none ts) (evaluate s) := by
  cases hscan : Token.scan s with
  | error e =>
    obtain rfl := Token.scanFrom_eq_error hscan
    refine .inl ⟨rfl, ?_⟩
    rw [evaluate, completeTokens, hscan]
    rfl
  | ok ts =>
    refine .inr ?_
    cases hlast : ts.getLast? with
    | none =>
      obtain rfl := List.getLast?_eq_none_iff.1 hlast
      refine .inl ⟨rfl, ?_⟩
      rw [evaluate, completeTokens, hscan]
      rfl
    | some u =>
      refine .inr ?_
      cases u with
      | operator op =>
        refine .inl ⟨ts, op, rfl, hlast, ?_⟩
        rw [evaluate, completeTokens, hscan]
        simp only [bind, Except.bind, hlast]
      | numeral t =>
        -- Complete tokens are those of an expression on two levels, which knows its first fault.
        refine .inr ⟨ts, t, rfl, hlast, ?_⟩
        have hne : ts ≠ [] := by
          rintro rfl
          cases hlast
        obtain ⟨e, he, hvalue⟩ := exists_value_of_scan hscan hne fun op => by simp [hlast]
        obtain rfl := TwoLevel.Expression.tokens_of_ofTokens? he
        rw [hvalue]
        exact TwoLevel.Expression.decides_value (Token.scan_eq_ok_iff.1 hscan).spelled

/-- The errors of an evaluation. -/
theorem evaluate_error_cases {s : Text} {e : EvalError} (h : evaluate s = .error e) :
    e = .emptyExpression ∨ e = .trailingOperator ∨ e = .malformedNumeral ∨
      (∃ a, e = .divisionByZero a) ∨ e = .nonFiniteResult := by
  rcases evaluate_cases s with ⟨-, hs⟩ | ⟨-, hs⟩ | ⟨ts, op, -, -, hs⟩ | ⟨ts, t, -, -, hs⟩
  · exact .inr (.inr (.inl (Except.error.inj (h.symm.trans hs))))
  · exact .inl (Except.error.inj (h.symm.trans hs))
  · exact .inr (.inl (Except.error.inj (h.symm.trans hs)))
  · exact .inr (.inr (hs.error_cases h))

/-- **An empty expression** is one without tokens. -/
theorem evaluate_eq_emptyExpression_iff {s : Text} :
    evaluate s = .error .emptyExpression ↔ Token.scan s = .ok [] := by
  rcases evaluate_cases s with ⟨hscan, h⟩ | ⟨hscan, h⟩ | ⟨ts, op, hscan, hlast, h⟩ |
    ⟨ts, t, hscan, hlast, h⟩
  · simp [hscan, h]
  · simp [hscan, h]
  · have hne : ts ≠ [] := by
      rintro rfl
      cases hlast
    simp [hscan, h, hne]
  · have hne : ts ≠ [] := by
      rintro rfl
      cases hlast
    refine iff_of_false (fun he => ?_) (by simp [hscan, hne])
    simpa using h.error_cases he

/-- **A final operator** is the error of just the expressions whose last token is one. -/
theorem evaluate_eq_trailingOperator_iff {s : Text} :
    evaluate s = .error .trailingOperator ↔
      ∃ ts op, Token.scan s = .ok ts ∧ ts.getLast? = some (.operator op) := by
  rcases evaluate_cases s with ⟨hscan, h⟩ | ⟨hscan, h⟩ | ⟨ts, op, hscan, hlast, h⟩ |
    ⟨ts, t, hscan, hlast, h⟩
  · simp [hscan, h]
  · simp [hscan, h]
  · exact iff_of_true h ⟨ts, op, hscan, hlast⟩
  · refine iff_of_false (fun he => by simpa using h.error_cases he) ?_
    rintro ⟨us, op, hus, hop⟩
    obtain rfl := Except.ok.inj (hscan.symm.trans hus)
    simp [hlast] at hop

/-- **Every error is told from the text.** Two errors never occur; what is empty and what ends in an
operator is seen from the characters that matter; and where the tokens end in a numeral, the first
fault among them decides, or there is none and the arithmetic is done. -/
theorem evaluate_classified (s : Text) :
    evaluate s ≠ .error .missingOperand ∧ evaluate s ≠ .error .invalidResult ∧
      (evaluate s = .error .emptyExpression ↔ ∀ c ∈ s, ¬ isSignificant c) ∧
      (evaluate s = .error .trailingOperator ↔ (∃ ts, Token.scan s = .ok ts) ∧
        ∃ c ∈ (s.filter isSignificant).getLast?, isOperator c) ∧
      (∀ e, Token.scan s = .error e → evaluate s = .error .malformedNumeral) ∧
      ∀ ts t, Token.scan s = .ok ts → ts.getLast? = some (.numeral t) →
        Decides Computed (Fault.first? none ts) (evaluate s) := by
  refine ⟨fun h => by simpa using evaluate_error_cases h,
    fun h => by simpa using evaluate_error_cases h, ?_, ?_, fun e hscan => ?_,
    fun ts t hscan hlast => ?_⟩
  · rw [evaluate_eq_emptyExpression_iff, Token.scan_eq_ok_iff]
    refine ⟨fun h => h.eq_nil_iff.1 rfl, fun h => ?_⟩
    exact ⟨trivial, by simp, (List.filter_eq_nil_iff.2 h).symm⟩
  · rw [evaluate_eq_trailingOperator_iff]
    constructor
    · rintro ⟨ts, op, hscan, hlast⟩
      exact ⟨⟨ts, hscan⟩, (Token.scan_eq_ok_iff.1 hscan).isOperator_getLast?_iff.2 ⟨op, hlast⟩⟩
    · rintro ⟨⟨ts, hscan⟩, hop⟩
      obtain ⟨op, hlast⟩ := (Token.scan_eq_ok_iff.1 hscan).isOperator_getLast?_iff.1 hop
      exact ⟨ts, op, hscan, hlast⟩
  · rw [evaluate, completeTokens, hscan, Token.scanFrom_eq_error hscan]
    rfl
  · rcases evaluate_cases s with ⟨h, -⟩ | ⟨h, -⟩ | ⟨us, op, h, hop, -⟩ | ⟨us, u, h, -, hus⟩
    · cases hscan.symm.trans h
    · obtain rfl := Except.ok.inj (hscan.symm.trans h)
      cases hlast
    · obtain rfl := Except.ok.inj (hscan.symm.trans h)
      cases hlast.symm.trans hop
    · obtain rfl := Except.ok.inj (hscan.symm.trans h)
      exact hus

/-- The zero divisor of a term comes before a numeral without digits in the next one. -/
theorem evaluate_classified_zero_before_point :
    let tokens : List Token := [.numeral ['7'], .operator .minus, .numeral ['2'], .operator .divide,
      .numeral ['-', '0'], .operator .plus, .numeral ['.']]
    Token.scan "7-2/-0+.".toList = .ok tokens ∧ tokens.getLast? = some (.numeral ['.']) ∧
      ∃ a, evaluate "7-2/-0+.".toList = .error (.divisionByZero a) := by
  intro tokens
  have hscan : Token.scan "7-2/-0+.".toList = .ok tokens := rfl
  have hfault : Fault.first? none tokens = some .zeroDivisor := by decide +kernel
  have hdecides := (evaluate_classified "7-2/-0+.".toList).2.2.2.2.2 tokens ['.'] hscan rfl
  rw [hfault] at hdecides
  exact ⟨hscan, rfl, hdecides⟩

end Evaluation
end PocketCalculator
