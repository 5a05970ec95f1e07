/-
# Two-level evaluation

An expression without parentheses is a sum of terms: terms stand between `+` and `-`, and each term
is a chain of numerals between `*` and `/`. `TwoLevel.Expression.value` evaluates it so, without
stacks: every term from left to right, then the values of the terms from left to right. A numeral
that cannot be read and a division by zero end the evaluation where they are met.

`Evaluation.evaluate` goes through two stacks instead. While it stands inside a term, at most one
operator of each level is waiting, and the stack of values holds the left operand of each:

| place | waiting operators | values |
| --- | --- | --- |
| first term | none | the chain so far |
| later term | the `+` or `-` before it | the sum so far, the chain so far |
| behind a `*` or `/` | that operator as well | the left operand as well |

`Postfix.run` is the state of both stacks with the tokens still to come. Its lemmas say what a
numeral, an operator that must wait and an operator that is released do to it, and
`run_term_tokens`, `run_expression_restTokens` go along the two levels.
-/

import PocketCalculator.Evaluation
import PocketCalculator.Proofs.TokenGrammar

namespace PocketCalculator
namespace TwoLevel

/-- The operators between terms. -/
inductive Additive where
  | plus
  | minus
  deriving DecidableEq

/-- The operators inside a term. -/
inductive Multiplicative where
  | times
  | divide
  deriving DecidableEq

/-- The operator between two terms. -/
def Additive.operator : Additive → Operator
  | .plus => .plus
  | .minus => .minus

/-- The operator between two numerals of a term. -/
def Multiplicative.operator : Multiplicative → Operator
  | .times => .times
  | .divide => .divide

/-- A numeral, and what it is multiplied with or divided by in turn. -/
structure Term where
  first : Text
  rest : List (Multiplicative × Text)
  deriving DecidableEq

/-- A term, and what is added to it or subtracted from it in turn. -/
structure Expression where
  first : Term
  rest : List (Additive × Term)
  deriving DecidableEq

/-! ### Tokens -/

/-- The tokens of a term behind its first numeral. -/
def Term.restTokens (rest : List (Multiplicative × Text)) : List Token :=
  rest.flatMap fun (op, t) => [.operator op.operator, .numeral t]

/-- The tokens of a term. -/
def Term.tokens (t : Term) : List Token := .numeral t.first :: restTokens t.rest

/-- The tokens of an expression behind its first term. -/
def Expression.restTokens (rest : List (Additive × Term)) : List Token :=
  rest.flatMap fun (op, t) => .operator op.operator :: t.tokens

/-- The tokens of an expression. -/
def Expression.tokens (e : Expression) : List Token := e.first.tokens ++ restTokens e.rest

/-! ### Values -/

/-- The value of a numeral, if it can be read. -/
def numeralValue (t : Text) : Except EvalError Binary64 :=
  match Numeral.read t with
  | some v => .ok v
  | none => .error .malformedNumeral

/-- The sum or difference of two values. -/
def Additive.apply : Additive → Binary64 → Binary64 → Binary64
  | .plus, a, b => a + b
  | .minus, a, b => a - b

/-- The product or quotient of two values. A zero of either sign is no divisor. -/
def Multiplicative.apply : Multiplicative → Binary64 → Binary64 → Except EvalError Binary64
  | .times, a, b => .ok (a * b)
  | .divide, a, b => if b.isZero then .error (.divisionByZero a) else .ok (a / b)

/-- A term's value, from the value of the chain so far. -/
def Term.extend (a : Binary64) (rest : List (Multiplicative × Text)) :
    Except EvalError Binary64 :=
  rest.foldlM (fun a (op, t) => do op.apply a (← numeralValue t)) a

/-- The value of a term, from left to right. -/
def Term.value (t : Term) : Except EvalError Binary64 := do
  Term.extend (← numeralValue t.first) t.rest

/-- The value of an expression: that of each term from left to right, then their combination from
left to right, which must be finite. -/
def Expression.value (e : Expression) : Except EvalError Binary64 := do
  let first ← e.first.value
  let rest ← e.rest.mapM fun (op, t) => return (op, ← t.value)
  let total := rest.foldl (fun a (op, b) => op.apply a b) first
  if total.isFinite then .ok total else .error .nonFiniteResult

end TwoLevel

namespace Postfix

open TwoLevel

/-- The stack that is reached from `stack` when the operators `waiting` and the tokens are still to
come. -/
def run (waiting : List Operator) (stack : List Binary64) (tokens : List Token) :
    Except EvalError (List Binary64) :=
  (ofInfixFrom waiting tokens).foldlM step stack

/-- What comes next, if anything, is an operator that releases all those from `level` on. -/
def Releases (level : Nat) (tokens : List Token) : Prop :=
  ∀ t ∈ tokens.head?, ∃ op, t = .operator op ∧ op.precedence ≤ level

/-- A numeral goes onto the stack, whatever waits. -/
theorem run_numeral (waiting : List Operator) (stack : List Binary64) (t : Text)
    (tokens : List Token) :
    run waiting stack (.numeral t :: tokens) =
      numeralValue t >>= fun v => run waiting (v :: stack) tokens := by
  simp only [run, ofInfixFrom, List.foldlM_cons, step, numeralValue]
  cases Numeral.read t <;> rfl

/-- An operator waits on top of those that bind less tightly. -/
theorem run_operator {waiting : List Operator} {op : Operator} (stack : List Binary64)
    (tokens : List Token) (h : ∀ top ∈ waiting.head?, top.precedence < op.precedence) :
    run waiting stack (.operator op :: tokens) = run (op :: waiting) stack tokens := by
  cases waiting with
  | nil => rfl
  | cons top waiting =>
    have htop : ¬ op.precedence ≤ top.precedence := by simpa using h top rfl
    simp [run, ofInfixFrom, htop]

/-- A waiting operator is applied to the two topmost values as soon as it is released. -/
theorem run_release {top : Operator} {tokens : List Token} (waiting : List Operator)
    (a b : Binary64) (stack : List Binary64) (h : Releases top.precedence tokens) :
    run (top :: waiting) (b :: a :: stack) tokens =
      top.apply a b >>= fun v => run waiting (v :: stack) tokens := by
  have happly : step (b :: a :: stack) (.operator top) = (top.apply a b).map (· :: stack) := rfl
  cases tokens with
  | nil =>
    simp only [run, ofInfixFrom, List.map_cons, List.foldlM_cons, happly]
    cases top.apply a b <;> rfl
  | cons t tokens =>
    obtain ⟨op, rfl, hop⟩ := h t rfl
    simp only [run, ofInfixFrom, List.takeWhile_cons, List.dropWhile_cons, hop, decide_true,
      if_true, List.map_cons, List.cons_append, List.foldlM_cons, happly]
    cases top.apply a b <;> rfl

/-! ### Along the two levels -/

/-- What follows a numeral in a term is another `*` or `/`, or what follows the term. -/
theorem releases_term_restTokens {level : Nat} (rest : List (Multiplicative × Text))
    {tokens : List Token} (hlevel : 2 ≤ level) (h : Releases level tokens) :
    Releases level (Term.restTokens rest ++ tokens) := by
  cases rest with
  | nil => exact h
  | cons factor rest =>
    obtain ⟨op, t⟩ := factor
    intro u hu
    obtain rfl : .operator op.operator = u := by simpa [Term.restTokens] using hu
    exact ⟨op.operator, rfl, by cases op <;> exact hlevel⟩

/-- What follows a term is a `+` or `-`, or nothing. -/
theorem releases_expression_restTokens (rest : List (Additive × Term)) :
    Releases 1 (Expression.restTokens rest) := by
  cases rest with
  | nil => exact fun t ht => absurd ht (by simp [Expression.restTokens])
  | cons summand rest =>
    obtain ⟨op, t⟩ := summand
    intro u hu
    obtain rfl : .operator op.operator = u := by simpa [Expression.restTokens] using hu
    exact ⟨op.operator, rfl, by cases op <;> exact Nat.le_refl 1⟩

/-- What releases more operators releases fewer too. -/
theorem Releases.mono {low high : Nat} {tokens : List Token} (h : Releases low tokens)
    (hle : low ≤ high) : Releases high tokens := fun t ht =>
  let ⟨op, hop, hlow⟩ := h t ht
  ⟨op, hop, Nat.le_trans hlow hle⟩

/-- A `*` or `/` on the stack is that of a term. -/
theorem apply_multiplicative (op : Multiplicative) (a b : Binary64) :
    op.operator.apply a b = op.apply a b := by
  cases op <;> rfl

/-- A `+` or `-` on the stack is that of an expression, and cannot fail. -/
theorem apply_additive (op : Additive) (a b : Binary64) :
    op.operator.apply a b = .ok (op.apply a b) := by
  cases op <;> rfl

/-- **The rest of a term** replaces the chain so far by its value, whatever waits below it. The
induction is on the factors: each `*` or `/` waits for one numeral only, because what follows that
numeral releases it. -/
theorem run_term_restTokens {waiting : List Operator} {tokens : List Token}
    (hwaiting : ∀ top ∈ waiting.head?, top.precedence < 2) (htokens : Releases 1 tokens)
    (rest : List (Multiplicative × Text)) (a : Binary64) (stack : List Binary64) :
    run waiting (a :: stack) (Term.restTokens rest ++ tokens) =
      Term.extend a rest >>= fun v => run waiting (v :: stack) tokens := by
  induction rest generalizing a with
  | nil => rfl
  | cons factor rest ih =>
    obtain ⟨op, t⟩ := factor
    have hop : op.operator.precedence = 2 := by cases op <;> rfl
    have hrest : Releases op.operator.precedence (Term.restTokens rest ++ tokens) :=
      releases_term_restTokens rest (by omega) (htokens.mono (by omega))
    calc run waiting (a :: stack) (Term.restTokens ((op, t) :: rest) ++ tokens)
        = run (op.operator :: waiting) (a :: stack)
            (.numeral t :: (Term.restTokens rest ++ tokens)) :=
          run_operator _ _ (by rwa [hop])
      _ = numeralValue t >>= fun b => op.apply a b >>= fun v =>
            run waiting (v :: stack) (Term.restTokens rest ++ tokens) := by
          simp only [run_numeral, run_release _ _ _ _ hrest, apply_multiplicative]
      _ = Term.extend a ((op, t) :: rest) >>= fun v => run waiting (v :: stack) tokens := by
          simp only [ih, Term.extend, List.foldlM_cons, bind_assoc]

/-- **A term** puts its value on the stack. -/
theorem run_term_tokens {waiting : List Operator} {tokens : List Token}
    (hwaiting : ∀ top ∈ waiting.head?, top.precedence < 2) (htokens : Releases 1 tokens)
    (t : Term) (stack : List Binary64) :
    run waiting stack (t.tokens ++ tokens) =
      t.value >>= fun v => run waiting (v :: stack) tokens := by
  rw [Term.tokens, List.cons_append, run_numeral]
  simp only [run_term_restTokens hwaiting htokens, Term.value, bind_assoc]

/-- **The rest of an expression** combines the sum so far with the values of its terms. -/
theorem run_expression_restTokens (rest : List (Additive × Term)) (a : Binary64) :
    run [] [a] (Expression.restTokens rest) = do
      let values ← rest.mapM fun (op, t) => return (op, ← t.value)
      return [values.foldl (fun a (op, b) => op.apply a b) a] := by
  induction rest generalizing a with
  | nil => rfl
  | cons summand rest ih =>
    obtain ⟨op, t⟩ := summand
    have hop : op.operator.precedence = 1 := by cases op <;> rfl
    have hrest : Releases op.operator.precedence (Expression.restTokens rest) :=
      (releases_expression_restTokens rest).mono (by omega)
    calc run [] [a] (Expression.restTokens ((op, t) :: rest))
        = run [op.operator] [a] (t.tokens ++ Expression.restTokens rest) :=
          run_operator _ _ (by simp)
      _ = t.value >>= fun b => run [] [op.apply a b] (Expression.restTokens rest) := by
          rw [run_term_tokens (by simp [hop]) (releases_expression_restTokens rest)]
          simp only [run_release _ _ _ _ hrest, apply_additive]
          rfl
      _ = _ := by simp [ih, List.mapM_cons]

/-- **Postfix reduction is two-level evaluation.** -/
theorem reduce_ofInfix_tokens (e : Expression) : reduce (ofInfix e.tokens) = e.value := by
  have hrun : (ofInfix e.tokens).foldlM step [] = run [] [] e.tokens := rfl
  rw [reduce, hrun, Expression.tokens,
    run_term_tokens (by simp) (releases_expression_restTokens e.rest)]
  simp only [run_expression_restTokens, Expression.value, bind_assoc, pure_bind]
  rfl

end Postfix

namespace TwoLevel

/-! ### Reading an expression -/

/-- The expression that begins with a numeral and an operator, and goes on as `e`. -/
def Expression.prepend (t : Text) (e : Expression) : Operator → Expression
  | .plus => ⟨⟨t, []⟩, (.plus, e.first) :: e.rest⟩
  | .minus => ⟨⟨t, []⟩, (.minus, e.first) :: e.rest⟩
  | .times => ⟨⟨t, (.times, e.first.first) :: e.first.rest⟩, e.rest⟩
  | .divide => ⟨⟨t, (.divide, e.first.first) :: e.first.rest⟩, e.rest⟩

/-- The expression with the given tokens. -/
def Expression.ofTokens? : List Token → Option Expression
  | [.numeral t] => some ⟨⟨t, []⟩, []⟩
  | .numeral t :: .operator op :: rest => (ofTokens? rest).map fun e => prepend t e op
  | _ => none

/-- The tokens of an expression with a numeral and an operator in front. -/
theorem Expression.tokens_prepend (t : Text) (e : Expression) (op : Operator) :
    (prepend t e op).tokens = .numeral t :: .operator op :: e.tokens := by
  cases op <;> rfl

/-- The expression that is read from tokens has these tokens. -/
theorem Expression.tokens_of_ofTokens? {ts : List Token} {e : Expression}
    (h : ofTokens? ts = some e) : e.tokens = ts := by
  fun_induction ofTokens? ts generalizing e with
  | case1 t =>
    obtain rfl := Option.some.inj h
    rfl
  | case2 t op rest ih =>
    obtain ⟨e', he', rfl⟩ := Option.map_eq_some_iff.1 h
    rw [tokens_prepend, ih he']
  | case3 => cases h

/-- What is read of an expression is also read behind a numeral and an operator. -/
theorem Expression.ofTokens?_prepend {e : Expression} (t : Text) (op : Operator)
    (h : ofTokens? e.tokens = some e) :
    ofTokens? (prepend t e op).tokens = some (prepend t e op) := by
  rw [tokens_prepend, ofTokens?, h]
  rfl

/-- The factors of the first term are read before the other terms. -/
theorem Expression.ofTokens?_factors {rest : List (Additive × Term)}
    (hrest : ∀ t, ofTokens? (tokens ⟨⟨t, []⟩, rest⟩) = some ⟨⟨t, []⟩, rest⟩)
    (t : Text) (factors : List (Multiplicative × Text)) :
    ofTokens? (tokens ⟨⟨t, factors⟩, rest⟩) = some ⟨⟨t, factors⟩, rest⟩ := by
  induction factors generalizing t with
  | nil => exact hrest t
  | cons factor factors ih =>
    obtain ⟨op, u⟩ := factor
    have he : (⟨⟨t, (op, u) :: factors⟩, rest⟩ : Expression) =
        prepend t ⟨⟨u, factors⟩, rest⟩ op.operator := by cases op <;> rfl
    rw [he]
    exact ofTokens?_prepend t op.operator (ih u)

/-- **An expression is read** from its own tokens. -/
theorem Expression.ofTokens?_tokens (e : Expression) : ofTokens? e.tokens = some e := by
  obtain ⟨⟨t, factors⟩, rest⟩ := e
  induction rest generalizing t factors with
  | nil => exact ofTokens?_factors (fun _ => rfl) t factors
  | cons summand rest ih =>
    refine ofTokens?_factors (fun t => ?_) t factors
    obtain ⟨op, ⟨u, us⟩⟩ := summand
    have he : (⟨⟨t, []⟩, (op, ⟨u, us⟩) :: rest⟩ : Expression) =
        prepend t ⟨⟨u, us⟩, rest⟩ op.operator := by cases op <;> rfl
    rw [he]
    exact ofTokens?_prepend t op.operator (ih u us)

/-- So tokens are those of one expression at most. -/
theorem Expression.ofTokens?_eq_some_iff {ts : List Token} {e : Expression} :
    ofTokens? ts = some e ↔ e.tokens = ts :=
  ⟨tokens_of_ofTokens?, fun h => h ▸ ofTokens?_tokens e⟩

/-- Alternating tokens that end in a numeral are those of an expression. -/
theorem Expression.exists_ofTokens? {ts : List Token} (halt : Token.Alternating ts)
    (hne : ts ≠ []) (hlast : ∀ op, ts.getLast? ≠ some (.operator op)) :
    ∃ e, ofTokens? ts = some e := by
  fun_induction Token.Alternating ts with
  | case1 => exact absurd rfl hne
  | case2 t => exact ⟨_, rfl⟩
  | case3 t op rest ih =>
    have hrest : rest ≠ [] := by
      rintro rfl
      exact hlast op rfl
    have hlast' : ∀ op', rest.getLast? ≠ some (.operator op') := fun op' h => by
      refine hlast op' ?_
      rw [List.getLast?_cons_cons, List.getLast?_cons_of_ne_nil hrest, h]
    obtain ⟨e, he⟩ := ih halt hrest hlast'
    exact ⟨prepend t e op, by rw [ofTokens?, he]; rfl⟩
  | case4 => exact halt.elim

end TwoLevel

namespace Evaluation

open TwoLevel

/-- Tokens that end in a numeral are complete. -/
theorem completeTokens_of_scan {s : Text} {ts : List Token} (hs : Token.scan s = .ok ts)
    (hne : ts ≠ []) (hlast : ∀ op, ts.getLast? ≠ some (.operator op)) :
    completeTokens s = .ok ts := by
  obtain ⟨u, hu⟩ : ∃ u, ts.getLast? = some u := Option.isSome_iff_exists.1 (by simpa using hne)
  cases u with
  | operator op => exact absurd hu (hlast op)
  | numeral t =>
    rw [completeTokens, hs]
    simp only [bind, Except.bind, hu]

/-- The expression with the tokens of a text, and its value. -/
theorem exists_value_of_scan {s : Text} {ts : List Token} (hs : Token.scan s = .ok ts)
    (hne : ts ≠ []) (hlast : ∀ op, ts.getLast? ≠ some (.operator op)) :
    ∃ e, Expression.ofTokens? ts = some e ∧ evaluate s = e.value := by
  have halt := (Token.scan_eq_ok_iff.1 hs).alternating
  obtain ⟨e, he⟩ := Expression.exists_ofTokens? halt hne hlast
  have htokens := Expression.tokens_of_ofTokens? he
  refine ⟨e, he, ?_⟩
  calc evaluate s = Postfix.reduce (Postfix.ofInfix ts) := by
        rw [evaluate, completeTokens_of_scan hs hne hlast]
        rfl
    _ = e.value := by rw [← htokens, Postfix.reduce_ofInfix_tokens]

/-- **Evaluation is two-level evaluation.** The tokens of a text that is not empty and does not end
in an operator are those of exactly one expression, and evaluating the text gives the value of that
expression or the error that its evaluation from left to right meets first. -/
theorem evaluate_eq_value {s : Text} {ts : List Token} (hs : Token.scan s = .ok ts)
    (hne : ts ≠ []) (hlast : ∀ op, ts.getLast? ≠ some (.operator op)) :
    ∃ e : Expression, (∀ e' : Expression, e'.tokens = ts ↔ e' = e) ∧ evaluate s = e.value := by
  obtain ⟨e, he, hvalue⟩ := exists_value_of_scan hs hne hlast
  refine ⟨e, fun e' => ?_, hvalue⟩
  rw [← Expression.ofTokens?_eq_some_iff, he, Option.some.injEq, eq_comm]

/-- A division by zero that comes before a numeral without digits is the error. -/
theorem evaluate_eq_value_zero_before_point :
    Token.scan "2*3-4/0+.".toList = .ok [.numeral ['2'], .operator .times, .numeral ['3'],
      .operator .minus, .numeral ['4'], .operator .divide, .numeral ['0'], .operator .plus,
      .numeral ['.']] ∧
    ∃ e : Expression, (∀ e' : Expression, e'.tokens = [.numeral ['2'], .operator .times,
      .numeral ['3'], .operator .minus, .numeral ['4'], .operator .divide, .numeral ['0'],
      .operator .plus, .numeral ['.']] ↔ e' = e) ∧ evaluate "2*3-4/0+.".toList = e.value :=
  ⟨rfl, evaluate_eq_value rfl (by decide) (fun op => by cases op <;> decide)⟩

end Evaluation
end PocketCalculator
