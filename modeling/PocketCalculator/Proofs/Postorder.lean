/-
# Postfix lists as listings of trees

A tree has a numeral at each leaf and an operator at each node. Its listing in postorder, operands
before their operator, is a postfix list, and reducing that list gives what the tree evaluates to,
the left operand first (`Postfix.foldlM_tokens`). The other way round, the values on the stack are
at any time those of trees whose listings make up what has been read (`Postfix.foldlM_grow_of_ok`,
`Postfix.flatMap_of_foldlM_grow`):

| what is left on the stack | what the list is |
| --- | --- |
| nothing | empty |
| one value | the listing of one tree |
| several values | the listings of as many trees |

Putting trees on the stack instead of values gives the tree back (`Postfix.Tree.ofTokens?`), so a
list is the listing of at most one. A reduction ends early at a numeral that cannot be read, at a
zero divisor, or at an operator that lacks an operand (`Postfix.step_eq_error_cases`).
-/

import Mathlib.Data.List.Forall2
import PocketCalculator.Postfix

namespace PocketCalculator
namespace Postfix

/-- A numeral, or an operator with a left and a right operand. -/
inductive Tree where
  | numeral (text : Text)
  | node (op : Operator) (left right : Tree)
  deriving DecidableEq

namespace Tree

/-- The listing of a tree in postorder: the left operand, the right operand, the operator. -/
def tokens : Tree → List Token
  | .numeral t => [.numeral t]
  | .node op left right => left.tokens ++ right.tokens ++ [.operator op]

/-- The value of a tree: that of the left operand, that of the right operand, then the operator
between them. The first numeral that cannot be read or zero divisor ends it. -/
def value : Tree → Except EvalError Binary64
  | .numeral t =>
    match Numeral.read t with
    | some v => .ok v
    | none => .error .malformedNumeral
  | .node op left right => do
    let a ← left.value
    let b ← right.value
    match op with
    | .plus => .ok (a + b)
    | .minus => .ok (a - b)
    | .times => .ok (a * b)
    | .divide => if b.isZero then .error (.divisionByZero a) else .ok (a / b)

/-- The value of a node is its operator, applied to the values of its operands. -/
theorem value_node (op : Operator) (left right : Tree) :
    (node op left right).value =
      left.value >>= fun a => right.value >>= fun b => op.apply a b := by
  cases op <;> rfl

/-- A stack of trees after one more token. -/
def grow (stack : List Tree) : Token → Option (List Tree)
  | .numeral t => some (.numeral t :: stack)
  | .operator op =>
    match stack with
    | right :: left :: rest => some (.node op left right :: rest)
    | _ => none

/-- The tree with a given listing. -/
def ofTokens? (tokens : List Token) : Option Tree :=
  match tokens.foldlM grow [] with
  | some [t] => some t
  | _ => none

end Tree

/-- Whether a reduction comes to a division by a zero of either sign. -/
def MeetsZeroDivisor (tokens : List Token) : Prop :=
  ∃ before rest a b stack, tokens = before ++ .operator .divide :: rest ∧
    before.foldlM step [] = .ok (b :: a :: stack) ∧ b.isZero

/-- The values on a stack are those of the trees on another. -/
def Holds (trees : List Tree) (stack : List Binary64) : Prop :=
  List.Forall₂ (fun t v => t.value = .ok v) trees stack

variable {tokens : List Token} {token : Token} {stack stack' : List Binary64}
  {trees trees' : List Tree} {e : EvalError}

/-- A reduction that goes through concludes from its stack. -/
theorem reduce_of_ok (h : tokens.foldlM step [] = .ok stack) : reduce tokens = conclude stack := by
  rw [reduce, h]
  rfl

/-- A reduction that fails underway ends in that error. -/
theorem reduce_of_error (h : tokens.foldlM step [] = .error e) : reduce tokens = .error e := by
  rw [reduce, h]
  rfl

/-! ### From a tree to its listing -/

/-- **The listing of a tree** puts its value on the stack, or ends in its error, whatever stands on
the stack and whatever follows. -/
theorem foldlM_tokens (t : Tree) (stack : List Binary64) (rest : List Token) :
    (t.tokens ++ rest).foldlM step stack =
      t.value >>= fun v => rest.foldlM step (v :: stack) := by
  induction t generalizing stack rest with
  | numeral t =>
    simp only [Tree.tokens, Tree.value, List.singleton_append, List.foldlM_cons, step]
    cases Numeral.read t <;> rfl
  | node op left right ihl ihr =>
    have hoperator : ∀ a b, ([Token.operator op] ++ rest).foldlM step (b :: a :: stack) =
        op.apply a b >>= fun v => rest.foldlM step (v :: stack) := by
      intro a b
      simp only [List.singleton_append, List.foldlM_cons, step]
      cases op.apply a b <;> rfl
    rw [Tree.tokens, List.append_assoc, List.append_assoc, ihl, Tree.value_node]
    simp only [ihr, hoperator, bind_assoc]

/-- **A tree and nothing else**: its value is concluded from. -/
theorem reduce_tokens (t : Tree) : reduce t.tokens = t.value >>= fun v => conclude [v] := by
  have hfold := foldlM_tokens t [] []
  rw [List.append_nil] at hfold
  rw [reduce, hfold, bind_assoc]
  rfl

/-- Putting trees on the stack, the listing of a tree puts that tree there. -/
theorem foldlM_grow_tokens (t : Tree) (trees : List Tree) (rest : List Token) :
    (t.tokens ++ rest).foldlM Tree.grow trees = rest.foldlM Tree.grow (t :: trees) := by
  induction t generalizing trees rest with
  | numeral t => rfl
  | node op left right ihl ihr =>
    rw [Tree.tokens, List.append_assoc, List.append_assoc, ihl, ihr]
    rfl

/-! ### From a list to its trees -/

/-- **The trees on the stack** are listed by what has been read. -/
theorem flatMap_of_foldlM_grow (h : tokens.foldlM Tree.grow trees = some trees') :
    trees'.reverse.flatMap Tree.tokens = trees.reverse.flatMap Tree.tokens ++ tokens := by
  induction tokens generalizing trees with
  | nil =>
    obtain rfl : trees = trees' := Option.some.inj h
    rw [List.append_nil]
  | cons token tokens ih =>
    rw [List.foldlM_cons] at h
    obtain ⟨grown, hgrow, hfold⟩ := Option.bind_eq_some_iff.1 h
    rw [ih hfold]
    match token, trees, hgrow with
    | .numeral t, trees, hgrow =>
      obtain rfl := Option.some.inj hgrow
      simp [Tree.tokens]
    | .operator op, right :: left :: trees, hgrow =>
      obtain rfl := Option.some.inj hgrow
      simp [Tree.tokens]

/-- **A list is the listing of one tree at most**, which can be found. -/
theorem Tree.ofTokens?_eq_some_iff {t : Tree} : ofTokens? tokens = some t ↔ t.tokens = tokens := by
  constructor
  · intro h
    rw [ofTokens?] at h
    split at h
    · rename_i u hfold
      obtain rfl : u = t := Option.some.inj h
      simpa using flatMap_of_foldlM_grow hfold
    · cases h
  · rintro rfl
    have hfold := foldlM_grow_tokens t [] []
    rw [List.append_nil] at hfold
    rw [ofTokens?, hfold]
    rfl

/-- A computation in two steps succeeds if both do. -/
theorem bind_eq_ok_iff {α β : Type} {r : Except EvalError α} {k : α → Except EvalError β} {b : β} :
    r >>= k = .ok b ↔ ∃ a, r = .ok a ∧ k a = .ok b := by
  cases r with
  | error e => exact iff_of_false (fun h => nomatch h) fun ⟨_, h, _⟩ => nomatch h
  | ok a => exact ⟨fun h => ⟨a, rfl, h⟩, fun ⟨_, ha, h⟩ => Except.ok.inj ha ▸ h⟩

/-- **What a token does** if it does not end the reduction. -/
theorem step_eq_ok_cases (h : step stack token = .ok stack') :
    (∃ t v, token = .numeral t ∧ Numeral.read t = some v ∧ stack' = v :: stack) ∨
      ∃ op a b rest v, token = .operator op ∧ stack = b :: a :: rest ∧ op.apply a b = .ok v ∧
        stack' = v :: rest := by
  match token, stack with
  | .numeral t, stack =>
    rw [step] at h
    cases hread : Numeral.read t with
    | none =>
      rw [hread] at h
      cases h
    | some v =>
      rw [hread] at h
      exact .inl ⟨t, v, rfl, hread, (Except.ok.inj h).symm⟩
  | .operator op, b :: a :: rest =>
    rw [step] at h
    cases happly : op.apply a b with
    | error e =>
      rw [happly] at h
      cases h
    | ok v =>
      rw [happly] at h
      exact .inr ⟨op, a, b, rest, v, rfl, rfl, happly, (Except.ok.inj h).symm⟩

/-- **What ends the reduction at a token**: a numeral that cannot be read, an operator that lacks an
operand, or a zero divisor. -/
theorem step_eq_error_cases (h : step stack token = .error e) :
    (∃ t, token = .numeral t ∧ Numeral.read t = none ∧ e = .malformedNumeral) ∨
      (∃ op, token = .operator op ∧ stack.length < 2 ∧ e = .missingOperand) ∨
        ∃ a b rest, token = .operator .divide ∧ stack = b :: a :: rest ∧ b.isZero ∧
          e = .divisionByZero a := by
  match token, stack with
  | .numeral t, stack =>
    rw [step] at h
    cases hread : Numeral.read t with
    | none =>
      rw [hread] at h
      exact .inl ⟨t, rfl, hread, (Except.error.inj h).symm⟩
    | some v =>
      rw [hread] at h
      cases h
  | .operator op, [] | .operator op, [_] =>
    exact .inr (.inl ⟨op, rfl, by simp, (Except.error.inj h).symm⟩)
  | .operator op, b :: a :: rest =>
    rw [step] at h
    cases op with
    | divide =>
      rw [Operator.apply] at h
      split at h
      · rename_i hzero
        exact .inr (.inr ⟨a, b, rest, rfl, rfl, hzero, (Except.error.inj h).symm⟩)
      · cases h
    | _ => cases h

/-- One token keeps trees and values together. -/
theorem Holds.grow (h : Holds trees stack) (hstep : step stack token = .ok stack') :
    ∃ trees', Tree.grow trees token = some trees' ∧ Holds trees' stack' := by
  rcases step_eq_ok_cases hstep with ⟨t, v, rfl, hread, rfl⟩ |
    ⟨op, a, b, rest, v, rfl, rfl, happly, rfl⟩
  · have hvalue : (Tree.numeral t).value = .ok v := by rw [Tree.value, hread]
    exact ⟨_, rfl, .cons hvalue h⟩
  · rcases h with _ | ⟨hright, _ | ⟨hleft, hrest⟩⟩
    have hvalue : ∀ left right : Tree, left.value = .ok a → right.value = .ok b →
        (Tree.node op left right).value = .ok v := by
      intro left right hleft hright
      rw [Tree.value_node, hleft, hright]
      exact happly
    exact ⟨_, rfl, .cons (hvalue _ _ hleft hright) hrest⟩

/-- **Trees beside values.** -/
theorem foldlM_grow_of_ok (h : Holds trees stack) (hfold : tokens.foldlM step stack = .ok stack') :
    ∃ trees', tokens.foldlM Tree.grow trees = some trees' ∧ Holds trees' stack' := by
  induction tokens generalizing trees stack with
  | nil =>
    obtain rfl : stack = stack' := Except.ok.inj hfold
    exact ⟨trees, rfl, h⟩
  | cons token tokens ih =>
    rw [List.foldlM_cons, bind_eq_ok_iff] at hfold
    obtain ⟨next, hstep, hfold⟩ := hfold
    obtain ⟨grown, hgrow, hnext⟩ := h.grow hstep
    obtain ⟨trees', htrees, hholds⟩ := ih hnext hfold
    refine ⟨trees', ?_, hholds⟩
    rw [List.foldlM_cons, hgrow]
    exact htrees

/-- Without a division there is no zero divisor. -/
theorem not_meetsZeroDivisor (h : .operator .divide ∉ tokens) : ¬ MeetsZeroDivisor tokens := by
  rintro ⟨before, rest, _, _, _, rfl, -⟩
  exact h (List.mem_append_right before (.head rest))

/-- A reduction that ends early does so at some token. -/
theorem exists_step_of_error (h : tokens.foldlM step stack = .error e) :
    ∃ before token rest next, tokens = before ++ token :: rest ∧
      before.foldlM step stack = .ok next ∧ step next token = .error e := by
  induction tokens generalizing stack with
  | nil => cases h
  | cons token tokens ih =>
    cases hstep : step stack token with
    | error e' =>
      rw [List.foldlM_cons, hstep] at h
      obtain rfl : e' = e := Except.error.inj h
      exact ⟨[], token, tokens, stack, rfl, rfl, hstep⟩
    | ok next =>
      rw [List.foldlM_cons, hstep] at h
      obtain ⟨before, token', rest, last, rfl, hbefore, hlast⟩ := ih h
      refine ⟨token :: before, token', rest, last, rfl, ?_, hlast⟩
      rw [List.foldlM_cons, hstep]
      exact hbefore

/-- **The values that are left** are those of trees, whose listings make up the list. -/
theorem exists_trees (h : tokens.foldlM step [] = .ok stack) :
    ∃ trees, trees.reverse.flatMap Tree.tokens = tokens ∧ Holds trees stack := by
  have hempty : Holds [] [] := .nil
  obtain ⟨trees, hgrow, hholds⟩ := foldlM_grow_of_ok hempty h
  exact ⟨trees, flatMap_of_foldlM_grow hgrow, hholds⟩

/-- Only one value that is left can be the result, or be no finite one. -/
theorem foldlM_eq_singleton
    (h : (∃ v, reduce tokens = .ok v) ∨ reduce tokens = .error .nonFiniteResult) :
    ∃ v, tokens.foldlM step [] = .ok [v] := by
  cases hfold : tokens.foldlM step [] with
  | error e =>
    rw [reduce_of_error hfold] at h
    obtain rfl : e = .nonFiniteResult := by simpa using h
    obtain ⟨_, _, _, _, -, -, hstep⟩ := exists_step_of_error hfold
    rcases step_eq_error_cases hstep with ⟨_, -, -, he⟩ | ⟨_, -, -, he⟩ | ⟨_, _, _, -, -, -, he⟩ <;>
      cases he
  | ok stack =>
    rw [reduce_of_ok hfold] at h
    match stack with
    | [] => exact absurd h (by simp [conclude])
    | [v] => exact ⟨v, rfl⟩
    | _ :: _ :: _ => exact absurd h (by simp [conclude])

/-- **A list that is reduced to one value** is the listing of a tree that has this value. -/
theorem exists_tree {v : Binary64} (h : tokens.foldlM step [] = .ok [v]) :
    ∃ t : Tree, t.tokens = tokens ∧ t.value = .ok v := by
  obtain ⟨trees, hlist, hholds⟩ := exists_trees h
  rcases hholds with _ | ⟨hvalue, _ | _⟩
  exact ⟨_, by simpa using hlist, hvalue⟩

/-- **A list that lists no tree**, but can be read and divided, lacks an operand or has one too
many. -/
theorem reduce_of_not_listing (hread : ∀ t, .numeral t ∈ tokens → ∃ v, Numeral.read t = some v)
    (hlisting : ∀ t : Tree, t.tokens ≠ tokens) (hzero : ¬ MeetsZeroDivisor tokens) :
    reduce tokens = .error (if tokens = [] then .emptyExpression else .missingOperand) := by
  cases hfold : tokens.foldlM step [] with
  | error e =>
    rw [reduce_of_error hfold]
    obtain ⟨before, token, rest, next, rfl, hbefore, hstep⟩ := exists_step_of_error hfold
    rw [if_neg (by simp)]
    rcases step_eq_error_cases hstep with ⟨t, rfl, hnone, -⟩ | ⟨op, -, -, rfl⟩ |
      ⟨a, b, stack, rfl, rfl, hb, -⟩
    · obtain ⟨v, hv⟩ := hread t (by simp)
      cases hnone.symm.trans hv
    · rfl
    · exact absurd ⟨before, rest, a, b, stack, rfl, hbefore, hb⟩ hzero
  | ok stack =>
    rw [reduce_of_ok hfold]
    obtain ⟨trees, hlist, hholds⟩ := exists_trees hfold
    rcases hholds with _ | ⟨-, _ | _⟩
    · obtain rfl : [] = tokens := hlist
      rfl
    · exact absurd (by simpa using hlist) (hlisting _)
    · have hne : tokens ≠ [] := by
        rintro rfl
        cases hfold
      rw [if_neg hne]
      rfl

/-- **Postfix reduction is evaluation of trees.** The listing of a tree is reduced to the value of
the tree, which must be finite, or to the error that its evaluation meets first. A list that is
reduced to a value, or to none because that is not finite, is the listing of exactly one tree, and
the value is that of the tree. Any other list whose numerals can be read lacks an operand, or has
too many, unless it is empty or comes to a zero divisor. -/
theorem reduce_postorder :
    (∀ t : Tree, reduce t.tokens = t.value >>= fun v =>
      if v.isFinite then .ok v else .error .nonFiniteResult) ∧
    (∀ tokens, (∃ v, reduce tokens = .ok v) ∨ reduce tokens = .error .nonFiniteResult →
      ∃ t : Tree, (∀ t' : Tree, t'.tokens = tokens ↔ t' = t) ∧
        ∀ v, reduce tokens = .ok v → t.value = .ok v) ∧
    ∀ tokens, (∀ t, .numeral t ∈ tokens → ∃ v, Numeral.read t = some v) →
      (∀ t : Tree, t.tokens ≠ tokens) → ¬ MeetsZeroDivisor tokens →
        reduce tokens = .error (if tokens = [] then .emptyExpression else .missingOperand) := by
  refine ⟨reduce_tokens, fun tokens h => ?_, fun tokens => reduce_of_not_listing⟩
  obtain ⟨v, hfold⟩ := foldlM_eq_singleton h
  obtain ⟨t, ht, hvalue⟩ := exists_tree hfold
  refine ⟨t, fun t' => ?_, fun w hw => ?_⟩
  · rw [← Tree.ofTokens?_eq_some_iff, Tree.ofTokens?_eq_some_iff.2 ht, Option.some.injEq, eq_comm]
  · rw [← ht, reduce_tokens, hvalue] at hw
    have hconclude : (if v.isFinite then Except.ok v else Except.error EvalError.nonFiniteResult) =
        .ok w := hw
    split at hconclude
    · rw [hvalue, hconclude]
    · cases hconclude

/-- A tree that leans to the right, one with two faults, and a list with an operator too many. -/
theorem reduce_postorder_one_of_each :
    (∃ t : Tree, (∀ t' : Tree, t'.tokens = [.numeral ['2'], .numeral ['3'], .numeral ['4'],
        .operator .minus, .operator .times] ↔ t' = t) ∧
      ∀ v, reduce [.numeral ['2'], .numeral ['3'], .numeral ['4'], .operator .minus,
        .operator .times] = .ok v → t.value = .ok v) ∧
    reduce (Tree.node .plus (.node .divide (.numeral ['1']) (.numeral ['0']))
        (.numeral ['.'])).tokens = .error (.divisionByZero 1) ∧
    reduce [.numeral ['1'], .numeral ['2'], .operator .plus, .operator .plus] =
      .error .missingOperand := by
  refine ⟨reduce_postorder.2.1 _ (.inl ⟨-2, by decide +kernel⟩),
    (reduce_postorder.1 _).trans (by decide +kernel),
    reduce_postorder.2.2 _ (fun t ht => ?_) (fun t ht => ?_) (not_meetsZeroDivisor (by decide))⟩
  · obtain rfl | rfl : t = ['1'] ∨ t = ['2'] := by simpa using ht
    · exact ⟨1, by decide +kernel⟩
    · exact ⟨2, by decide +kernel⟩
  · cases Tree.ofTokens?_eq_some_iff.2 ht

end Postfix
end PocketCalculator
