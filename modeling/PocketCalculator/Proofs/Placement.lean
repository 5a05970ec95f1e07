/-
# Where postfix order puts each token

An operator waits from its place among the tokens up to the first later operator that binds no
tighter, its *closer*, or up to the end if there is none. Postfix order takes it behind just what
stands in between, and leaves every numeral where it is:

| tokens | postfix order |
| --- | --- |
| `8 - 3 - 2` | `8 3 - 2 -` |
| `5 + 3 * 2` | `5 3 2 * +` |
| `1 * + - 2` | `1 * + 2 -` |

This needs no stack to be said (`Postfix.ofInfix_placement`), and it holds of every list of tokens.
The stack comes in once: `Postfix.ofInfixFrom_release` says that an operator on it divides what
follows at its closer. The positions are then ordered span by span (`Postfix.exists_orders`), because
the span in which an operator waits holds those of all operators in it (`Postfix.closer_le_closer`).

Two operators that come to stand behind the same numerals are in reverse order if the first still
waits when the second arrives. As the last line of the table shows, it may have been closed before
that where operators stand side by side (`Postfix.not_reversed_of_neighbours`).
-/

import Mathlib.Data.List.Nodup
import Mathlib.Logic.Equiv.Defs
import PocketCalculator.Postfix
import PocketCalculator.Proofs.TokenGrammar

namespace PocketCalculator

/-- A token that is a numeral has its text. -/
theorem Token.exists_numeral {token : Token} (h : token.isNumeral) :
    ∃ t, token = .numeral t := by
  cases token with
  | numeral t => exact ⟨t, rfl⟩
  | operator op => simp at h

namespace Postfix

/-- Whether a token ends the wait of an operator: an operator that binds no tighter. -/
def closes (op : Operator) : Token → Bool
  | .numeral _ => false
  | .operator next => next.precedence ≤ op.precedence

/-- The position of the first operator behind `i` that binds no tighter than `op`, or the number of
tokens if there is none. -/
def closer (tokens : List Token) (i : ℕ) (op : Operator) : ℕ :=
  i + 1 + (tokens.drop (i + 1)).findIdx (closes op)

/-- A position in postfix order for every position of a list, with the same token at both. -/
structure Placement (tokens : List Token) where
  position : Fin tokens.length ≃ Fin (ofInfix tokens).length
  token (i : Fin tokens.length) : (ofInfix tokens)[position i] = tokens[i]

/-- Whether two tokens come to stand behind the same numerals. -/
def Placement.SameGap {tokens : List Token} (p : Placement tokens) (i k : Fin tokens.length) :
    Prop :=
  ∀ m : Fin tokens.length, tokens[m].isNumeral →
    (p.position m < p.position i ↔ p.position m < p.position k)

/-- Whether the token at `a` precedes the one at `b` in postfix order: it stands before it and does
not wait for it, or behind it and the one at `b` still waits. -/
def Precedes (tokens : List Token) (a b : ℕ) : Prop :=
  a < b ∧ (∀ op, tokens[a]? = some (.operator op) → closer tokens a op ≤ b) ∨
    b < a ∧ ∃ op, tokens[b]? = some (.operator op) ∧ a < closer tokens b op

variable {tokens inner outer : List Token} {token : Token} {op next : Operator}
  {above waiting : List Operator} {a b i k : ℕ}

/-! ### The closer of an operator -/

/-- The closer stands behind its operator. -/
theorem lt_closer : i < closer tokens i op := by
  unfold closer
  omega

/-- Or there is none before the end of the tokens. -/
theorem closer_le_length (hi : i < tokens.length) : closer tokens i op ≤ tokens.length := by
  have hle : (tokens.drop (i + 1)).findIdx (closes op) ≤ (tokens.drop (i + 1)).length :=
    List.findIdx_le_length
  rw [List.length_drop] at hle
  unfold closer
  omega

/-- Nothing before the closer ends the wait. -/
theorem closes_of_lt_closer (hik : i < k) (hk : k < closer tokens i op)
    (htoken : tokens[k]? = some token) : closes op token = false := by
  obtain ⟨d, rfl⟩ : ∃ d, k = i + 1 + d := ⟨k - (i + 1), by omega⟩
  have hd : d < (tokens.drop (i + 1)).findIdx (closes op) := by
    unfold closer at hk
    omega
  rw [← List.getElem?_drop] at htoken
  obtain ⟨-, rfl⟩ := List.getElem?_eq_some_iff.1 htoken
  simpa using List.not_of_lt_findIdx hd

/-- Whatever ends the wait is the closer or stands behind it. -/
theorem closer_le_of_closes (hik : i < k) (htoken : tokens[k]? = some token)
    (hcloses : closes op token) : closer tokens i op ≤ k := by
  by_contra hlt
  have hnot := closes_of_lt_closer hik (Nat.lt_of_not_le hlt) htoken
  rw [hcloses] at hnot
  cases hnot

/-- The closer ends the wait, if there is one. -/
theorem closes_closer (htoken : tokens[closer tokens i op]? = some token) : closes op token := by
  rw [closer, ← List.getElem?_drop] at htoken
  obtain ⟨hlt, htoken⟩ := List.getElem?_eq_some_iff.1 htoken
  rw [← htoken]
  exact List.findIdx_getElem

/-- **Waits are nested.** An operator that arrives while another one waits is closed no later. -/
theorem closer_le_closer (hik : i < k) (hk : k < closer tokens i op)
    (hnext : tokens[k]? = some (.operator next)) :
    closer tokens k next ≤ closer tokens i op := by
  have htighter : op.precedence < next.precedence := by
    simpa [closes] using closes_of_lt_closer hik hk hnext
  obtain ⟨hlength, -⟩ := List.getElem?_eq_some_iff.1 hnext
  cases hclose : tokens[closer tokens i op]? with
  | none =>
    rw [List.getElem?_eq_none_iff] at hclose
    exact Nat.le_trans (closer_le_length hlength) hclose
  | some token =>
    have hcloses := closes_closer hclose
    refine closer_le_of_closes hk hclose ?_
    cases token with
    | numeral t => simp [closes] at hcloses
    | operator last =>
      simp only [closes, decide_eq_true_eq] at hcloses ⊢
      omega

/-! ### The stack -/

/-- What a condition releases from a stack does not depend on what lies below the first operator
that fails it. -/
theorem takeWhile_append_cons (above waiting : List Operator) {p : Operator → Bool}
    (hop : p op = false) :
    (above ++ op :: waiting).takeWhile p = above.takeWhile p ∧
      (above ++ op :: waiting).dropWhile p = above.dropWhile p ++ op :: waiting := by
  induction above with
  | nil => simp [hop]
  | cons top above ih =>
    simp only [List.cons_append, List.takeWhile_cons, List.dropWhile_cons]
    split
    · exact ⟨by rw [ih.1], ih.2⟩
    · exact ⟨rfl, rfl⟩

/-- **An operator on the stack** divides what follows at its closer: what stands before is ordered
over it and what stands behind is ordered under it. The induction is along what stands before, and
the operators above bind tighter all the time. -/
theorem ofInfixFrom_release (habove : ∀ top ∈ above, op.precedence < top.precedence)
    (hinner : ∀ token ∈ inner, closes op token = false)
    (houter : ∀ token ∈ outer.head?, closes op token) :
    ofInfixFrom (above ++ op :: waiting) (inner ++ outer) =
      ofInfixFrom above inner ++ .operator op :: ofInfixFrom waiting outer := by
  induction inner generalizing above with
  | nil =>
    cases outer with
    | nil => simp [ofInfixFrom]
    | cons token outer =>
      have hcloses := houter token rfl
      cases token with
      | numeral t => simp [closes] at hcloses
      | operator next =>
        -- The closer releases all that is above, since it binds tighter, and `op` itself.
        simp only [closes, decide_eq_true_eq] at hcloses
        have hreleased : ∀ top ∈ above, decide (next.precedence ≤ top.precedence) = true := by
          intro top htop
          have htop := habove top htop
          rw [decide_eq_true_eq]
          omega
        simp [ofInfixFrom, List.takeWhile_append_of_pos hreleased,
          List.dropWhile_append_of_pos hreleased, hcloses]
  | cons token inner ih =>
    obtain ⟨htoken, hrest⟩ := List.forall_mem_cons.1 hinner
    cases token with
    | numeral t =>
      simp only [List.cons_append, ofInfixFrom]
      rw [ih habove hrest]
    | operator next =>
      -- The next operator does not close `op`: it releases at most what is above, and joins it.
      have htighter : op.precedence < next.precedence := by simpa [closes] using htoken
      have hkept : decide (next.precedence ≤ op.precedence) = false := by
        rw [decide_eq_false_iff_not]
        omega
      obtain ⟨htake, hdrop⟩ := takeWhile_append_cons above waiting
        (p := fun top => next.precedence ≤ top.precedence) hkept
      have hnext : ∀ top ∈ next :: above.dropWhile (fun top => next.precedence ≤ top.precedence),
          op.precedence < top.precedence :=
        List.forall_mem_cons.2 ⟨htighter, fun top htop =>
          habove top ((List.dropWhile_sublist _).subset htop)⟩
      simp only [List.cons_append, ofInfixFrom, htake, hdrop]
      rw [← List.cons_append, ih hnext hrest, List.append_assoc]

/-- **An operator in front** of what it waits for comes behind it, and before the rest. -/
theorem ofInfix_operator (hinner : ∀ token ∈ inner, closes op token = false)
    (houter : ∀ token ∈ outer.head?, closes op token) :
    ofInfix (.operator op :: (inner ++ outer)) =
      ofInfix inner ++ .operator op :: ofInfix outer :=
  @ofInfixFrom_release _ _ _ [] [] (by simp) hinner houter

/-! ### The order of the positions -/

/-- The tokens from a position on, so many of them. -/
def slice (tokens : List Token) (start count : ℕ) : List Token :=
  (List.range' start count).filterMap (tokens[·]?)

/-- A slice in two parts. -/
theorem slice_append (tokens : List Token) (start count more : ℕ) :
    slice tokens start (count + more) =
      slice tokens start count ++ slice tokens (start + count) more := by
  simp [slice, ← List.range'_append_1]

/-- A slice begins with the token at its start. -/
theorem slice_succ {start : ℕ} (htoken : tokens[start]? = some token) (count : ℕ) :
    slice tokens start (count + 1) = token :: slice tokens (start + 1) count := by
  simp [slice, List.range'_succ, htoken]

/-- What stands behind so many tokens is the slice from there on. -/
theorem slice_append_length (before tokens : List Token) :
    slice (before ++ tokens) before.length tokens.length = tokens := by
  induction tokens generalizing before with
  | nil => rfl
  | cons token tokens ih =>
    have htoken : (before ++ token :: tokens)[before.length]? = some token := by simp
    have hrest := ih (before ++ [token])
    rw [List.append_assoc, List.singleton_append, List.length_append, List.length_singleton]
      at hrest
    rw [List.length_cons, slice_succ htoken, hrest]

/-- A token of a slice has its position in it. -/
theorem mem_slice {start count : ℕ} (h : token ∈ slice tokens start count) :
    ∃ k, start ≤ k ∧ k < start + count ∧ tokens[k]? = some token := by
  obtain ⟨k, hk, htoken⟩ := List.mem_filterMap.1 h
  rw [List.mem_range'_1] at hk
  exact ⟨k, hk.1, hk.2, htoken⟩

/-- The first token of a slice is the one at its start. -/
theorem getElem?_of_mem_head?_slice {start count : ℕ}
    (h : token ∈ (slice tokens start count).head?) : tokens[start]? = some token := by
  cases count with
  | zero => simp [slice] at h
  | succ count =>
    cases hstart : tokens[start]? with
    | some first =>
      rw [slice_succ hstart] at h
      simpa using h
    | none =>
      obtain ⟨k, hk, -, htoken⟩ := mem_slice (List.mem_of_mem_head? h)
      rw [List.getElem?_eq_none_iff] at hstart
      obtain ⟨hlength, -⟩ := List.getElem?_eq_some_iff.1 htoken
      omega

/-- An order of the positions of a span that gives its tokens in postfix order. -/
structure Orders (tokens : List Token) (start count : ℕ) (order : List ℕ) : Prop where
  perm : order.Perm (List.range' start count)
  list : order.map (tokens[·]?) = (ofInfix (slice tokens start count)).map some
  precedes : order.Pairwise (Precedes tokens)

/-- The positions in the order are those of the span. -/
theorem Orders.mem_iff {start count : ℕ} {order : List ℕ} (h : Orders tokens start count order) :
    k ∈ order ↔ start ≤ k ∧ k < start + count := by
  rw [h.perm.mem_iff, List.mem_range'_1]

/-- No positions are in order. -/
theorem Orders.nil (tokens : List Token) (start : ℕ) : Orders tokens start 0 [] :=
  ⟨.refl _, rfl, .nil⟩

/-- A numeral stays in front. -/
theorem Orders.numeral {start count : ℕ} {order : List ℕ} {t : Text}
    (htoken : tokens[start]? = some (.numeral t)) (h : Orders tokens (start + 1) count order) :
    Orders tokens start (count + 1) (start :: order) := by
  constructor
  · rw [List.range'_succ]
    exact h.perm.cons start
  · rw [slice_succ htoken, List.map_cons, htoken, h.list]
    rfl
  · refine List.pairwise_cons.2 ⟨fun b hb => .inl ?_, h.precedes⟩
    obtain ⟨hb, -⟩ := h.mem_iff.1 hb
    refine ⟨by omega, fun op hop => ?_⟩
    simp [htoken] at hop

/-- An operator is taken behind the span in which it waits. -/
theorem Orders.operator {start count more : ℕ} {inner outer : List ℕ}
    (htoken : tokens[start]? = some (.operator op))
    (hcloser : closer tokens start op = start + 1 + count)
    (hinner : Orders tokens (start + 1) count inner)
    (houter : Orders tokens (start + 1 + count) more outer) :
    Orders tokens start (count + more + 1) (inner ++ start :: outer) := by
  constructor
  · rw [List.range'_succ, ← List.range'_append_1]
    exact List.perm_middle.trans ((hinner.perm.append houter.perm).cons start)
  · have hwait : ∀ token ∈ slice tokens (start + 1) count, closes op token = false := by
      intro token hmem
      obtain ⟨k, hk, hcount, hget⟩ := mem_slice hmem
      exact closes_of_lt_closer (i := start) (by omega) (by omega) hget
    have hclose : ∀ token ∈ (slice tokens (start + 1 + count) more).head?, closes op token := by
      intro token hmem
      rw [← hcloser] at hmem
      exact closes_closer (getElem?_of_mem_head?_slice hmem)
    rw [slice_succ htoken, slice_append, ofInfix_operator hwait hclose, List.map_append,
      List.map_append, List.map_cons, List.map_cons, htoken, hinner.list, houter.list]
  · -- Three pairs are new: the operator and what follows its closer, what it waits for and the
    -- operator, and what it waits for and what follows.
    refine List.pairwise_append.2 ⟨hinner.precedes, List.pairwise_cons.2 ⟨fun b hb => .inl ?_,
      houter.precedes⟩, fun a ha => List.forall_mem_cons.2 ⟨.inr ?_, fun b hb => .inl ?_⟩⟩
    · obtain ⟨hb, -⟩ := houter.mem_iff.1 hb
      refine ⟨by omega, fun op' hop => ?_⟩
      obtain rfl : op = op' := by simpa [htoken] using hop
      omega
    · obtain ⟨ha, hcount⟩ := hinner.mem_iff.1 ha
      exact ⟨by omega, op, htoken, by omega⟩
    · obtain ⟨ha, hcount⟩ := hinner.mem_iff.1 ha
      obtain ⟨hb, -⟩ := houter.mem_iff.1 hb
      refine ⟨by omega, fun next hnext => ?_⟩
      -- An operator in the span is closed there, since `op` is closed at its end.
      have hnested : closer tokens a next ≤ closer tokens start op :=
        closer_le_closer (by omega) (by omega) hnext
      omega

/-- **A span in which every operator is closed** can be ordered. The induction is on its length: an
operator that begins it parts the rest at its closer. -/
theorem exists_orders (count start : ℕ) (hlength : start + count ≤ tokens.length)
    (hclosed : ∀ k op, start ≤ k → k < start + count → tokens[k]? = some (.operator op) →
      closer tokens k op ≤ start + count) :
    ∃ order, Orders tokens start count order := by
  induction count using Nat.strongRecOn generalizing start with
  | _ count ih =>
  cases count with
  | zero => exact ⟨[], .nil tokens start⟩
  | succ count =>
    have hstart : start < tokens.length := by omega
    have htoken : tokens[start]? = some tokens[start] := List.getElem?_eq_getElem hstart
    generalize tokens[start] = token at htoken
    cases token with
    | numeral t =>
      obtain ⟨order, horder⟩ := ih count (by omega) (start + 1) (by omega) fun k op hk hlt hop => by
        have hle := hclosed k op (by omega) (by omega) hop
        omega
      exact ⟨_, horder.numeral htoken⟩
    | operator op =>
      have hlt : start < closer tokens start op := lt_closer
      have hle := hclosed start op (by omega) (by omega) htoken
      obtain ⟨d, hd⟩ : ∃ d, closer tokens start op = start + 1 + d :=
        ⟨closer tokens start op - (start + 1), by omega⟩
      obtain ⟨more, rfl⟩ : ∃ more, count = d + more := ⟨count - d, by omega⟩
      obtain ⟨inner, hinner⟩ := ih d (by omega) (start + 1) (by omega) fun k next hk hlt hnext => by
        have hnested : closer tokens k next ≤ closer tokens start op :=
          closer_le_closer (by omega) (by omega) hnext
        omega
      obtain ⟨outer, houter⟩ := ih more (by omega) (start + 1 + d) (by omega)
        fun k next hk hlt hnext => by
          have hle := hclosed k next (by omega) (by omega) hnext
          omega
      exact ⟨_, Orders.operator htoken hd hinner houter⟩

/-! ### Placements -/

/-- Of two tokens only one precedes the other. -/
theorem Precedes.asymm (h : Precedes tokens a b) : ¬ Precedes tokens b a := by
  rintro (⟨hba, hb⟩ | ⟨hab, op, hop, hlt⟩)
  · rcases h with ⟨hab, -⟩ | ⟨-, op, hop, hlt⟩
    · omega
    · have := hb op hop
      omega
  · rcases h with ⟨-, ha⟩ | ⟨hba, -⟩
    · have := ha op hop
      omega
    · omega

/-- The places of the numbers below `n` in a list that orders them. -/
def places {n m : ℕ} (order : List ℕ) (hperm : order.Perm (List.range' 0 n))
    (hlength : order.length = m) : Fin n ≃ Fin m where
  toFun i := ⟨order.idxOf i.val, by
    rw [← hlength]
    exact List.idxOf_lt_length_of_mem (hperm.mem_iff.2 (by simp [List.mem_range'_1]))⟩
  invFun j := ⟨order[j.val], by
    have hmem := hperm.mem_iff.1 (List.getElem_mem (by omega : j.val < order.length))
    simpa [List.mem_range'_1] using hmem⟩
  left_inv i := Fin.ext (List.getElem_idxOf _)
  right_inv j := Fin.ext ((hperm.nodup_iff.2 List.nodup_range').idxOf_getElem _ _)

/-- At its place in the list stands the number itself. -/
theorem getElem?_places {n m : ℕ} {order : List ℕ} (hperm : order.Perm (List.range' 0 n))
    (hlength : order.length = m) (i : Fin n) :
    order[(places order hperm hlength i).val]? = some i.val :=
  List.getElem?_idxOf (hperm.mem_iff.2 (by simp [List.mem_range'_1]))

/-- **The positions have a place each** in postfix order, before those that they precede. -/
theorem exists_placement (tokens : List Token) :
    ∃ p : Placement tokens, ∀ i k : Fin tokens.length,
      p.position i < p.position k ↔ Precedes tokens i k := by
  have hclosed : ∀ k op, 0 ≤ k → k < 0 + tokens.length → tokens[k]? = some (.operator op) →
      closer tokens k op ≤ 0 + tokens.length := by
    intro k op _ hk _
    rw [Nat.zero_add] at hk ⊢
    exact closer_le_length hk
  obtain ⟨order, hperm, hlist, hprecedes⟩ := exists_orders tokens.length 0 (by omega) hclosed
  have hslice : slice tokens 0 tokens.length = tokens := slice_append_length [] tokens
  rw [hslice] at hlist
  have hlength : order.length = (ofInfix tokens).length := by
    simpa using congrArg List.length hlist
  have hget := getElem?_places hperm hlength
  generalize places order hperm hlength = position at hget
  have hrelated : ∀ i k, position i < position k → Precedes tokens i k := by
    intro i k hlt
    obtain ⟨hi, hgeti⟩ := List.getElem?_eq_some_iff.1 (hget i)
    obtain ⟨hk, hgetk⟩ := List.getElem?_eq_some_iff.1 (hget k)
    rw [← hgeti, ← hgetk]
    exact List.pairwise_iff_getElem.1 hprecedes _ _ hi hk hlt
  refine ⟨⟨position, fun i => ?_⟩, fun i k => ⟨hrelated i k, fun hik => ?_⟩⟩
  · have hposition := congrArg (·[(position i).val]?) hlist
    simpa [hget i] using hposition.symm
  · rcases Nat.lt_trichotomy (position i) (position k) with hlt | heq | hlt
    · exact hlt
    · obtain rfl : i = k := position.injective (Fin.ext heq)
      exact absurd hik hik.asymm
    · exact absurd hik (hrelated k i hlt).asymm

/-- A later token precedes an operator that still waits when it arrives. -/
theorem precedes_operator_iff (hb : tokens[b]? = some (.operator op)) (hba : b < a) :
    Precedes tokens a b ↔ a < closer tokens b op := by
  simp [Precedes, hb, hba, Nat.lt_asymm hba]

/-- A numeral precedes an operator just if it stands before its closer. -/
theorem numeral_precedes_iff {t : Text} (ha : tokens[a]? = some (.numeral t))
    (hb : tokens[b]? = some (.operator op)) : Precedes tokens a b ↔ a < closer tokens b op := by
  rcases Nat.lt_trichotomy a b with hab | rfl | hba
  · have hlt : a < closer tokens b op := Nat.lt_trans hab lt_closer
    simp [Precedes, ha, hab, hlt]
  · simp [ha] at hb
  · exact precedes_operator_iff hb hba

/-- Numerals precede each other as they stand. -/
theorem numeral_precedes_numeral_iff {s t : Text} (ha : tokens[a]? = some (.numeral s))
    (hb : tokens[b]? = some (.numeral t)) : Precedes tokens a b ↔ a < b := by
  simp [Precedes, ha, hb]

/-- **Numerals keep their order.** Only operators wait. -/
theorem filter_isNumeral_ofInfixFrom (waiting : List Operator) (tokens : List Token) :
    (ofInfixFrom waiting tokens).filter Token.isNumeral = tokens.filter Token.isNumeral := by
  have hoperators : ∀ ops : List Operator, (ops.map Token.operator).filter Token.isNumeral = [] := by
    simp
  induction tokens generalizing waiting with
  | nil => exact hoperators waiting
  | cons token tokens ih =>
    cases token with
    | numeral t => simp [ofInfixFrom, List.filter_cons, ih]
    | operator op => simp [ofInfixFrom, hoperators, ih]

/-- The operators on the stack and the tokens that follow are all that comes out. -/
theorem ofInfixFrom_perm (waiting : List Operator) (tokens : List Token) :
    (ofInfixFrom waiting tokens).Perm (waiting.map .operator ++ tokens) := by
  induction tokens generalizing waiting with
  | nil => simp [ofInfixFrom]
  | cons token tokens ih =>
    cases token with
    | numeral t => exact ((ih waiting).cons _).trans List.perm_middle.symm
    | operator op =>
      let released (top : Operator) : Bool := op.precedence ≤ top.precedence
      calc
        _ = (waiting.takeWhile released).map .operator ++
              ofInfixFrom (op :: waiting.dropWhile released) tokens := rfl
        List.Perm _ ((waiting.takeWhile released).map .operator ++
              (.operator op :: ((waiting.dropWhile released).map .operator ++ tokens))) :=
          (ih _).append_left _
        List.Perm _ (.operator op :: ((waiting.takeWhile released).map .operator ++
              ((waiting.dropWhile released).map .operator ++ tokens))) := List.perm_middle
        _ = .operator op :: (waiting.map .operator ++ tokens) := by
          rw [← List.append_assoc, ← List.map_append, List.takeWhile_append_dropWhile]
        List.Perm _ (waiting.map .operator ++ .operator op :: tokens) := List.perm_middle.symm

/-- **Where no two operators stand side by side**, a later operator that comes to stand behind the
same numerals as an earlier one arrives while that one waits: otherwise the numeral behind the
closer of the earlier one would come between them. -/
theorem lt_closer_of_sameGap {i k : Fin tokens.length} (next : Operator)
    (hchain : tokens.IsChain fun first second => first.isNumeral ∨ second.isNumeral)
    (hlast : k + 1 < tokens.length)
    (hgap : ∀ m t, tokens[m]? = some (.numeral t) →
      (m < closer tokens i op ↔ m < closer tokens k next)) :
    k < closer tokens i op := by
  by_contra hle
  set j := closer tokens i op with hj
  have hclose : tokens[j]? = some tokens[j] := List.getElem?_eq_getElem (by omega)
  have hoperator : tokens[j].isNumeral = false := by
    have hcloses := closes_closer hclose
    generalize tokens[j] = token at hcloses
    cases token with
    | numeral t => simp [closes] at hcloses
    | operator op => rfl
  obtain ⟨t, ht⟩ : ∃ t, tokens[j + 1] = .numeral t := by
    have hnumeral := List.isChain_iff_getElem.1 hchain j (by omega)
    rw [hoperator] at hnumeral
    exact Token.exists_numeral (by simpa using hnumeral)
  have hget : tokens[j + 1]? = some (.numeral t) := by
    rw [List.getElem?_eq_getElem (by omega), ht]
  -- The closer of `k` is an operator, so it is not the numeral behind `j`.
  have hbetween : j + 1 < closer tokens k next := by
    by_contra hnot
    have hlt : k < closer tokens k next := lt_closer
    have heq : closer tokens k next = j + 1 := by omega
    have hcloses := closes_closer (heq ▸ hget)
    simp [closes] at hcloses
  have := (hgap _ t hget).2 hbetween
  omega

/-- **Postfix order places every token by precedence.** The numerals and the operators are those of
the list, and the numerals keep their order. An operator comes to stand behind just the numerals
before its closer, and behind just those later operators that arrive before it. So operators that
come to stand behind the same numerals are in reverse order wherever no two stand side by side. -/
theorem ofInfix_placement (tokens : List Token) :
    (ofInfix tokens).Perm tokens ∧
    (ofInfix tokens).filter Token.isNumeral = tokens.filter Token.isNumeral ∧
    ∃ p : Placement tokens,
      (∀ i k : Fin tokens.length, tokens[i].isNumeral → tokens[k].isNumeral →
        (p.position i < p.position k ↔ i < k)) ∧
      (∀ (i k : Fin tokens.length) (op : Operator), tokens[i] = .operator op →
        tokens[k].isNumeral → (p.position k < p.position i ↔ k < closer tokens i op)) ∧
      (∀ (i k : Fin tokens.length) (op next : Operator), tokens[i] = .operator op →
        tokens[k] = .operator next → i < k →
          (p.position k < p.position i ↔ k < closer tokens i op)) ∧
      (tokens.IsChain (fun first second => first.isNumeral ∨ second.isNumeral) →
        ∀ (i k : Fin tokens.length) (op next : Operator), tokens[i] = .operator op →
          tokens[k] = .operator next → i < k → k + 1 < tokens.length → p.SameGap i k →
            p.position k < p.position i) := by
  refine ⟨ofInfixFrom_perm [] tokens, filter_isNumeral_ofInfixFrom [] tokens, ?_⟩
  obtain ⟨p, hp⟩ := exists_placement tokens
  have hget : ∀ (i : Fin tokens.length) {token : Token}, tokens[i] = token →
      tokens[i.val]? = some token := by
    rintro i _ rfl
    exact List.getElem?_eq_getElem i.isLt
  refine ⟨p, fun i k hi hk => ?_, fun i k op hi hk => ?_, fun i k op next hi hk hik => ?_,
    fun hchain i k op next hi hk hik hlast hgap => ?_⟩
  · obtain ⟨s, hs⟩ := Token.exists_numeral hi
    obtain ⟨t, ht⟩ := Token.exists_numeral hk
    exact (hp i k).trans (numeral_precedes_numeral_iff (hget i hs) (hget k ht))
  · obtain ⟨t, ht⟩ := Token.exists_numeral hk
    exact (hp k i).trans (numeral_precedes_iff (hget k ht) (hget i hi))
  · exact (hp k i).trans (precedes_operator_iff (hget i hi) hik)
  · refine ((hp k i).trans (precedes_operator_iff (hget i hi) hik)).2 ?_
    refine lt_closer_of_sameGap next hchain hlast fun m t hm => ?_
    obtain ⟨hlength, ht⟩ := List.getElem?_eq_some_iff.1 hm
    have hbehind : ∀ (i : Fin tokens.length) (op : Operator), tokens[i] = .operator op →
        (p.position ⟨m, hlength⟩ < p.position i ↔ m < closer tokens i op) := fun i op hi =>
      (hp ⟨m, hlength⟩ i).trans (numeral_precedes_iff hm (hget i hi))
    rw [← hbehind i op hi, ← hbehind k next hk]
    exact hgap ⟨m, hlength⟩ (by simp [ht])

/-- A sum of products: the product stands behind both its numerals and before the sum, and with the
same numerals before them the two operators are in reverse order. -/
theorem ofInfix_placement_sum :
    let tokens : List Token := [.numeral ['5'], .operator .plus, .numeral ['3'], .operator .times,
      .numeral ['2']]
    tokens.IsChain (fun first second => first.isNumeral ∨ second.isNumeral) ∧
      ∃ p : Placement tokens, p.position 0 < p.position 2 ∧ p.position 4 < p.position 3 ∧
        p.SameGap 1 3 ∧ p.position 3 < p.position 1 := by
  intro tokens
  have hchain : tokens.IsChain fun first second => first.isNumeral ∨ second.isNumeral := by decide
  obtain ⟨-, -, p, hnumerals, hbehind, hwaits, hreverse⟩ := ofInfix_placement tokens
  have hgap : p.SameGap 1 3 := by
    intro m hm
    rw [hbehind 1 m .plus rfl hm, hbehind 3 m .times rfl hm]
    exact Iff.of_eq (by rw [show closer tokens (1 : Fin 5) .plus = closer tokens (3 : Fin 5) .times
      from by decide])
  exact ⟨hchain, p, (hnumerals 0 2 rfl rfl).2 (by decide),
    (hbehind 3 4 .times rfl rfl).2 (by decide), hgap,
    hreverse hchain 1 3 .plus .times rfl rfl (by decide) (by decide) hgap⟩

/-- Side by side, operators that come to stand between the same two numerals need not be in reverse
order: here the product is closed by the sum, and the sum by the difference. -/
theorem not_reversed_of_neighbours :
    let tokens : List Token := [.numeral ['1'], .operator .times, .operator .plus,
      .operator .minus, .numeral ['2']]
    ¬ ∃ p : Placement tokens, ∀ (i k : Fin tokens.length) (op next : Operator),
      tokens[i] = .operator op → tokens[k] = .operator next → i < k → p.SameGap i k →
        (∃ m : Fin tokens.length, tokens[m].isNumeral ∧ p.position m < p.position i) →
        (∃ m : Fin tokens.length, tokens[m].isNumeral ∧ p.position k < p.position m) →
          p.position k < p.position i := by
  rintro tokens ⟨p, hreverse⟩
  -- No two of the tokens are equal, so there is one placement.
  have hunique : ∀ (m : Fin tokens.length) (j : Fin (ofInfix tokens).length),
      (ofInfix tokens)[j] = tokens[m] → j.val = [0, 1, 2, 4, 3][m] := by decide
  have hposition : ∀ m, (p.position m).val = [0, 1, 2, 4, 3][m] := fun m =>
    hunique m _ (p.token m)
  have hswapped := hreverse 1 2 .times .plus rfl rfl (by decide)
  simp only [Placement.SameGap, Fin.lt_def, hposition] at hswapped
  exact absurd (hswapped (by decide) ⟨0, by decide⟩ ⟨4, by decide⟩) (by decide)

end Postfix
end PocketCalculator
