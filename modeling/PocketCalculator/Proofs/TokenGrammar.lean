/-
# What the scanner accepts

A numeral is spelled by an optional minus and at least one digit or point, with at most one point.
`Token.Spells ts s` says that `ts` is a reading of the text `s`: numerals and operators alternate,
beginning with a numeral, every numeral is spelled as above, and the texts of the tokens are all the
characters of `s` that matter, in their order.

`Token.scan_eq_iff_spells` is the result: the scanner finds such a reading whenever there is one, so
that there is never more than one, and it reports a malformed numeral exactly when there is none.
Soundness is an induction along `scanFrom`, whose pending characters are always a numeral that has
been `Begun`. Completeness goes along the tokens: `scanFrom_append` runs the scanner over one
numeral at a time.
-/

import PocketCalculator.Token

namespace PocketCalculator

namespace Numeral

/-- The characters of a numeral behind its sign. -/
def isBodyChar (c : Char) : Bool := c.isDigit || c == '.'

end Numeral

/-- The characters that the scanner does not pass over. -/
def isSignificant (c : Char) : Bool := Numeral.isBodyChar c || isOperator c

/-! ### Operators among characters -/

/-- A character that is an operator is its symbol. -/
theorem exists_symbol {c : Char} (hc : isOperator c) : ∃ op : Operator, c = op.symbol := by
  obtain ⟨op, hop⟩ := Option.isSome_iff_exists.1 hc
  exact ⟨op, Operator.symbol_of_ofChar? hop⟩

/-- The symbol of an operator is an operator among characters. -/
theorem isOperator_symbol (op : Operator) : isOperator op.symbol := by
  cases op <;> rfl

/-- No digit and no point is an operator. -/
theorem isOperator_of_isBodyChar {c : Char} (hc : Numeral.isBodyChar c) : isOperator c = false := by
  cases hop : isOperator c with
  | false => rfl
  | true =>
    obtain ⟨op, rfl⟩ := exists_symbol hop
    cases op <;> exact absurd hc (by decide)

/-- No digit is an operator. -/
theorem isOperator_of_isDigit {c : Char} (hc : c.isDigit) : isOperator c = false :=
  isOperator_of_isBodyChar (by simp [Numeral.isBodyChar, hc])

/-! ### Numerals -/

namespace Numeral

/-- A text without the minus that begins it, if one does. -/
def unsigned : Text → Text
  | '-' :: rest => rest
  | t => t

/-- What a numeral may begin with: an optional minus, then digits and at most one point. -/
def Begun (t : Text) : Prop :=
  (∀ c ∈ unsigned t, isBodyChar c) ∧ (unsigned t).count '.' ≤ 1

/-- An optional minus, then at least one digit or point, with at most one point. -/
def Spelled (t : Text) : Prop := Begun t ∧ unsigned t ≠ []

instance : DecidablePred Spelled := fun t =>
  inferInstanceAs (Decidable (((∀ c ∈ unsigned t, isBodyChar c) ∧ (unsigned t).count '.' ≤ 1) ∧
    unsigned t ≠ []))

/-- No digit and no point is a minus. -/
theorem ne_minus_of_isBodyChar {c : Char} (hc : isBodyChar c) : c ≠ '-' := by
  rintro rfl
  exact absurd hc (by decide)

/-- A character behind a text, which is no minus, does not become its sign. -/
theorem unsigned_append_singleton (t : Text) {c : Char} (hc : c ≠ '-') :
    unsigned (t ++ [c]) = unsigned t ++ [c] := by
  unfold unsigned
  split <;> rename_i h <;> cases t <;> simp_all

/-- A text that is no more than a sign is empty or a minus. -/
theorem unsigned_eq_nil {t : Text} : unsigned t = [] ↔ t = [] ∨ t = ['-'] := by
  unfold unsigned
  split
  · simp
  · rename_i h
    refine ⟨.inl, fun ht => ht.elim id fun ht => (h [] ht).elim⟩

/-- The sign is not a point. -/
theorem point_mem_unsigned {t : Text} : '.' ∈ unsigned t ↔ '.' ∈ t := by
  unfold unsigned
  split <;> simp

/-- An empty text is the beginning of a numeral. -/
theorem Begun.nil : Begun [] := ⟨by simp [unsigned], by simp [unsigned]⟩

/-- So is a minus. -/
theorem Begun.minus : Begun ['-'] := ⟨by simp [unsigned], by simp [unsigned]⟩

/-- A digit goes on with a numeral. -/
theorem Begun.digit {t : Text} (ht : Begun t) {c : Char} (hc : c.isDigit) : Begun (t ++ [c]) := by
  have hbody : isBodyChar c := by simp [isBodyChar, hc]
  have hpoint : c ≠ '.' := by rintro rfl; exact absurd hc (by decide)
  rw [Begun, unsigned_append_singleton t (ne_minus_of_isBodyChar hbody)]
  refine ⟨fun d hd => ?_, ?_⟩
  · rcases List.mem_append.1 hd with hd | hd
    · exact ht.1 d hd
    · exact List.mem_singleton.1 hd ▸ hbody
  · rw [List.count_append, List.count_singleton]
    simpa [hpoint] using ht.2

/-- A point goes on with a numeral that has none. -/
theorem Begun.point {t : Text} (ht : Begun t) (hp : '.' ∉ t) : Begun (t ++ ['.']) := by
  rw [Begun, unsigned_append_singleton t (by decide)]
  refine ⟨fun d hd => ?_, ?_⟩
  · rcases List.mem_append.1 hd with hd | hd
    · exact ht.1 d hd
    · exact List.mem_singleton.1 hd ▸ by decide
  · have hcount : (unsigned t).count '.' = 0 :=
      List.count_eq_zero.2 (mt point_mem_unsigned.1 hp)
    rw [List.count_append, hcount]
    decide

/-- A numeral that has been begun is spelled as soon as it is more than a sign. -/
theorem Begun.spelled {t : Text} (ht : Begun t) (hnil : t ≠ []) (hminus : t ≠ ['-']) : Spelled t :=
  ⟨ht, fun h => (unsigned_eq_nil.1 h).elim hnil hminus⟩

/-- The scanner passes over no character of a numeral. -/
theorem Begun.filter_isSignificant {t : Text} (ht : Begun t) : t.filter isSignificant = t := by
  have hbody : ∀ c ∈ unsigned t, isSignificant c := fun c hc => by
    simp [isSignificant, ht.1 c hc]
  unfold unsigned at hbody
  split at hbody
  · exact List.filter_eq_self.2 (List.forall_mem_cons.2 ⟨by decide, hbody⟩)
  · exact List.filter_eq_self.2 hbody

/-- A numeral is not empty. -/
theorem Spelled.ne_nil {t : Text} (ht : Spelled t) : t ≠ [] :=
  fun h => ht.2 (unsigned_eq_nil.2 (.inl h))

/-- A numeral is more than a sign. -/
theorem Spelled.ne_minus {t : Text} (ht : Spelled t) : t ≠ ['-'] :=
  fun h => ht.2 (unsigned_eq_nil.2 (.inr h))

end Numeral

namespace Token

/-- Whether a token is a numeral. -/
def isNumeral : Token → Bool
  | .numeral _ => true
  | .operator _ => false

@[simp] theorem isNumeral_numeral (t : Text) : isNumeral (.numeral t) = true := rfl

@[simp] theorem isNumeral_operator (op : Operator) : isNumeral (.operator op) = false := rfl

/-- Numerals and operators in turn, beginning with a numeral and ending with either. -/
def Alternating : List Token → Prop
  | [] | [.numeral _] => True
  | .numeral _ :: .operator _ :: rest => Alternating rest
  | _ => False

/-- A numeral may stand behind tokens that do not end in one, an operator behind those that do. -/
theorem alternating_concat_iff {init : List Token} {token : Token} :
    Alternating (init ++ [token]) ↔
      Alternating init ∧ (token.isNumeral ↔ ¬ init.getLast?.any isNumeral) := by
  fun_induction Alternating init with
  | case1 => cases token <;> simp [Alternating]
  | case2 t => cases token <;> simp [Alternating]
  | case3 t op rest ih =>
    have hlast : (Token.numeral t :: .operator op :: rest).getLast?.any isNumeral =
        rest.getLast?.any isNumeral := by
      cases rest <;> simp
    rw [List.cons_append, List.cons_append, Alternating, ih, hlast]
  | case4 init hnil hone htwo =>
    refine iff_of_false (fun h => ?_) fun h => h.1
    rcases init with _ | ⟨t | op, _ | ⟨u | op', rest⟩⟩
    · exact hnil rfl
    · exact hone t rfl
    · exact h
    · exact htwo t op' rest rfl
    all_goals exact h

/-- `ts` is a reading of the text `s`: the tokens alternate, every numeral is spelled as one, and
together they are the significant characters of `s`. -/
structure Spells (ts : List Token) (s : Text) : Prop where
  alternating : Alternating ts
  spelled : ∀ t, .numeral t ∈ ts → Numeral.Spelled t
  complete : ts.flatMap text = s.filter isSignificant

/-! ### One character at a time -/

/-- A digit is appended to what is pending. -/
theorem scanFrom_cons_digit (p s : Text) {c : Char} (hc : c.isDigit) :
    scanFrom p (c :: s) = scanFrom (p ++ [c]) s := by
  simp [scanFrom, hc]

/-- A point is appended to what is pending, if that has none. -/
theorem scanFrom_cons_point (s : Text) {p : Text} (hp : '.' ∉ p) :
    scanFrom p ('.' :: s) = scanFrom (p ++ ['.']) s := by
  simp [scanFrom, hp, show Char.isDigit '.' = false by decide]

/-- With nothing pending a minus is a sign. -/
theorem scanFrom_cons_minus (s : Text) : scanFrom [] ('-' :: s) = scanFrom ['-'] s := by
  simp [scanFrom, show Char.isDigit '-' = false by decide, Operator.ofChar?]

/-- Behind a numeral an operator ends it. -/
theorem scanFrom_cons_symbol {p : Text} (s : Text) (op : Operator) (hnil : p ≠ [])
    (hminus : p ≠ ['-']) :
    scanFrom p (op.symbol :: s) =
      (scanFrom [] s).map (.numeral p :: .operator op :: ·) := by
  have hdigit : op.symbol.isDigit = false := by cases op <;> decide
  have hpoint : op.symbol ≠ '.' := by cases op <;> decide
  simp [scanFrom, hdigit, hpoint, Operator.ofChar?_symbol, hnil, hminus]

/-- Any other character is passed over. -/
theorem scanFrom_cons_of_not_significant (p s : Text) {c : Char} (hc : isSignificant c = false) :
    scanFrom p (c :: s) = scanFrom p s := by
  simp only [isSignificant, Numeral.isBodyChar, isOperator, Bool.or_eq_false_iff,
    beq_eq_false_iff_ne,
    Option.isSome_eq_false_iff, Option.isNone_iff_eq_none] at hc
  simp [scanFrom, hc]

/-- What is passed over does not change the tokens. -/
theorem scanFrom_filter (p s : Text) : scanFrom p (s.filter isSignificant) = scanFrom p s := by
  induction s generalizing p with
  | nil => rfl
  | cons c s ih =>
    cases hc : isSignificant c with
    | false =>
      rw [List.filter_cons_of_neg (by simp [hc]), ih, scanFrom_cons_of_not_significant p s hc]
    | true =>
      rw [List.filter_cons_of_pos hc]
      simp only [scanFrom, ih]

/-- The scanner runs over the characters of one numeral and has them pending. -/
theorem scanFrom_append (p t s : Text) (ht : ∀ c ∈ t, Numeral.isBodyChar c)
    (hp : (p ++ t).count '.' ≤ 1) : scanFrom p (t ++ s) = scanFrom (p ++ t) s := by
  induction t generalizing p with
  | nil => simp
  | cons c t ih =>
    obtain ⟨hc, ht⟩ := List.forall_mem_cons.1 ht
    have hnext : scanFrom (p ++ [c]) (t ++ s) = scanFrom (p ++ c :: t) s := by
      rw [ih (p ++ [c]) ht (by simpa using hp), List.append_assoc, List.singleton_append]
    rw [List.cons_append, ← hnext]
    by_cases hdigit : c.isDigit
    · exact scanFrom_cons_digit p _ hdigit
    · obtain rfl : c = '.' := by simpa [Numeral.isBodyChar, hdigit] using hc
      refine scanFrom_cons_point _ (List.count_eq_zero.1 ?_)
      rw [List.count_append, List.count_cons_self] at hp
      omega

/-- From the start, the scanner runs over a whole numeral with its sign. -/
theorem scanFrom_numeral {t : Text} (s : Text) (ht : Numeral.Spelled t) :
    scanFrom [] (t ++ s) = scanFrom t s := by
  obtain ⟨⟨hbody, hpoint⟩, -⟩ := ht
  unfold Numeral.unsigned at hbody hpoint
  split at hbody
  · rw [List.cons_append, scanFrom_cons_minus]
    exact scanFrom_append ['-'] _ s hbody (by simpa using hpoint)
  · exact scanFrom_append [] t s hbody (by simpa using hpoint)

/-! ### Readings -/

/-- No tokens spell no text. -/
theorem Spells.nil : Spells [] [] := ⟨trivial, by simp, rfl⟩

/-- A numeral alone spells itself. -/
theorem Spells.singleton {t : Text} (ht : Numeral.Spelled t) : Spells [.numeral t] t :=
  ⟨trivial, by simpa using ht, by simp [text, ht.1.filter_isSignificant]⟩

/-- A numeral and an operator in front of other tokens are spelled in front of their text. -/
theorem Spells.cons {t s : Text} {ts : List Token} (op : Operator) (ht : Numeral.Spelled t)
    (hs : Spells ts s) : Spells (.numeral t :: .operator op :: ts) (t ++ op.symbol :: s) := by
  refine ⟨hs.alternating, fun u hu => ?_, ?_⟩
  · rcases List.mem_cons.1 hu with hu | hu
    · exact Token.numeral.inj hu ▸ ht
    · exact hs.spelled u (by simpa using hu)
  · have hop : isSignificant op.symbol := by cases op <;> decide
    simp [text, Operator.text, List.filter_append, ht.1.filter_isSignificant, hop, hs.complete]

/-- **Soundness.** With the begun numeral `p` pending, the scanner reads `p` and the rest. -/
theorem spells_of_scanFrom {p s : Text} {ts : List Token} (hp : Numeral.Begun p)
    (h : scanFrom p s = .ok ts) : Spells ts (p ++ s) := by
  -- Along the scanner, the text that is still to be spelled is the pending numeral and the rest.
  fun_induction scanFrom p s generalizing ts with
  | case1 =>
    obtain rfl := Except.ok.inj h
    exact .nil
  | case3 p hnil hminus =>
    obtain rfl := Except.ok.inj h
    simpa using Spells.singleton (hp.spelled hnil hminus)
  | case4 p c s hc ih => simpa using ih (hp.digit hc) h
  | case6 p s hpoint _ ih => simpa using ih (hp.point hpoint) h
  | case7 p c s hdigit hpoint hop ih =>
    have hc : isSignificant c = false := by
      simp [isSignificant, Numeral.isBodyChar, isOperator, hdigit, hpoint, hop]
    obtain ⟨halt, hspelled, hcomplete⟩ := ih hp h
    refine ⟨halt, hspelled, ?_⟩
    simpa [List.filter_append, hc] using hcomplete
  | case8 p c s _ _ op hop hsign ih =>
    obtain ⟨rfl, rfl⟩ := hsign
    rw [Operator.symbol_of_ofChar? hop]
    exact ih .minus h
  | case10 p c s _ _ op hop _ hpending ih =>
    rw [not_or] at hpending
    cases hs : scanFrom [] s with
    | error e => rw [hs] at h; cases h
    | ok us =>
      rw [hs] at h
      obtain rfl := Except.ok.inj h
      rw [Operator.symbol_of_ofChar? hop]
      exact .cons op (hp.spelled hpending.1 hpending.2) (ih .nil hs)
  | _ => cases h

/-- **Completeness.** The texts of alternating, well spelled tokens are scanned into them. -/
theorem scanFrom_flatMap_text {ts : List Token} (halt : Alternating ts)
    (hspelled : ∀ t, .numeral t ∈ ts → Numeral.Spelled t) :
    scanFrom [] (ts.flatMap text) = .ok ts := by
  fun_induction Alternating ts with
  | case1 => rfl
  | case2 t =>
    have ht := hspelled t (by simp)
    rw [List.flatMap_singleton, text, ← List.append_nil t, scanFrom_numeral [] ht]
    simp [scanFrom, ht.ne_nil, ht.ne_minus]
  | case3 t op ts ih =>
    have ht := hspelled t (by simp)
    have hs := ih halt fun u hu => hspelled u (by simp [hu])
    simp only [List.flatMap_cons, text, Operator.text, List.singleton_append]
    rw [scanFrom_numeral _ ht, scanFrom_cons_symbol _ op ht.ne_nil ht.ne_minus, hs]
    rfl
  | case4 => exact halt.elim

/-- A scan that fails reports a malformed numeral. -/
theorem scanFrom_eq_error {p s : Text} {e : EvalError} (h : scanFrom p s = .error e) :
    e = .malformedNumeral := by
  fun_induction scanFrom p s with
  | case1 => cases h
  | case3 => cases h
  | case4 p c s _ ih => exact ih h
  | case6 p s _ _ ih => exact ih h
  | case7 p c s _ _ _ ih => exact ih h
  | case8 p c s _ _ op _ _ ih => exact ih h
  | case10 p c s _ _ op _ _ _ ih =>
    cases hs : scanFrom [] s with
    | ok us => rw [hs] at h; cases h
    | error e' =>
      rw [hs] at h
      exact ih (hs.trans h)
  | _ => exact (Except.error.inj h).symm

/-- **A text is scanned** as the tokens that spell it, and only as these. -/
theorem scan_eq_ok_iff {s : Text} {ts : List Token} : scan s = .ok ts ↔ Spells ts s := by
  refine ⟨fun h => by simpa using spells_of_scanFrom .nil h, fun h => ?_⟩
  rw [scan, ← scanFrom_filter, ← h.complete]
  exact scanFrom_flatMap_text h.alternating h.spelled

/-- **The scanner accepts exactly its grammar and loses nothing.** The tokens of a text are its one
reading; where a text has no reading, the scanner reports a malformed numeral. -/
theorem scan_eq_iff_spells (s : Text) :
    (∀ ts, scan s = .ok ts ↔ Spells ts s) ∧
      (scan s = .error .malformedNumeral ↔ ∀ ts, ¬ Spells ts s) := by
  refine ⟨fun ts => scan_eq_ok_iff, fun h ts hts => ?_, fun h => ?_⟩
  · rw [scan_eq_ok_iff.2 hts] at h
    cases h
  · cases hs : scan s with
    | error e => rw [scanFrom_eq_error hs]
    | ok ts => exact absurd (scan_eq_ok_iff.1 hs) (h ts)

end Token
end PocketCalculator
