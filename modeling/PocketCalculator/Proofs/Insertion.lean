/-
# A value behind typed text

A constant or the memory is appended to the expression, so its text meets whatever stands last:

| what stands last in a typed text | the value becomes |
| --- | --- |
| nothing, or an operator that waits for its right operand | a numeral of its own |
| a digit or a point | a factor, behind a `*` |
| a sign | the rest of the numeral that the sign begins |

Only the last line can go wrong. A value below zero brings its own sign, and a numeral has one sign
(`Edit.scan_insertLiteral_of_signPending`). In every other case the scanner finds a numeral at the
end (`Edit.exists_scan_insertLiteral`). The keys that type keep the expression typed in any session
(`Session.typed_expression_run`), so this settles what an insertion does to whatever they build
(`Session.scan_insertLiteral_iff`).
-/

import PocketCalculator.Proofs.Foreground

namespace PocketCalculator

/-- Whether an action writes or deletes at the end of the expression, one character at a time. -/
def Action.isTyping : Action → Bool
  | .digit _ | .point | .operator _ | .delete | .clear => true
  | _ => false

/-- A plain text begins with a minus just if it has a sign. -/
theorem Numeral.head?_plain {negative : Bool} {whole : Text} {fraction : Option Text}
    (h : Digits whole fraction) :
    (plain negative whole fraction).head? = some '-' ↔ negative := by
  cases negative with
  | true => exact iff_of_true rfl rfl
  | false =>
    obtain ⟨c, whole, rfl⟩ := List.exists_cons_of_ne_nil h.1
    refine iff_of_false (fun hhead => ?_) Bool.false_ne_true
    obtain rfl : c = '-' := Option.some.inj hhead
    exact absurd (h.2.1 '-' List.mem_cons_self) (by decide)

namespace Token

variable {t u : Text}

/-- A spelled text is one numeral. -/
theorem scan_of_spelled (ht : Numeral.Spelled t) : scan t = .ok [.numeral t] :=
  scan_eq_ok_iff.2 (.singleton ht)

/-- A factor behind a numeral. -/
theorem scanFrom_factor (hu : Numeral.Spelled u) (ht : Numeral.Spelled t) :
    scanFrom u ('*' :: t) = .ok [.numeral u, .operator .times, .numeral t] := by
  have hfactor : scanFrom [] t = .ok [.numeral t] := scan_of_spelled ht
  refine (scanFrom_cons_symbol t .times hu.ne_nil hu.ne_minus).trans ?_
  rw [hfactor]
  rfl

/-- A sign and a plain text without one are the plain text with one. -/
theorem scanFrom_minus_plain {whole : Text} {fraction : Option Text}
    (h : Numeral.Digits whole fraction) :
    scanFrom ['-'] (Numeral.plain false whole fraction) =
      .ok [.numeral ('-' :: Numeral.plain false whole fraction)] := by
  have hsigned : Numeral.Spelled (Numeral.plain true whole fraction) := Numeral.spelled_plain h
  rw [← scanFrom_cons_minus]
  exact scan_of_spelled hsigned

/-- A numeral has one sign. -/
theorem scanFrom_minus_minus (s : Text) : scanFrom ['-'] ('-' :: s) = .error .malformedNumeral := by
  simp [scanFrom, Operator.ofChar?, show Char.isDigit '-' = false by decide]

end Token

namespace Edit

/-- A minus stands last that is a sign: no operator waits for its right operand. -/
def SignPending (e : Text) : Prop := e.getLast? = some '-' ∧ trailingOperator e = none

instance : DecidablePred SignPending := fun e =>
  inferInstanceAs (Decidable (e.getLast? = some '-' ∧ trailingOperator e = none))

variable {e : Text} {p : Place} {v : Binary64}

/-- An operator stands last and waits, unless it is a minus and a sign. -/
theorem trailingOperator_concat (e : Text) (op : Operator) :
    trailingOperator (e ++ [op.symbol]) =
      if op = .minus ∧ e.getLast?.all isOperator then none else some op := by
  rw [trailingOperator, List.reverse_append, List.reverse_singleton, List.singleton_append]
  cases op <;> simp [Operator.ofChar?_symbol]

/-- A minus at the end is an operator behind a numeral, and a sign otherwise. -/
theorem trailingOperator_concat_minus (e : Text) :
    trailingOperator (e ++ ['-']) = if e.getLast?.all isOperator then none else some .minus := by
  refine (trailingOperator_concat e .minus).trans ?_
  simp only [true_and]

/-- In a typed text a sign stands last just behind a place where a numeral may begin. -/
theorem signPending_iff (h : Place.after .free e = some p) : SignPending e ↔ p = .sign := by
  rcases Place.after_cases h with ⟨rfl, rfl⟩ | ⟨s, c, r, rfl, hs, hnext⟩
  · decide
  rw [SignPending, List.getLast?_concat, Option.some.injEq]
  rcases Place.next_cases hnext with ⟨hc, hp, -⟩ | ⟨rfl, -, rfl⟩ | ⟨rfl, rfl, rfl⟩ |
    ⟨op, rfl, hr, rfl⟩
  · refine iff_of_false ?_ ?_
    · rintro ⟨rfl, -⟩
      exact absurd hc (by decide)
    · rintro rfl
      cases hp
  · exact iff_of_false (fun hminus => absurd hminus.1 (by decide)) (by decide)
  · have hall : s.getLast?.all isOperator := (Place.all_isOperator_iff hs).2 (by decide)
    refine iff_of_true ⟨rfl, ?_⟩ rfl
    rw [trailingOperator_concat_minus, if_pos hall]
  · refine iff_of_false ?_ (by decide)
    rintro ⟨hminus, hnone⟩
    have hall : ¬ s.getLast?.all isOperator := fun hall => (Place.all_isOperator_iff hs).1 hall hr
    rw [hminus, trailingOperator_concat_minus, if_neg hall] at hnone
    cases hnone

/-- **Behind a typed text** a value without an exponent gives the last numeral, or the end of it,
unless the value is below zero and a sign stands last. -/
theorem exists_scan_insertLiteral (ht : e.Typed) (hv : v.isFinite) (he : 'e' ∉ Display.text v)
    (hsign : ¬ (SignPending e ∧ (Display.text v).head? = some '-')) :
    ∃ ts n, Token.scan (insertLiteral e v) = .ok (ts ++ [.numeral n]) ∧ Display.text v <:+ n := by
  obtain ⟨p, hp⟩ := ht
  obtain ⟨init, u, hu, -, hscan⟩ := Place.exists_scanFrom_append (p := .free) (t := []) rfl hp
  obtain ⟨negative, whole, fraction, hdigits, htext⟩ := Display.exists_plain hv he
  have hspelled : Numeral.Spelled (Display.text v) := htext ▸ Numeral.spelled_plain hdigits
  by_cases hnumeral : p.inNumeral
  · refine ⟨init ++ [.numeral u, .operator .times], Display.text v, ?_, List.suffix_rfl⟩
    rw [insertLiteral_of_inNumeral hp hnumeral, Token.scan, hscan,
      Token.scanFrom_factor (hu.numeral hnumeral).1 hspelled, List.append_assoc]
    rfl
  rw [insertLiteral_of_not_inNumeral hp hnumeral, Token.scan, hscan]
  rcases Place.not_inNumeral_iff.1 hnumeral with rfl | rfl
  · obtain rfl : u = [] := hu
    have hend : Token.scanFrom [] (Display.text v) = .ok [.numeral (Display.text v)] :=
      Token.scan_of_spelled hspelled
    rw [hend]
    exact ⟨init, Display.text v, rfl, List.suffix_rfl⟩
  · obtain rfl : u = ['-'] := hu
    have hnegative : negative = false := by
      have hhead := not_and.1 hsign ((signPending_iff hp).2 rfl)
      rw [htext, Numeral.head?_plain hdigits] at hhead
      exact Bool.eq_false_of_not_eq_true hhead
    rw [htext, hnegative, Token.scanFrom_minus_plain hdigits]
    exact ⟨init, _, rfl, List.suffix_cons _ _⟩

/-- **Behind a sign** a value below zero gives a second one. -/
theorem scan_insertLiteral_of_signPending (ht : e.Typed) (hsign : SignPending e)
    (hhead : (Display.text v).head? = some '-') :
    Token.scan (insertLiteral e v) = .error .malformedNumeral := by
  obtain ⟨p, hp⟩ := ht
  obtain rfl := (signPending_iff hp).1 hsign
  obtain ⟨init, u, hu, -, hscan⟩ := Place.exists_scanFrom_append (p := .free) (t := []) rfl hp
  obtain rfl : u = ['-'] := hu
  obtain ⟨rest, hrest⟩ := List.head?_eq_some_iff.1 hhead
  rw [insertLiteral_of_not_inNumeral hp (by decide), hrest, Token.scan, hscan,
    Token.scanFrom_minus_minus]
  rfl

end Edit

namespace Session

variable {s : Session} {actions : List Action} {v : Binary64}

/-- A key that types keeps an expression one that keys can type. It sees nothing but the foreground,
which has no results to bring back. -/
theorem typed_expression_apply {a : Action} (h : s.expression.Typed) (ha : a.isTyping) :
    (s.apply a).expression.Typed := by
  have hforeground : a.isForeground := by cases a <;> trivial
  have hplain : a.isPlain := by cases a <;> trivial
  have hcommits : s.foreground.commits a = none := by cases a <;> trivial
  have htyped : s.foreground.Typed := ⟨h, fun _ he => nomatch he⟩
  have happly := (htyped.apply hplain (by simp [hcommits])).expression
  have heq : (s.apply a).expression = (s.foreground.apply a).expression :=
    (congrArg expression (foreground_apply hforeground s) :)
  rwa [heq]

/-- A run of keys for typing keeps the expression typed. -/
theorem typed_expression_run (h : s.expression.Typed) (hactions : ∀ a ∈ actions, a.isTyping) :
    (s.run actions).expression.Typed := by
  induction actions generalizing s with
  | nil => exact h
  | cons a actions ih =>
    obtain ⟨ha, hactions⟩ := List.forall_mem_cons.1 hactions
    exact ih (typed_expression_apply h ha) hactions

/-- **What an inserted value leaves behind typed text.** The scanner finds a numeral at the end that
the value's text ends, or the value is below zero and a sign stands last; then there are two signs,
and the numeral is malformed. -/
theorem scan_insertLiteral_iff (hs : s.expression = []) (hactions : ∀ a ∈ actions, a.isTyping)
    (hv : v.isFinite) (he : 'e' ∉ Display.text v) :
    let e := (s.run actions).expression
    let signs := Edit.SignPending e ∧ (Display.text v).head? = some '-'
    ((∃ ts n, Token.scan (Edit.insertLiteral e v) = .ok (ts ++ [.numeral n]) ∧
        Display.text v <:+ n) ↔ ¬ signs) ∧
      (Token.scan (Edit.insertLiteral e v) = .error .malformedNumeral ↔ signs) := by
  intro e signs
  have htyped : e.Typed := typed_expression_run (hs ▸ .nil) hactions
  by_cases hsigns : signs
  · have herror := Edit.scan_insertLiteral_of_signPending htyped hsigns.1 hsigns.2
    refine ⟨iff_of_false ?_ (not_not_intro hsigns), iff_of_true herror hsigns⟩
    rintro ⟨ts, n, hscan, -⟩
    cases herror.symm.trans hscan
  · obtain ⟨ts, n, hscan, hsuffix⟩ := Edit.exists_scan_insertLiteral htyped hv he hsigns
    refine ⟨iff_of_true ⟨ts, n, hscan, hsuffix⟩ hsigns, iff_of_false (fun herror => ?_) hsigns⟩
    cases herror.symm.trans hscan

/-- The sign of a second factor, and a value below zero behind it; without that sign the same value
is the factor. -/
theorem scan_insertLiteral_iff_product :
    let s := new .empty .standard
    let v := Binary64.ofDecimal true 5 0
    let product : List Action := [.digit '5', .operator .times]
    let signed := product ++ [.operator .minus]
    Edit.insertLiteral (s.run signed).expression v = "5*--5".toList ∧
      Token.scan (Edit.insertLiteral (s.run signed).expression v) = .error .malformedNumeral ∧
      ∃ ts n, Token.scan (Edit.insertLiteral (s.run product).expression v) =
        .ok (ts ++ [.numeral n]) ∧ Display.text v <:+ n := by
  intro s v product signed
  have hv : v.isFinite := by decide +kernel
  have he : 'e' ∉ Display.text v := by decide +kernel
  have hsigned := @scan_insertLiteral_iff s signed v rfl (by decide) hv he
  have hproduct := @scan_insertLiteral_iff s product v rfl (by decide) hv he
  exact ⟨by decide +kernel, hsigned.2.2 (by decide +kernel), hproduct.1.2 (by decide +kernel)⟩

end Session
end PocketCalculator
