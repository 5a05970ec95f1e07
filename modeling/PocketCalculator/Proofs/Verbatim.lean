/-
# Typing is faithful

A key may do something else than append its character:

| key | where | what it does |
| --- | --- | --- |
| a digit | behind a result or a zero alone | it stands instead of that |
| the point | behind no numeral | it is written as `0.` |
| the point | behind the point of a numeral | nothing |
| a minus | behind a minus | nothing |
| any other operator | at the beginning | nothing |
| any other operator | behind an operator | it stands instead of all the operators there |

In a text that can be typed, no point and no operator other than a minus stands where it would not
be appended. The delicate case is that of the first point of a numeral: what the point key takes for
the last numeral has no point of an earlier one (`Place.point_not_mem_lastNumeral`). A text that has
no minus behind a minus either, and does not begin with a zero and a digit, is `Text.Verbatim`. Each
of its beginnings is so, too, and each key appends its character (`Session.apply_of_next`).

Numerals with operators between them make such a text (`Text.Keyed.verbatim`), unless it begins with
a zero and a digit. Behind them the preview is the whole text, and so the equals key commits it.
-/

import PocketCalculator.Proofs.LastOperator

namespace PocketCalculator

namespace Place

variable {p : Place} {t : Text}

/-- Before the digits at the end of a typed text there is no point, if they are digits before the
point: there is an operator or nothing. -/
theorem dropWhile_ne_point (h : after .free t = some .whole) (r : Text) :
    t.reverse.dropWhile Char.isDigit ≠ '.' :: r := by
  induction t using List.reverseRecOn with
  | nil => cases h
  | append_singleton s c ih =>
    obtain ⟨q, hq, hnext⟩ := exists_after_of_append h
    rw [after_singleton] at hnext
    rw [List.reverse_append, List.reverse_singleton, List.singleton_append]
    rcases next_cases hnext with ⟨hc, -, hfraction⟩ | ⟨-, -, hw⟩ | ⟨-, -, hw⟩ | ⟨op, -, -, hw⟩
    · rw [List.dropWhile_cons_of_pos hc]
      by_cases hnumeral : q.inNumeral
      · rcases inNumeral_iff.1 hnumeral with rfl | rfl
        · exact ih hq
        · cases hfraction.2 rfl
      · rcases getLast?_cases hq with ⟨rfl, -⟩ | ⟨d, hlast, -, hop, -⟩
        · exact fun hr => nomatch hr
        · obtain ⟨op, rfl⟩ := exists_symbol (hop.2 hnumeral)
          rw [← List.head?_reverse] at hlast
          obtain ⟨u, hu⟩ := List.head?_eq_some_iff.1 hlast
          rw [hu, List.dropWhile_cons_of_neg (by cases op <;> decide)]
          exact fun hr => absurd (List.cons.inj hr).1 (by cases op <;> decide)
    · cases hw
    · cases hw
    · cases hw

/-- **In the digits before the point** the last numeral has no point, not even that of an earlier
numeral. -/
theorem point_not_mem_lastNumeral (h : after .free t = some .whole) :
    '.' ∉ Edit.lastNumeral t := by
  have hdigits : '.' ∉ t.reverse.takeWhile Char.isDigit := fun hmem =>
    absurd (List.mem_takeWhile_imp hmem) (by decide)
  rw [Edit.lastNumeral, List.mem_reverse, Edit.reversedNumeral]
  dsimp only
  split
  · rename_i r hr
    exact absurd hr (dropWhile_ne_point h r)
  · split
    · simpa using hdigits
    · exact hdigits

/-- A typed text that ends in a numeral is its own preview. -/
theorem preview_eq_self (h : after .free t = some p) (hp : p.inNumeral) : Edit.preview t = t := by
  refine Edit.preview_of_getLast? fun hany => ?_
  rcases getLast?_cases h with ⟨rfl, -⟩ | ⟨c, hlast, -, hop, -⟩
  · cases hany
  · rw [hlast] at hany
    exact hop.1 hany hp

end Place

namespace Text

/-- No minus stands behind a minus. -/
def SingleMinuses (t : Text) : Prop := List.IsChain (fun a b => a = '-' → b ≠ '-') t

/-- Numerals with operators between them. A numeral may have a minus in front, but not behind a
minus. -/
inductive Keyed : Text → Prop
  | first (negative : Bool) {whole : Text} {fraction : Option Text}
      (h : Numeral.Digits whole fraction) : Keyed (Numeral.plain negative whole fraction)
  | group {t : Text} (ht : Keyed t) (op : Operator) (negative : Bool) {whole : Text}
      {fraction : Option Text} (hsign : op = .minus → negative = false)
      (h : Numeral.Digits whole fraction) :
      Keyed (t ++ op.symbol :: Numeral.plain negative whole fraction)

/-- A typed text that has no minus behind a minus and does not begin with a zero and a digit. -/
structure Verbatim (t : Text) : Prop where
  typed : t.Typed
  minus : t.SingleMinuses
  zero : ∀ c rest, t = '0' :: c :: rest → c.isDigit = false

variable {s t : Text}

/-- The beginning of such a text is such a text. -/
theorem Verbatim.of_append (h : Verbatim (s ++ t)) : s.Verbatim :=
  ⟨.of_append h.typed, List.IsChain.left_of_append h.minus, fun c rest hs =>
    h.zero c (rest ++ t) (by rw [hs]; rfl)⟩

namespace Keyed

/-- Numerals with operators between them are typed, and end in a numeral. -/
theorem exists_after (h : t.Keyed) : ∃ p, Place.after .free t = some p ∧ p.inNumeral := by
  induction h with
  | first negative h => exact Place.after_plain h (.inl rfl)
  | group ht op negative hsign h ih =>
    obtain ⟨p, hp, hnumeral⟩ := ih
    obtain ⟨q, hq, hnumeral'⟩ := Place.after_plain h (.inl rfl)
    refine ⟨q, ?_, hnumeral'⟩
    rw [Place.after_append, hp, Option.bind_some, Place.after_cons, Place.next_operator op hnumeral,
      Option.bind_some, hq]

/-- Without its sign a numeral has no minus. -/
theorem minus_not_mem_plain {whole : Text} {fraction : Option Text}
    (h : Numeral.Digits whole fraction) : '-' ∉ Numeral.plain false whole fraction :=
  Numeral.not_mem_plain h (by decide) (by decide) (by decide)

/-- In a numeral only its sign is a minus. -/
theorem singleMinuses_plain (negative : Bool) {whole : Text} {fraction : Option Text}
    (h : Numeral.Digits whole fraction) :
    SingleMinuses (Numeral.plain negative whole fraction) := by
  have hmem := minus_not_mem_plain h
  have hsplit : Numeral.plain negative whole fraction =
      Display.signText negative ++ Numeral.plain false whole fraction := by
    simp [Numeral.plain, Display.signText]
  have hunsigned : SingleMinuses (Numeral.plain false whole fraction) :=
    List.Pairwise.isChain (List.pairwise_of_forall_mem_list fun a ha _ _ hminus =>
      absurd (hminus ▸ ha) hmem)
  rw [hsplit]
  refine List.IsChain.append ?_ hunsigned fun a _ b hb _ hminus =>
    hmem (hminus ▸ List.mem_of_mem_head? hb)
  cases negative
  · exact .nil
  · exact .singleton '-'

/-- **No minus stands behind a minus**: what is before a numeral with a sign is not one. -/
theorem singleMinuses (h : t.Keyed) : t.SingleMinuses := by
  induction h with
  | first negative h => exact singleMinuses_plain negative h
  | @group t ht op negative whole fraction hsign h ih =>
    have hnumeral := singleMinuses_plain negative h
    refine List.IsChain.append ih (List.isChain_cons.2 ⟨fun b hb hop => ?_, hnumeral⟩) ?_
    · -- Behind a minus, the numeral has no sign.
      obtain rfl : op = .minus := Option.some.inj (by rw [← Operator.ofChar?_symbol op, hop]; rfl)
      rw [hsign rfl] at hb
      rintro rfl
      exact minus_not_mem_plain h (List.mem_of_mem_head? hb)
    · rintro a ha - - rfl
      obtain ⟨p, hp, hnumeral⟩ := ht.exists_after
      rcases Place.getLast?_cases hp with ⟨rfl, -⟩ | ⟨c, hlast, -, hop, -⟩
      · cases ha
      · obtain rfl := Option.some.inj (hlast.symm.trans ha)
        exact absurd hnumeral (hop.1 rfl)

/-- **Numerals with operators between them** can be typed as they are, unless the first begins with
a zero and a digit. -/
theorem verbatim (h : t.Keyed) (hzero : ∀ c rest, t = '0' :: c :: rest → c.isDigit = false) :
    t.Verbatim :=
  let ⟨p, hp, _⟩ := h.exists_after
  ⟨⟨p, hp⟩, h.singleMinuses, hzero⟩

end Keyed
end Text

namespace Session

variable {s : Session} {p q : Place} {c : Char} {t : Text}

/-- An operator key appends its character behind a numeral, and a minus also elsewhere, but not
behind a minus. -/
theorem operator_of_next (hfailed : s.failed = false) (hevaluated : s.evaluated = false)
    {op : Operator} (hp : Place.after .free s.expression = some p)
    (hop : op = .minus ∨ p.inNumeral)
    (hminus : s.expression.getLast? = some '-' → op.symbol ≠ '-') :
    s.operator op = { s with expression := s.expression ++ [op.symbol] } := by
  have hexpression : Edit.withOperator op s.expression = s.expression ++ [op.symbol] := by
    rw [Edit.withOperator]
    by_cases hsign : op = .minus
    · subst hsign
      rw [if_pos rfl, if_neg fun hlast => hminus hlast rfl]
    · have hnumeral := hop.resolve_left hsign
      have hne : s.expression ≠ [] := by
        intro hnil
        rw [hnil] at hp
        cases hp
        cases hnumeral
      rw [if_neg hsign, Place.preview_eq_self hp hnumeral, if_neg hne]
  rw [operator_eq (.of_not_evaluated hevaluated), leaveError_of_not_failed hfailed, hexpression,
    ← hevaluated]

/-- **A key appends its character** where the character may stand, unless that is a minus behind a
minus or a digit behind a zero alone. -/
theorem apply_of_next (hfailed : s.failed = false) (hevaluated : s.evaluated = false)
    (hp : Place.after .free s.expression = some p) (hnext : p.next c = some q)
    (hminus : s.expression.getLast? = some '-' → c ≠ '-')
    (hzero : s.expression = ['0'] → c.isDigit = false) :
    ∃ a, Action.ofChar? c = some a ∧ s.apply a = { s with expression := s.expression ++ [c] } := by
  have hleave := leaveError_of_not_failed hfailed
  rcases Place.next_cases hnext with ⟨hc, -, -⟩ | ⟨rfl, rfl, -⟩ | ⟨rfl, rfl, -⟩ | ⟨op, rfl, hq, -⟩
  · have hne : ¬ (s.evaluated ∨ s.expression = ['0']) := by
      rintro (h | h)
      · rw [hevaluated] at h
        cases h
      · rw [hzero h] at hc
        cases hc
    refine ⟨.digit c, if_pos hc, ?_⟩
    rw [apply, digit, if_pos hc, hleave]
    exact if_neg hne
  · have hnot : ¬ s.expression.getLast?.all isOperator := fun hall =>
      (Place.all_isOperator_iff hp).1 hall rfl
    refine ⟨.point, rfl, ?_⟩
    rw [apply, point, hleave, if_neg (by simp [hevaluated]), if_neg hnot,
      if_neg (Place.point_not_mem_lastNumeral hp)]
  · exact ⟨.operator .minus, rfl, operator_of_next hfailed hevaluated hp (.inl rfl) hminus⟩
  · refine ⟨.operator op, by cases op <;> rfl, ?_⟩
    exact operator_of_next hfailed hevaluated hp (.inr hq) hminus

/-- **A run of keys** after the clear key writes a text as it is typed. The induction is on what has
been typed before. -/
theorem after_characters (ht : t.Verbatim) (s : Session) :
    (∀ c ∈ t, ∃ a, Action.ofChar? c = some a) ∧
      s.clear.after (t.map .character) = { s.clear with expression := t } := by
  induction t using List.reverseRecOn with
  | nil => exact ⟨fun c hc => absurd hc List.not_mem_nil, rfl⟩
  | append_singleton u c ih =>
    obtain ⟨hkeys, hafter⟩ := ih ht.of_append
    obtain ⟨q, hq⟩ := ht.typed
    obtain ⟨p, hp, hnext⟩ := Place.exists_after_of_append hq
    rw [Place.after_singleton] at hnext
    have hminus := (List.isChain_append.1 ht.minus).2.2
    have hzero : u = ['0'] → c.isDigit = false := by
      rintro rfl
      exact ht.zero c [] rfl
    obtain ⟨a, ha, happly⟩ := apply_of_next (s := { s.clear with expression := u }) rfl rfl hp hnext
      (fun hlast => hminus '-' hlast c rfl rfl) hzero
    refine ⟨List.forall_mem_append.2 ⟨hkeys, List.forall_mem_singleton.2 ⟨a, ha⟩⟩, ?_⟩
    rw [List.map_append, List.map_singleton, after_concat, hafter, advance, ha]
    exact happly

/-- **Typing is faithful.** Numerals with operators between them, unless they begin with a zero and
a digit, can be typed in any session after the clear key: all the characters are keys, and at any
time the expression is what has been typed. The equals key then does what the value of the text
demands. It commits the text itself with the value, enters the error state, or does nothing. -/
theorem typing_faithful {w : Text} (hw : w.Keyed)
    (hzero : ∀ c rest, w = '0' :: c :: rest → c.isDigit = false) (s : Session) :
    let t := s.clear.after (w.map .character)
    (∀ c ∈ w, ∃ a, Action.ofChar? c = some a) ∧
      (∀ before, before <+: w →
        s.clear.after (before.map .character) = { s.clear with expression := before }) ∧
      t.expression = w ∧
      (∀ v, Outcome.ofExpression w = .success v →
        t.advance (.character '=') = { t with
          expression := Display.text v
          evaluated := true
          history := s.history.push ⟨w, Display.text v⟩ } ∧
        (t.advance (.character '=')).history.get? 0 = some ⟨w, Display.text v⟩) ∧
      (Outcome.ofExpression w = .divisionByZero → t.advance (.character '=') = t.showError) ∧
      (Outcome.ofExpression w = .invalid → t.advance (.character '=') = t) := by
  intro t
  have hverbatim := hw.verbatim hzero
  obtain ⟨hkeys, hafter⟩ := after_characters hverbatim s
  replace hafter : t = { s.clear with expression := w } := hafter
  obtain ⟨p, hp, hnumeral⟩ := hw.exists_after
  -- A keyed text ends in a numeral, so the equals key evaluates all of it.
  have hpreview : t.preview = w := by
    rw [preview, hafter]
    exact Place.preview_eq_self hp hnumeral
  have hfailed : t.failed = false := by
    rw [hafter]
    rfl
  have hequals : t.advance (.character '=') = t.equals := rfl
  rw [hequals]
  refine ⟨hkeys, fun before hbefore => ?_, by rw [hafter], ?_⟩
  · obtain ⟨rest, rfl⟩ := hbefore
    exact (after_characters hverbatim.of_append s).2
  rw [← hpreview]
  refine ⟨fun v hv => ?_, fun hv => ?_, fun hv => ?_⟩
  · have hhistory : t.history = s.history := by
      rw [hafter]
      rfl
    rw [equals_of_success hfailed hv, hhistory]
    exact ⟨rfl, rfl⟩
  · exact equals_of_divisionByZero hfailed hv
  · exact equals_of_invalid hv

/-- Signs at the beginning and behind an operator, and a point with no digit behind it; typed after
an error. -/
theorem typing_faithful_signs :
    let w := "-0.5*-3-2.".toList
    let s := (new .empty .standard).after ("1/0=".toList.map .character)
    let t := s.clear.after (w.map .character)
    s.failed ∧ Text.Keyed w ∧ t.expression = w ∧
      (t.advance (.character '=')).history.get? 0 = some ⟨w, "-0.5".toList⟩ := by
  intro w s t
  have hfirst : Numeral.Digits ['0'] (some ['5']) :=
    ⟨List.cons_ne_nil _ _, List.all_eq_true.1 rfl, List.all_eq_true.1 rfl⟩
  have hsecond : Numeral.Digits ['3'] none :=
    ⟨List.cons_ne_nil _ _, List.all_eq_true.1 rfl, List.all_eq_true.1 rfl⟩
  have hthird : Numeral.Digits ['2'] (some []) :=
    ⟨List.cons_ne_nil _ _, List.all_eq_true.1 rfl, List.all_eq_true.1 rfl⟩
  have hw : Text.Keyed w :=
    .group (.group (.first true hfirst) .times true (by decide) hsecond) .minus false
      (fun _ => rfl) hthird
  have hzero : ∀ c rest, w = '0' :: c :: rest → c.isDigit = false := fun c rest h => by
    have hhead : w.head? = some '0' := by rw [h, List.head?_cons]
    exact absurd hhead (by decide)
  have hvalue : Outcome.ofExpression w = .success (.ofDecimal true 5 (-1)) := by decide +kernel
  have htext : Display.text (.ofDecimal true 5 (-1)) = "-0.5".toList := by decide +kernel
  obtain ⟨-, -, hexpression, hsuccess, -⟩ := typing_faithful hw hzero s
  rw [← htext]
  exact ⟨by decide +kernel, hw, hexpression, (hsuccess _ hvalue).2⟩

end Session
end PocketCalculator
