/-
# Texts that are typed

A text that is typed key by key stands, at its end, in one of four places:

| place | what may follow |
| --- | --- |
| `free` | a digit, or a minus as a sign |
| `sign` | a digit |
| `whole` | a digit, a point, or an operator |
| `fraction` | a digit or an operator |

`Place.after` runs through a text from a place, and fails where a key would not have typed the next
character. A text that ends in a numeral has a value, divides by zero or has no finite value;
nothing else can be wrong with it (`Evaluation.evaluate_of_after`). Its numerals are plain, so all
of them can be read, and the only fault that is left is a zero divisor.
-/

import PocketCalculator.Edit
import PocketCalculator.Proofs.FirstFault
import PocketCalculator.Proofs.ExponentialText

namespace PocketCalculator

/-- The preview is a beginning of the expression. -/
theorem Edit.preview_isPrefix (t : Text) : preview t <+: t := by
  rw [preview, Text.dropTrailing, ← List.reverse_suffix, List.reverse_reverse]
  exact List.dropWhile_suffix _

/-- Where the end of a typed text stands. -/
inductive Place where
  | free
  | sign
  | whole
  | fraction
  deriving DecidableEq

namespace Place

/-- In a numeral, behind at least one digit. -/
def inNumeral : Place → Bool
  | .whole | .fraction => true
  | .free | .sign => false

/-- The place behind one more character. -/
def next : Place → Char → Option Place
  | .free, c => if c.isDigit then some .whole else if c = '-' then some .sign else none
  | .sign, c => if c.isDigit then some .whole else none
  | .whole, c =>
    if c.isDigit then some .whole
    else if c = '.' then some .fraction
    else if isOperator c then some .free
    else none
  | .fraction, c =>
    if c.isDigit then some .fraction else if isOperator c then some .free else none

/-- Outside a numeral, a numeral or its digits may begin. -/
theorem not_inNumeral_iff {p : Place} : ¬ p.inNumeral ↔ p = .free ∨ p = .sign := by
  cases p <;> decide

/-- In a numeral, the place is before its point or behind it. -/
theorem inNumeral_iff {p : Place} : p.inNumeral ↔ p = .whole ∨ p = .fraction := by
  cases p <;> decide

/-- The place behind a text. -/
def after (p : Place) (t : Text) : Option Place := t.foldlM next p

/-- The place behind a text, from its first character on. -/
theorem after_cons (p : Place) (c : Char) (t : Text) :
    p.after (c :: t) = (p.next c).bind fun q => q.after t := List.foldlM_cons

/-- The place behind two texts. -/
theorem after_append (p : Place) (s t : Text) :
    p.after (s ++ t) = (p.after s).bind fun q => q.after t := List.foldlM_append

/-- The place behind one character. -/
theorem after_singleton (p : Place) (c : Char) : p.after [c] = p.next c := by
  rw [after_cons]
  cases p.next c <;> rfl

/-- The place behind a typed text and one more character. -/
theorem after_concat {p q : Place} {t : Text} (h : p.after t = some q) (c : Char) :
    p.after (t ++ [c]) = q.next c := by
  rw [after_append, h, Option.bind_some, after_singleton]

/-- The beginning of a typed text is typed. -/
theorem exists_after_of_append {p q : Place} {s t : Text} (h : p.after (s ++ t) = some q) :
    ∃ r, p.after s = some r ∧ r.after t = some q := by
  rw [after_append] at h
  exact Option.bind_eq_some_iff.1 h

/-! ### What may follow -/

/-- A digit may stand anywhere, and is in a numeral. -/
theorem next_digit {c : Char} (p : Place) (hc : c.isDigit) :
    ∃ q, p.next c = some q ∧ q.inNumeral ∧ (p ≠ .fraction → q = .whole) := by
  cases p with
  | fraction => exact ⟨.fraction, if_pos hc, rfl, fun h => absurd rfl h⟩
  | free => exact ⟨.whole, if_pos hc, rfl, fun _ => rfl⟩
  | sign => exact ⟨.whole, if_pos hc, rfl, fun _ => rfl⟩
  | whole => exact ⟨.whole, if_pos hc, rfl, fun _ => rfl⟩

/-- A point may stand behind the digits that begin a numeral. -/
theorem next_point : next .whole '.' = some .fraction := rfl

/-- An operator may stand behind a numeral. -/
theorem next_operator {p : Place} (op : Operator) (hp : p.inNumeral) :
    p.next op.symbol = some .free := by
  cases p with
  | free => cases hp
  | sign => cases hp
  | whole => cases op <;> rfl
  | fraction => cases op <;> rfl

/-- **What one character can do.** -/
theorem next_cases {p q : Place} {c : Char} (h : p.next c = some q) :
    (c.isDigit ∧ q.inNumeral ∧ (q = .fraction ↔ p = .fraction)) ∨
      (c = '.' ∧ p = .whole ∧ q = .fraction) ∨
        (c = '-' ∧ p = .free ∧ q = .sign) ∨
          ∃ op : Operator, c = op.symbol ∧ p.inNumeral ∧ q = .free := by
  by_cases hdigit : c.isDigit
  · obtain ⟨r, hr, hnumeral, hwhole⟩ := next_digit p hdigit
    obtain rfl := Option.some.inj (hr.symm.trans h)
    refine .inl ⟨hdigit, hnumeral, fun hq => ?_, fun hp => ?_⟩
    · by_contra hp
      rw [hwhole hp] at hq
      cases hq
    · subst hp
      exact (Option.some.inj (h.symm.trans (if_pos hdigit)))
  refine .inr ?_
  cases p with
  | free =>
    rw [next, if_neg hdigit] at h
    split at h
    · rename_i hminus
      exact .inr (.inl ⟨hminus, rfl, (Option.some.inj h).symm⟩)
    · cases h
  | sign =>
    rw [next, if_neg hdigit] at h
    cases h
  | whole =>
    rw [next, if_neg hdigit] at h
    split at h
    · rename_i hpoint
      exact .inl ⟨hpoint, rfl, (Option.some.inj h).symm⟩
    split at h
    · rename_i hop
      obtain ⟨op, hop⟩ := exists_symbol hop
      exact .inr (.inr ⟨op, hop, rfl, (Option.some.inj h).symm⟩)
    · cases h
  | fraction =>
    rw [next, if_neg hdigit] at h
    split at h
    · rename_i hop
      obtain ⟨op, hop⟩ := exists_symbol hop
      exact .inr (.inr ⟨op, hop, rfl, (Option.some.inj h).symm⟩)
    · cases h

/-- The last character tells whether a typed text ends in a numeral. -/
theorem isOperator_iff_of_next {p q : Place} {c : Char} (h : p.next c = some q) :
    isOperator c ↔ ¬ q.inNumeral := by
  rcases next_cases h with ⟨hdigit, hq, -⟩ | ⟨rfl, -, rfl⟩ | ⟨rfl, -, rfl⟩ | ⟨op, rfl, -, rfl⟩
  · simp [isOperator_of_isDigit hdigit, hq]
  · decide
  · decide
  · exact iff_of_true (isOperator_symbol op) (by decide)

/-- An empty text, or one with a last character. -/
theorem after_cases {p q : Place} {t : Text} (h : p.after t = some q) :
    t = [] ∧ q = p ∨ ∃ s c r, t = s ++ [c] ∧ p.after s = some r ∧ r.next c = some q := by
  rcases t.eq_nil_or_concat with rfl | ⟨s, c, rfl⟩
  · exact .inl ⟨rfl, (Option.some.inj h).symm⟩
  · rw [List.concat_eq_append] at h ⊢
    obtain ⟨r, hr, hnext⟩ := exists_after_of_append h
    rw [after_singleton] at hnext
    exact .inr ⟨s, c, r, rfl, hr, hnext⟩

/-- Digits lead on in a numeral. -/
theorem after_digits {p : Place} {t : Text} (hp : p.inNumeral) (ht : ∀ c ∈ t, c.isDigit) :
    p.after t = some p := by
  induction t with
  | nil => rfl
  | cons c t ih =>
    obtain ⟨hc, ht⟩ := List.forall_mem_cons.1 ht
    have hnext : p.next c = some p := by
      cases p with
      | free => cases hp
      | sign => cases hp
      | whole => exact if_pos hc
      | fraction => exact if_pos hc
    rw [after_cons, hnext, Option.bind_some, ih ht]

/-- **A plain text** may be typed where a numeral may begin, and behind a sign if it has none. -/
theorem after_plain {p : Place} {negative : Bool} {whole : Text} {fraction : Option Text}
    (h : Numeral.Digits whole fraction) (hp : p = .free ∨ p = .sign ∧ negative = false) :
    ∃ q, p.after (Numeral.plain negative whole fraction) = some q ∧ q.inNumeral := by
  obtain ⟨hne, hwhole, hfraction⟩ := h
  obtain ⟨c, whole, rfl⟩ := List.exists_cons_of_ne_nil hne
  obtain ⟨hc, hwhole⟩ := List.forall_mem_cons.1 hwhole
  have hsign : ∃ r, p.after (Display.signText negative) = some r ∧ r ≠ .fraction := by
    rcases hp with rfl | ⟨rfl, rfl⟩
    · cases negative
      · exact ⟨.free, rfl, by decide⟩
      · exact ⟨.sign, rfl, by decide⟩
    · exact ⟨.sign, rfl, by decide⟩
  obtain ⟨r, hr, hne⟩ := hsign
  obtain ⟨q, hq, -, hwhole'⟩ := next_digit r hc
  obtain rfl := hwhole' hne
  have hdigits : p.after (Display.signText negative ++ c :: whole) = some .whole := by
    rw [after_append, hr, Option.bind_some, after_cons, hq, Option.bind_some,
      after_digits rfl hwhole]
  rw [Numeral.plain, after_append, hdigits, Option.bind_some]
  cases fraction with
  | none => exact ⟨.whole, rfl, rfl⟩
  | some fraction =>
    refine ⟨.fraction, ?_, rfl⟩
    rw [Option.map_some, Option.getD_some, after_cons, next_point, Option.bind_some]
    exact after_digits rfl hfraction

/-- The end of a typed text. -/
theorem getLast?_cases {p : Place} {t : Text} (h : after .free t = some p) :
    t = [] ∧ p = .free ∨
      ∃ c, t.getLast? = some c ∧ (p.inNumeral ↔ c.isDigit ∨ c = '.') ∧
        (isOperator c ↔ ¬ p.inNumeral) ∧ (p = .sign → c = '-') := by
  rcases after_cases h with ⟨rfl, rfl⟩ | ⟨s, c, r, rfl, -, hnext⟩
  · exact .inl ⟨rfl, rfl⟩
  refine .inr ⟨c, by simp, ?_, isOperator_iff_of_next hnext, ?_⟩
  · rcases next_cases hnext with ⟨hc, hp, -⟩ | ⟨rfl, -, rfl⟩ | ⟨rfl, -, rfl⟩ | ⟨op, rfl, -, rfl⟩
    · simp [hp, hc]
    · decide
    · decide
    · cases op <;> decide
  · rintro rfl
    rcases next_cases hnext with ⟨-, hp, -⟩ | ⟨-, -, hp⟩ | ⟨hc, -, -⟩ | ⟨op, -, -, hp⟩
    · cases hp
    · cases hp
    · exact hc
    · cases hp

/-- A typed text that is empty or ends in an operator does not end in a numeral. -/
theorem all_isOperator_iff {p : Place} {t : Text} (h : after .free t = some p) :
    t.getLast?.all isOperator ↔ ¬ p.inNumeral := by
  rcases getLast?_cases h with ⟨rfl, rfl⟩ | ⟨c, hlast, -, hop, -⟩
  · decide
  · rw [hlast]
    exact hop

/-- Behind the point of a numeral, the last numeral has a point. -/
theorem point_mem_lastNumeral {t : Text} (h : after .free t = some .fraction) :
    '.' ∈ Edit.lastNumeral t := by
  have hdrop : (t.reverse.dropWhile Char.isDigit).head? = some '.' := by
    induction t using List.reverseRecOn with
    | nil => cases h
    | append_singleton s c ih =>
      obtain ⟨r, hr, hnext⟩ := exists_after_of_append h
      rw [after_singleton] at hnext
      rw [List.reverse_append, List.reverse_singleton, List.singleton_append]
      rcases next_cases hnext with ⟨hc, -, hfraction⟩ | ⟨rfl, -, -⟩ | ⟨-, -, hq⟩ | ⟨op, -, -, hq⟩
      · rw [hfraction.1 rfl] at hr
        rw [List.dropWhile_cons_of_pos hc, ih hr]
      · rw [List.dropWhile_cons_of_neg (by decide)]
        rfl
      · cases hq
      · cases hq
  obtain ⟨rest, hrest⟩ := List.head?_eq_some_iff.1 hdrop
  rw [Edit.lastNumeral, List.mem_reverse, Edit.reversedNumeral, hrest]
  dsimp only
  split
  · split <;> simp
  · rename_i hpoint
    exact absurd rfl (hpoint rest)

/-- **The preview** of a typed text is empty or ends in a numeral. -/
theorem after_preview {p : Place} {t : Text} (h : after .free t = some p) :
    Edit.preview t = [] ∨ ∃ q, after .free (Edit.preview t) = some q ∧ q.inNumeral := by
  obtain ⟨rest, hrest⟩ := Edit.preview_isPrefix t
  rw [← hrest] at h
  obtain ⟨q, hq, -⟩ := exists_after_of_append h
  rcases getLast?_cases hq with ⟨hnil, -⟩ | ⟨c, hlast, -, hop, -⟩
  · exact .inl hnil
  refine .inr ⟨q, hq, ?_⟩
  have hnot : isOperator c = false := Text.getLast?_dropTrailing hlast
  by_contra hnumeral
  rw [hop.2 hnumeral] at hnot
  cases hnot

end Place

namespace Edit

variable {e : Text} {p : Place}

/-- Behind a numeral a value stands as a factor. -/
theorem insertLiteral_of_inNumeral (h : Place.after .free e = some p) (hp : p.inNumeral)
    (v : Binary64) : insertLiteral e v = e ++ '*' :: Display.text v := by
  rcases Place.getLast?_cases h with ⟨-, rfl⟩ | ⟨c, hlast, hnumeral, -, -⟩
  · cases hp
  · rw [insertLiteral, hlast]
    exact if_pos (hnumeral.1 hp)

/-- Where a numeral may begin, or behind its sign, a value stands alone. -/
theorem insertLiteral_of_not_inNumeral (h : Place.after .free e = some p) (hp : ¬ p.inNumeral)
    (v : Binary64) : insertLiteral e v = e ++ Display.text v := by
  rcases Place.getLast?_cases h with ⟨rfl, -⟩ | ⟨c, hlast, hnumeral, -, -⟩
  · rfl
  · rw [insertLiteral, hlast]
    exact if_neg (mt hnumeral.2 hp)

end Edit

namespace Display

/-- A text without an exponent is plain. -/
theorem exists_plain {v : Binary64} (hv : v.isFinite) (he : 'e' ∉ text v) :
    ∃ negative whole fraction, Numeral.Digits whole fraction ∧
      text v = Numeral.plain negative whole fraction := by
  rcases exists_shown hv he with htext | ⟨negative, c, x, hshown, htext⟩
  · have hzero : Numeral.Digits ['0'] none := ⟨List.cons_ne_nil _ _, by simp, by simp⟩
    exact ⟨false, ['0'], none, hzero, htext⟩
  · obtain ⟨whole, fraction, hdigits, hplain, -⟩ :=
      exists_plain_positional hshown.ne_zero x negative
    exact ⟨negative, whole, fraction, hdigits, htext.trans hplain⟩

end Display

namespace Text

/-- A text that keys can type. -/
def Typed (t : Text) : Prop := ∃ p, Place.after .free t = some p

/-- Nothing has to be typed. -/
theorem Typed.nil : Typed [] := ⟨.free, rfl⟩

/-- Taking characters away at the end leaves a typed text. -/
theorem Typed.of_append {s t : Text} (h : Typed (s ++ t)) : Typed s :=
  let ⟨_, hp⟩ := h
  let ⟨q, hq, _⟩ := Place.exists_after_of_append hp
  ⟨q, hq⟩

/-- **What is shown without an exponent** could have been typed. -/
theorem typed_display {v : Binary64} (hv : v.isFinite) (he : 'e' ∉ Display.text v) :
    Typed (Display.text v) := by
  obtain ⟨negative, whole, fraction, hdigits, htext⟩ := Display.exists_plain hv he
  obtain ⟨q, hq, -⟩ := @Place.after_plain .free negative _ _ hdigits (.inl rfl)
  exact ⟨q, htext ▸ hq⟩

end Text

namespace Place

/-! ### What is evaluated -/

/-- The numeral that has been begun at a place. -/
def Pending : Place → Text → Prop
  | .free, t => t = []
  | .sign, t => t = ['-']
  | .whole, t =>
    ∃ negative whole, Numeral.Digits whole none ∧ t = Numeral.plain negative whole none
  | .fraction, t =>
    ∃ negative whole fraction, Numeral.Digits whole (some fraction) ∧
      t = Numeral.plain negative whole (some fraction)

/-- A numeral that has a digit is spelled, and can be read. -/
theorem Pending.numeral {p : Place} {t : Text} (h : p.Pending t) (hp : p.inNumeral) :
    Numeral.Spelled t ∧ ∃ v, Numeral.read t = some v := by
  cases p with
  | free => cases hp
  | sign => cases hp
  | whole =>
    obtain ⟨negative, whole, hdigits, rfl⟩ := h
    exact ⟨Numeral.spelled_plain hdigits, _, Numeral.read_plain hdigits⟩
  | fraction =>
    obtain ⟨negative, whole, fraction, hdigits, rfl⟩ := h
    exact ⟨Numeral.spelled_plain hdigits, _, Numeral.read_plain hdigits⟩

/-- A point goes on with a numeral that has none. -/
theorem Pending.point {t : Text} (h : Pending .whole t) :
    '.' ∉ t ∧ Pending .fraction (t ++ ['.']) := by
  obtain ⟨negative, whole, ⟨hne, hwhole, -⟩, rfl⟩ := h
  refine ⟨fun hmem => ?_, negative, whole, [], ⟨hne, hwhole, by simp⟩, by simp [Numeral.plain]⟩
  have hsign : '.' ∉ Display.signText negative := by cases negative <;> decide
  rw [Numeral.plain, Option.map_none, Option.getD_none, List.append_nil, List.mem_append] at hmem
  exact hmem.elim hsign fun hmem => absurd (hwhole _ hmem) (by decide)

/-- A digit goes on with whatever is pending. -/
theorem Pending.digit {p q : Place} {t : Text} {c : Char} (h : p.Pending t) (hc : c.isDigit)
    (hnext : p.next c = some q) : q.Pending (t ++ [c]) := by
  have hdigits : ∀ {u : Text}, (∀ d ∈ u, d.isDigit) → ∀ d ∈ u ++ [c], d.isDigit := by
    intro u hu d hd
    rcases List.mem_append.1 hd with hd | hd
    · exact hu d hd
    · rwa [List.mem_singleton.1 hd]
  cases p with
  | free =>
    obtain rfl : .whole = q := Option.some.inj ((if_pos hc).symm.trans hnext)
    obtain rfl : t = [] := h
    exact ⟨false, [c], ⟨by simp, by simpa using hc, by simp⟩, rfl⟩
  | sign =>
    obtain rfl : .whole = q := Option.some.inj ((if_pos hc).symm.trans hnext)
    obtain rfl : t = ['-'] := h
    exact ⟨true, [c], ⟨by simp, by simpa using hc, by simp⟩, rfl⟩
  | whole =>
    obtain rfl : .whole = q := Option.some.inj ((if_pos hc).symm.trans hnext)
    obtain ⟨negative, whole, ⟨-, hwhole, -⟩, rfl⟩ := h
    exact ⟨negative, whole ++ [c], ⟨by simp, hdigits hwhole, by simp⟩, by simp [Numeral.plain]⟩
  | fraction =>
    obtain rfl : .fraction = q := Option.some.inj ((if_pos hc).symm.trans hnext)
    obtain ⟨negative, whole, fraction, ⟨hne, hwhole, hfraction⟩, rfl⟩ := h
    exact ⟨negative, whole, fraction ++ [c], ⟨hne, hwhole, hdigits hfraction⟩,
      by simp [Numeral.plain]⟩

/-- What the scanner makes of a typed text that ends in a numeral: tokens that end in one, all of
whose numerals can be read. -/
def Readable (ts : List Token) : Prop :=
  ts ≠ [] ∧ (∀ op, ts.getLast? ≠ some (.operator op)) ∧
    ∀ t, .numeral t ∈ ts → ∃ v, Numeral.read t = some v

/-- Tokens with a numeral at the end can be read if those before it can, and the numeral. -/
theorem readable_concat {t : Text} {v : Binary64} {init : List Token}
    (hinit : ∀ u, .numeral u ∈ init → ∃ w, Numeral.read u = some w)
    (ht : Numeral.read t = some v) : Readable (init ++ [.numeral t]) := by
  refine ⟨by simp, by simp, fun u hu => ?_⟩
  rcases List.mem_append.1 hu with hu | hu
  · exact hinit u hu
  · obtain rfl := Token.numeral.inj (List.mem_singleton.1 hu)
    exact ⟨v, ht⟩

/-- **The scanner behind a typed text** has found tokens, all of whose numerals can be read, and has
the numeral of the place pending for whatever follows. The induction is on the text; what is pending
before it is the numeral of the place where it begins. -/
theorem exists_scanFrom_append {p q : Place} {t e : Text} (ht : p.Pending t)
    (h : p.after e = some q) :
    ∃ init u, q.Pending u ∧ (∀ n, .numeral n ∈ init → ∃ v, Numeral.read n = some v) ∧
      ∀ s, Token.scanFrom t (e ++ s) = (Token.scanFrom u s).map (init ++ ·) := by
  induction e generalizing p t with
  | nil =>
    obtain rfl := Option.some.inj h
    refine ⟨[], t, ht, by simp, fun s => ?_⟩
    cases hs : Token.scanFrom t s <;> exact hs
  | cons c e ih =>
    rw [after_cons] at h
    obtain ⟨r, hnext, hafter⟩ := Option.bind_eq_some_iff.1 h
    rcases next_cases hnext with ⟨hc, -, -⟩ | ⟨rfl, rfl, rfl⟩ | ⟨rfl, rfl, rfl⟩ | ⟨op, rfl, hp, rfl⟩
    · obtain ⟨init, u, hu, hinit, hscan⟩ := ih (ht.digit hc hnext) hafter
      exact ⟨init, u, hu, hinit, fun s => (Token.scanFrom_cons_digit t _ hc).trans (hscan s)⟩
    · obtain ⟨hpoint, hpending⟩ := ht.point
      obtain ⟨init, u, hu, hinit, hscan⟩ := ih hpending hafter
      exact ⟨init, u, hu, hinit, fun s => (Token.scanFrom_cons_point _ hpoint).trans (hscan s)⟩
    · obtain rfl : t = [] := ht
      obtain ⟨init, u, hu, hinit, hscan⟩ := ih (p := .sign) rfl hafter
      exact ⟨init, u, hu, hinit, fun s => (Token.scanFrom_cons_minus _).trans (hscan s)⟩
    · obtain ⟨hspelled, v, hread⟩ := ht.numeral hp
      obtain ⟨init, u, hu, hinit, hscan⟩ := ih (p := .free) rfl hafter
      refine ⟨.numeral t :: .operator op :: init, u, hu, fun n hn => ?_, fun s => ?_⟩
      · rcases List.mem_cons.1 hn with hn | hn
        · exact ⟨v, Token.numeral.inj hn ▸ hread⟩
        · exact hinit n (by simpa using hn)
      · rw [List.cons_append, Token.scanFrom_cons_symbol _ op hspelled.ne_nil hspelled.ne_minus,
          hscan]
        cases Token.scanFrom u s <;> rfl

/-- **A typed text that ends in a numeral** is scanned into tokens that can be read. -/
theorem exists_scanFrom {p q : Place} {t s : Text} (ht : p.Pending t) (h : p.after s = some q)
    (hq : q.inNumeral) : ∃ ts, Token.scanFrom t s = .ok ts ∧ Readable ts := by
  obtain ⟨init, u, hu, hinit, hscan⟩ := exists_scanFrom_append ht h
  obtain ⟨hspelled, v, hread⟩ := hu.numeral hq
  have hend : Token.scanFrom u [] = .ok [.numeral u] := by
    rw [Token.scanFrom, if_neg hspelled.ne_nil, if_neg hspelled.ne_minus]
  have hscan' := hscan []
  rw [List.append_nil, hend] at hscan'
  exact ⟨_, hscan', readable_concat hinit hread⟩

end Place

namespace TwoLevel

/-- A value, or an error that is not in the expression's form: a division by zero, or no finite
value. -/
def WellFormed (r : Except EvalError Binary64) : Prop :=
  (∃ v, r = .ok v) ∨ (∃ a, r = .error (.divisionByZero a)) ∨ r = .error .nonFiniteResult

/-- **An expression whose numerals can be read** has a value, divides by zero or has no finite
value. -/
theorem Expression.wellFormed_value {e : Expression}
    (hspelled : ∀ u, .numeral u ∈ e.tokens → Numeral.Spelled u)
    (hread : ∀ u, .numeral u ∈ e.tokens → ∃ v, Numeral.read u = some v) : WellFormed e.value := by
  have hdecides := decides_value hspelled
  have hdigits : Fault.first? none e.tokens ≠ some .noDigit := Fault.first?_ne_noDigit fun u hu =>
    (hspelled u hu).isSome_read_iff.1 (Option.isSome_iff_exists.2 (hread u hu))
  match hfirst : Fault.first? none e.tokens with
  | some .noDigit => exact absurd hfirst hdigits
  | some .zeroDivisor =>
    rw [hfirst] at hdecides
    exact .inr (.inl hdecides)
  | none =>
    rw [hfirst] at hdecides
    exact hdecides.imp (fun ⟨v, _, hv⟩ => ⟨v, hv⟩) .inr

end TwoLevel

namespace Evaluation

/-- **A typed text that ends in a numeral** has a value, divides by zero or has no finite value. -/
theorem evaluate_of_after {s : Text} {q : Place} (h : Place.after .free s = some q)
    (hq : q.inNumeral) : TwoLevel.WellFormed (evaluate s) := by
  obtain ⟨ts, hscan, hne, hlast, hread⟩ := Place.exists_scanFrom (p := .free) (t := []) rfl h hq
  obtain ⟨e, he, hvalue⟩ := exists_value_of_scan hscan hne hlast
  obtain rfl := TwoLevel.Expression.tokens_of_ofTokens? he
  rw [hvalue]
  exact TwoLevel.Expression.wellFormed_value (Token.scan_eq_ok_iff.1 hscan).spelled hread

end Evaluation
end PocketCalculator
