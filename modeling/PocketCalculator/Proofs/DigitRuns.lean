/-
# Points in runs of digits

A numeral has at most one point, so a text of numerals should have no run of digits and points with
two of them (`Text.OnePoint`). Where two texts meet, it is the run at the end of the first and the
run at the beginning of the second that become one (`Text.onePoint_append_iff`).

A shown value has at most one point (`Display.onePoint_text`), and a value that is inserted behind a
run stands as a factor (`Edit.onePoint_insertLiteral`). A function's value stands in place of the
last numeral, which is the last run with a minus that stands before it (`Edit.lastNumeral_append`).
If that minus is a subtraction and the value has no sign, two runs meet; `Edit.Joins` says when both
have a point there, and then only there are two points in one run (`Edit.onePoint_applyFunction`,
`Edit.applyFunction_of_joins`).
-/

import Mathlib.Data.List.DropRight
import PocketCalculator.Proofs.TypedText

namespace PocketCalculator

/-! ### Runs -/

namespace Text

/-- No run of digits and points has two points. -/
def OnePoint (t : Text) : Prop :=
  ∀ run : Text, run <:+: t → (∀ c ∈ run, Numeral.isBodyChar c) → run.count '.' ≤ 1

/-- The digits and points that a text begins with. -/
def firstRun (t : Text) : Text := t.takeWhile Numeral.isBodyChar

/-- The digits and points that a text ends in. -/
def lastRun (t : Text) : Text := t.rtakeWhile Numeral.isBodyChar

variable {s t run : Text} {c : Char}

/-- A text with one point at most has no more in any run. -/
theorem OnePoint.of_count (h : t.count '.' ≤ 1) : OnePoint t := fun _ hrun _ =>
  (hrun.sublist.count_le _).trans h

/-- An empty text has no point. -/
theorem OnePoint.nil : OnePoint [] := .of_count (by decide)

/-- A part of a text has no run with more points than a run of the text. -/
theorem OnePoint.of_infix (h : OnePoint t) (hs : s <:+: t) : OnePoint s := fun run hrun =>
  h run (hrun.trans hs)

/-- The last run has nothing but digits and points. -/
theorem isBodyChar_of_mem_lastRun (hc : c ∈ lastRun t) : Numeral.isBodyChar c :=
  List.mem_rtakeWhile_imp hc

/-- In front of a text, digits and points extend its first run. -/
theorem firstRun_append_of_forall (hs : ∀ c ∈ s, Numeral.isBodyChar c) :
    firstRun (s ++ t) = s ++ firstRun t := List.takeWhile_append_of_pos hs

/-- Digits and points that a text begins with are a beginning of its first run. -/
theorem prefix_firstRun (hbegin : run <+: t) (hrun : ∀ c ∈ run, Numeral.isBodyChar c) :
    run <+: firstRun t := by
  obtain ⟨rest, rfl⟩ := hbegin
  rw [firstRun_append_of_forall hrun]
  exact List.prefix_append _ _

/-- A character in front extends the first run, so a point must not meet another in it. -/
theorem onePoint_cons_iff : OnePoint (c :: t) ↔ OnePoint t ∧ (c = '.' → '.' ∉ firstRun t) := by
  constructor
  · intro h
    refine ⟨h.of_infix (List.suffix_cons c t).isInfix, ?_⟩
    rintro rfl
    have hcount := h ('.' :: firstRun t)
      (List.prefix_cons_inj '.' |>.2 (List.takeWhile_prefix _)).isInfix
      (List.forall_mem_cons.2 ⟨by decide, fun _ => List.mem_takeWhile_imp⟩)
    rw [List.count_cons_self] at hcount
    exact List.count_eq_zero.1 (by omega)
  · rintro ⟨ht, hpoint⟩ run hinfix hrun
    rcases List.infix_cons_iff.1 hinfix with hbegin | hinfix
    · rcases List.prefix_cons_iff.1 hbegin with rfl | ⟨tail, rfl, htail⟩
      · exact Nat.zero_le _
      have hbody := (List.forall_mem_cons.1 hrun).2
      by_cases hc : c = '.'
      · have hmem : '.' ∉ tail := fun hmem =>
          hpoint hc ((prefix_firstRun htail hbody).subset hmem)
        rw [hc, List.count_cons_self, List.count_eq_zero.2 hmem]
      · rw [List.count_cons_of_ne hc]
        exact ht tail htail.isInfix hbody
    · exact ht run hinfix hrun

/-- Behind a character that ends it, a run goes no further. -/
theorem takeWhile_append_of_not_forall {p : Char → Bool} (h : ¬ ∀ d ∈ s, p d) :
    (s ++ t).takeWhile p = s.takeWhile p := by
  induction s with
  | nil => exact absurd (fun _ hd => nomatch hd) h
  | cons d s ih =>
    rw [List.cons_append, List.takeWhile_cons, List.takeWhile_cons]
    split
    · rename_i hd
      rw [ih fun hs => h (List.forall_mem_cons.2 ⟨hd, hs⟩)]
    · rfl

/-- A character in front does not reach a last run that does not begin the text. -/
theorem lastRun_cons_of_not_forall (h : ¬ ∀ d ∈ s, Numeral.isBodyChar d) :
    lastRun (c :: s) = lastRun s := by
  rw [lastRun, List.rtakeWhile, List.reverse_cons,
    takeWhile_append_of_not_forall (by simpa using h)]
  rfl

/-- In front of nothing but digits and points, a point belongs to the last run. -/
theorem point_mem_lastRun_cons_iff (h : ∀ d ∈ s, Numeral.isBodyChar d) :
    '.' ∈ lastRun (c :: s) ↔ c = '.' ∨ '.' ∈ s := by
  rw [lastRun, List.rtakeWhile, List.mem_reverse, List.reverse_cons,
    List.takeWhile_append_of_pos (by simpa using h), List.mem_append, List.mem_reverse,
    List.takeWhile_cons, or_comm]
  split
  · simp [eq_comm]
  · rename_i hc
    have hne : c ≠ '.' := by
      rintro rfl
      exact hc rfl
    simp [hne]

/-- **Where two texts meet**, their runs become one. The induction is along the first text, and the
character in front of it extends its last run only if all of it is that run. -/
theorem onePoint_append_iff :
    OnePoint (s ++ t) ↔ OnePoint s ∧ OnePoint t ∧ ('.' ∈ lastRun s → '.' ∉ firstRun t) := by
  induction s with
  | nil => simp [OnePoint.nil, lastRun]
  | cons c s ih =>
    rw [List.cons_append, onePoint_cons_iff, onePoint_cons_iff, ih]
    by_cases hs : ∀ d ∈ s, Numeral.isBodyChar d
    · have hfirst : firstRun s = s := List.takeWhile_eq_self_iff.2 hs
      have hlast : lastRun s = s := List.rtakeWhile_eq_self_iff.2 hs
      rw [firstRun_append_of_forall hs, hfirst, hlast, point_mem_lastRun_cons_iff hs,
        List.mem_append]
      tauto
    · have hfirst : firstRun (s ++ t) = firstRun s := takeWhile_append_of_not_forall hs
      rw [hfirst, lastRun_cons_of_not_forall hs]
      tauto

/-- A text that does not end in a digit or a point has no last run. -/
theorem lastRun_eq_nil (h : ∀ d ∈ t.getLast?, Numeral.isBodyChar d = false) : lastRun t = [] := by
  rw [lastRun, List.rtakeWhile_eq_nil_iff]
  intro hne
  simp [h _ (List.getLast?_eq_some_getLast hne)]

end Text

open Text

/-! ### What is shown -/

/-- Digits are not points. -/
theorem count_point_of_isDigit {t : Text} (h : ∀ c ∈ t, c.isDigit) : t.count '.' = 0 :=
  List.count_eq_zero.2 fun hmem => Display.ne_point_of_isDigit (h _ hmem) rfl

namespace Display

open Scientific

/-- A sign is not a point. -/
theorem count_point_signText (negative : Bool) : (signText negative).count '.' = 0 := by
  cases negative <;> decide

/-- A plain text has the point before its places at most. -/
theorem onePoint_plain {negative : Bool} {whole : Text} {fraction : Option Text}
    (h : Numeral.Digits whole fraction) : OnePoint (Numeral.plain negative whole fraction) := by
  obtain ⟨-, hwhole, hfraction⟩ := h
  refine .of_count ?_
  rw [Numeral.plain, List.count_append, List.count_append, count_point_signText,
    count_point_of_isDigit hwhole]
  cases fraction with
  | none => simp
  | some fraction =>
    have hzero : fraction.count '.' = 0 := count_point_of_isDigit hfraction
    simp [hzero]

/-- The exponential form has the point behind its first digit at most. -/
theorem onePoint_exponential (negative : Bool) (n : ℕ) (z : ℤ) :
    OnePoint (signText negative ++ (written n z).exponential) := by
  have hdigits : ∀ k : ℕ, ∀ c ∈ Text.ofNat k, c.isDigit := fun _ _ => isDigit_of_mem_ofNat
  have hfirst : ((Text.ofNat n).take 1).count '.' = 0 :=
    count_point_of_isDigit fun c hc => hdigits n c (List.mem_of_mem_take hc)
  have hrest : (Text.ofNat n).tail.count '.' = 0 :=
    count_point_of_isDigit fun c hc => hdigits n c (List.mem_of_mem_tail hc)
  have hexponent := count_point_of_isDigit (hdigits (written n z).exponent.natAbs)
  refine .of_count ?_
  rw [exponential, written_digits, List.count_append, List.count_append, List.count_append,
    count_point_signText, hfirst]
  split_ifs <;> simp [hrest, hexponent]

/-- **A shown value** has at most one point. -/
theorem onePoint_text (v : Binary64) : OnePoint (text v) := by
  by_cases hv : v.isFinite
  · by_cases he : 'e' ∈ text v
    · obtain ⟨negative, n, z, htext, -⟩ := exists_exponential_of_mem hv he
      rw [htext]
      exact onePoint_exponential negative n z
    · obtain ⟨negative, whole, fraction, hdigits, htext⟩ := exists_plain hv he
      rw [htext]
      exact onePoint_plain hdigits
  · rw [text, if_neg hv]
    exact .of_count (by decide)

end Display

/-! ### The last numeral -/

namespace Edit

variable {e run rest : Text}

/-- A run with at most one point is digits, and perhaps that point and more digits. -/
theorem exists_digits (hrun : ∀ c ∈ run, Numeral.isBodyChar c) (hcount : run.count '.' ≤ 1) :
    (∀ c ∈ run, c.isDigit) ∨ ∃ whole fraction, run = whole ++ '.' :: fraction ∧
      (∀ c ∈ whole, c.isDigit) ∧ ∀ c ∈ fraction, c.isDigit := by
  have hdigit : ∀ s : Text, (∀ c ∈ s, c ∈ run) → '.' ∉ s → ∀ c ∈ s, c.isDigit := by
    intro s hs hpoint c hc
    have hne : c ≠ '.' := fun h => hpoint (h ▸ hc)
    simpa [Numeral.isBodyChar, hne] using hrun c (hs c hc)
  by_cases hmem : '.' ∈ run
  · obtain ⟨whole, fraction, rfl⟩ := List.append_of_mem hmem
    rw [List.count_append, List.count_cons_self] at hcount
    have hwhole : '.' ∉ whole := List.count_eq_zero.1 (by omega)
    have hfraction : '.' ∉ fraction := List.count_eq_zero.1 (by omega)
    exact .inr ⟨whole, fraction, rfl, hdigit whole (by simp +contextual) hwhole,
      hdigit fraction (by simp +contextual) hfraction⟩
  · exact .inl (hdigit run (fun _ => id) hmem)

/-- **A reversed numeral** takes all of a run with at most one point that ends there, or before a
second point, and a minus behind it. -/
theorem reversedNumeral_append (hrun : ∀ c ∈ run, Numeral.isBodyChar c)
    (hcount : run.count '.' ≤ 1)
    (hrest : ∀ c ∈ rest.head?, Numeral.isBodyChar c → c = '.' ∧ '.' ∈ run) :
    reversedNumeral (run ++ rest) = if rest.head? = some '-' then run ++ ['-'] else run := by
  have htake : ∀ {s : Text}, (∀ c ∈ s, c.isDigit) → (s ++ rest).takeWhile Char.isDigit = s ∧
      (s ++ rest).dropWhile Char.isDigit = rest := by
    intro s hs
    rw [List.takeWhile_append_of_pos hs, List.dropWhile_append_of_pos hs]
    cases rest with
    | nil => simp
    | cons c rest =>
      have hc : ¬ c.isDigit := fun hdigit => by
        obtain ⟨rfl, -⟩ := hrest c rfl (by simp [Numeral.isBodyChar, hdigit])
        exact absurd hdigit (by decide)
      rw [List.takeWhile_cons_of_neg hc, List.dropWhile_cons_of_neg hc, List.append_nil]
      exact ⟨rfl, rfl⟩
  -- The run is one run of digits, or two with a point between them. What follows ends the last.
  rcases exists_digits hrun hcount with hdigits | ⟨whole, fraction, rfl, hwhole, hfraction⟩
  · obtain ⟨htake, hdrop⟩ := htake hdigits
    have hpoint : ∀ r, rest ≠ '.' :: r := by
      rintro r rfl
      obtain ⟨-, hpoint⟩ := hrest '.' rfl (by decide)
      exact absurd (hdigits '.' hpoint) (by decide)
    rw [reversedNumeral, htake, hdrop]
    split
    rename_i heq
    split at heq
    · exact absurd rfl (hpoint _)
    · cases heq
      rfl
  · have hpoint : ¬ '.'.isDigit := by decide
    obtain ⟨htake, hdrop⟩ := htake hfraction
    rw [reversedNumeral, List.append_assoc, List.cons_append, List.takeWhile_append_of_pos hwhole,
      List.dropWhile_append_of_pos hwhole, List.takeWhile_cons_of_neg hpoint,
      List.dropWhile_cons_of_neg hpoint, List.append_nil]
    simp only [htake, hdrop]

/-- A text is its last run behind something that does not end in one. -/
theorem exists_lastRun (e : Text) : ∃ before, e = before ++ lastRun e ∧ lastRun before = [] := by
  refine ⟨e.rdropWhile Numeral.isBodyChar, List.rdropWhile_append_rtakeWhile.symm, ?_⟩
  rw [lastRun, List.rtakeWhile_eq_nil_iff]
  exact List.rdropWhile_last_not _ _

/-- Where there is no last run, the last character is neither a digit nor a point. -/
theorem isBodyChar_of_lastRun_eq_nil {c : Char} (h : lastRun e = []) (hc : c ∈ e.getLast?) :
    Numeral.isBodyChar c = false := by
  obtain ⟨s, rfl⟩ := List.getLast?_eq_some_iff.1 hc
  rw [lastRun, List.rtakeWhile_concat] at h
  simpa using h

/-- **The last numeral** is the last run, with a minus that stands before it. -/
theorem lastNumeral_append {before : Text} (hrun : ∀ c ∈ run, Numeral.isBodyChar c)
    (hcount : run.count '.' ≤ 1) (hbefore : lastRun before = []) :
    lastNumeral (before ++ run) = if before.getLast? = some '-' then '-' :: run else run := by
  have hreverse : (before ++ run).reverse = run.reverse ++ before.reverse := List.reverse_append
  have hrest : ∀ c ∈ before.reverse.head?, Numeral.isBodyChar c →
      c = '.' ∧ '.' ∈ run.reverse := by
    intro c hc hbody
    rw [List.head?_reverse] at hc
    rw [isBodyChar_of_lastRun_eq_nil hbefore hc] at hbody
    cases hbody
  rw [lastNumeral, hreverse, reversedNumeral_append (by simpa using hrun) (by simpa using hcount)
    hrest, List.head?_reverse]
  split <;> simp

/-- A minus before the last run belongs to the last numeral, whatever stands before it. -/
theorem lastNumeral_append_minus (before : Text) (hrun : ∀ c ∈ run, Numeral.isBodyChar c)
    (hcount : run.count '.' ≤ 1) : lastNumeral (before ++ '-' :: run) = '-' :: run := by
  have hminus : lastRun (before ++ ['-']) = [] := lastRun_eq_nil (by simp; decide)
  rw [List.append_cons, lastNumeral_append hrun hcount hminus, List.getLast?_concat, if_pos rfl]

/-- The digits and points of the last numeral are those that the expression ends in. -/
theorem mem_lastNumeral (h : OnePoint e) {c : Char} (hc : c ∈ lastRun e) : c ∈ lastNumeral e := by
  obtain ⟨before, he, hbefore⟩ := exists_lastRun e
  have hcount : (lastRun e).count '.' ≤ 1 :=
    h _ (List.rtakeWhile_suffix _ _).isInfix fun _ => isBodyChar_of_mem_lastRun
  have hnumeral := lastNumeral_append (fun _ => isBodyChar_of_mem_lastRun) hcount hbefore
  rw [← he] at hnumeral
  rw [hnumeral]
  split
  · exact List.mem_cons_of_mem _ hc
  · exact hc

/-- A function's value that is joined to another numeral: the last numeral took the minus of a
subtraction with it, and both the run before that minus and the value have a point in what meets. -/
structure Joins (f : Binary64 → Binary64) (e before run : Text) (x : Binary64) : Prop where
  expression : e = before ++ '-' :: run
  body : ∀ c ∈ run, Numeral.isBodyChar c
  read : Numeral.read ('-' :: run) = some x
  finite : (f x).isFinite
  left : '.' ∈ lastRun before
  right : '.' ∈ firstRun (Display.text (f x))

variable {f : Binary64 → Binary64} {applied : Applied}

/-- An operand is a numeral with more to it than a sign or a point. -/
theorem isOperand_iff {t : Text} : isOperand t ↔ t ≠ [] ∧ t ≠ ['-'] ∧ t ≠ ['.'] := by
  unfold isOperand
  split <;> simp_all

/-- Behind anything, the last numeral is what is replaced. -/
theorem replaceLastNumeral_append {before numeral replacement : Text}
    (h : lastNumeral (before ++ numeral) = numeral) (hne : numeral ≠ []) :
    replaceLastNumeral (before ++ numeral) replacement = before ++ replacement := by
  rw [replaceLastNumeral, h, if_neg hne, List.length_append, Nat.add_sub_cancel, List.take_left]

/-- A text that replaces the last numeral stands behind a beginning of the expression. -/
theorem exists_prefix_replaceLastNumeral (e replacement : Text) :
    ∃ kept, kept <+: e ∧ replaceLastNumeral e replacement = kept ++ replacement := by
  rw [replaceLastNumeral]
  split
  · exact ⟨[], List.nil_prefix, rfl⟩
  · exact ⟨_, List.take_prefix _ _, rfl⟩

/-- **What a function does to an expression**: its value, which is finite, stands alone or in place
of the last numeral. -/
theorem applyFunction_cases (h : applyFunction f e = .ok applied) :
    applied.value.isFinite ∧
      (applied.expression = Display.text applied.value ∨
        isOperand (lastNumeral e) ∧ ∃ x, Numeral.read (lastNumeral e) = some x ∧
          applied.value = f x ∧
            applied.expression = replaceLastNumeral e (Display.text applied.value)) := by
  rw [applyFunction] at h
  -- Without an operand the function is applied to zero. The cases must not unfold it.
  generalize (0 : Binary64) = zero at h
  by_cases hoperand : isOperand (lastNumeral e)
  · simp only [hoperand, if_true] at h
    split at h
    · cases h
    · rename_i x hread
      split at h
      · rename_i hfinite
        cases h
        exact ⟨hfinite, .inr ⟨hoperand, x, hread, rfl, rfl⟩⟩
      · cases h
  · rw [if_neg hoperand] at h
    dsimp only at h
    split at h
    · rename_i hfinite
      cases h
      refine ⟨hfinite, .inl ?_⟩
      dsimp only
    · cases h

/-- A value that is put in place of the last numeral keeps one point in every run, or it is joined
to the numeral before a minus. -/
theorem onePoint_applyFunction (h : OnePoint e) (happly : applyFunction f e = .ok applied) :
    OnePoint applied.expression ∨ ∃ before run x, Joins f e before run x := by
  obtain ⟨hfinite, halone | ⟨hoperand, x, hread, hvalue, hexpression⟩⟩ := applyFunction_cases happly
  · rw [halone]
    exact .inl (Display.onePoint_text _)
  rw [hvalue] at hfinite hexpression
  obtain ⟨before, he, hbefore⟩ := exists_lastRun e
  have hbody : ∀ c ∈ lastRun e, Numeral.isBodyChar c := fun _ => isBodyChar_of_mem_lastRun
  have hcount : (lastRun e).count '.' ≤ 1 := h _ (List.rtakeWhile_suffix _ _).isInfix hbody
  have hnumeral := lastNumeral_append hbody hcount hbefore
  generalize lastRun e = run at he hbody hcount hnumeral
  subst he
  have hne : lastNumeral (before ++ run) ≠ [] := (isOperand_iff.1 hoperand).1
  have hpoints : ∀ {s : Text}, s <:+: before ++ run → applied.expression = s ++ Display.text (f x) →
      ('.' ∈ lastRun s → '.' ∉ firstRun (Display.text (f x))) → OnePoint applied.expression := by
    intro s hs heq hmeet
    rw [heq, onePoint_append_iff]
    exact ⟨h.of_infix hs, Display.onePoint_text _, hmeet⟩
  -- With a minus in the numeral the value meets what stands before the minus, which may be a run.
  split at hnumeral
  · rename_i hminus
    obtain ⟨s, rfl⟩ := List.getLast?_eq_some_iff.1 hminus
    rw [← List.append_cons] at *
    rw [replaceLastNumeral_append hnumeral (List.cons_ne_nil _ _)] at hexpression
    rw [hnumeral] at hread
    by_cases hmeet : '.' ∈ lastRun s ∧ '.' ∈ firstRun (Display.text (f x))
    · exact .inr ⟨s, run, x, rfl, hbody, hread, hfinite, hmeet.1, hmeet.2⟩
    · exact .inl (hpoints (List.prefix_append _ _).isInfix hexpression (not_and.1 hmeet))
  · rw [hnumeral] at hne
    rw [replaceLastNumeral_append hnumeral hne] at hexpression
    refine .inl (hpoints (List.prefix_append _ _).isInfix hexpression fun hmem => ?_)
    rw [hbefore] at hmem
    cases hmem

/-- What can be read is more than a lone minus or a lone point. -/
theorem isOperand_of_read {t : Text} {x : Binary64} (h : Numeral.read t = some x) : isOperand t := by
  refine isOperand_iff.2 ⟨?_, ?_, ?_⟩
  · rintro rfl
    cases h
  · rintro rfl
    cases h
  · rintro rfl
    cases h

/-- **A function at its operand**: the value takes the operand's place, if it is finite. -/
theorem applyFunction_append {before numeral : Text} {x : Binary64}
    (hlast : lastNumeral (before ++ numeral) = numeral) (hread : Numeral.read numeral = some x) :
    applyFunction f (before ++ numeral) =
      if (f x).isFinite then .ok ⟨before ++ Display.text (f x), f x⟩ else .error .invalidResult := by
  have hoperand : isOperand numeral := isOperand_of_read hread
  have hne : numeral ≠ [] := (isOperand_iff.1 hoperand).1
  rw [applyFunction, hlast]
  simp only [hoperand, if_true, hread, replaceLastNumeral_append hlast hne]

/-- **Where a value joins**, the function leaves it behind the other numeral without an operator. -/
theorem applyFunction_of_joins {before : Text} {x : Binary64} (h : OnePoint e)
    (hjoins : Joins f e before run x) :
    applyFunction f e = .ok ⟨before ++ Display.text (f x), f x⟩ := by
  obtain ⟨rfl, hbody, hread, hfinite, -, -⟩ := hjoins
  have hcount : run.count '.' ≤ 1 := h _ ⟨before ++ ['-'], [], by simp⟩ hbody
  rw [applyFunction_append (lastNumeral_append_minus before hbody hcount) hread, if_pos hfinite]

/-- **An inserted value** keeps one point in every run. Behind a run it stands as a factor. -/
theorem onePoint_insertLiteral (h : OnePoint e) (v : Binary64) :
    OnePoint (insertLiteral e v) := by
  have htext := Display.onePoint_text v
  rw [insertLiteral]
  cases hlast : e.getLast? with
  | none => exact htext
  | some c =>
    dsimp only
    split
    · rw [onePoint_append_iff, onePoint_cons_iff]
      exact ⟨h, ⟨htext, by simp⟩, fun _ => by simp [firstRun, Numeral.isBodyChar]⟩
    · rename_i hc
      have hrun : lastRun e = [] := lastRun_eq_nil fun d hd => by
        obtain rfl : c = d := Option.some.inj (hlast.symm.trans hd)
        simpa [Numeral.isBodyChar] using hc
      rw [onePoint_append_iff, hrun]
      exact ⟨h, htext, fun hmem => absurd hmem List.not_mem_nil⟩

end Edit

end PocketCalculator
