/-
# The last numeral is the longest

The last numeral is found from the end, by a scan that takes digits, a point with the digits before
it, and a minus. What it is to find is said by a pattern, of which every part may be missing:

| part | characters |
| --- | --- |
| sign | a minus |
| whole | digits |
| point | a point |
| fraction | digits |

Whatever the text, the scan finds the longest suffix of this shape (`Edit.lastNumeral_longest`). A
suffix of such a text has the shape too (`Numeral.Begun.of_suffix`), so it is enough that one more
character spoils it (`Edit.exists_lastNumeral`): behind the scan there is no digit, no point unless
one has been taken, and no minus unless one has been taken.

The numeral is replaced where it stands. Where there is none, what replaces it is all that remains,
so that replacing the last numeral by itself gives the text back just if there is one, or no text.
-/

import PocketCalculator.Proofs.DigitRuns

namespace PocketCalculator

namespace Numeral

/-- A sign, whole digits, a point and further digits, each of which may be missing. -/
def Shaped (t : Text) : Prop :=
  ∃ sign whole point fraction : Text, t = sign ++ (whole ++ (point ++ fraction)) ∧
    (sign = [] ∨ sign = ['-']) ∧ (∀ c ∈ whole, c.isDigit) ∧ (point = [] ∨ point = ['.']) ∧
      ∀ c ∈ fraction, c.isDigit

variable {s t : Text} {c : Char}

/-- Without a minus in front there is no sign to drop. -/
theorem unsigned_of_head? (h : t.head? ≠ some '-') : unsigned t = t := by
  unfold unsigned
  split
  · exact absurd rfl h
  · rfl

/-- Digits and points have no sign. -/
theorem unsigned_of_forall (ht : ∀ c ∈ t, isBodyChar c) : unsigned t = t :=
  unsigned_of_head? fun hminus => ne_minus_of_isBodyChar (ht '-' (List.mem_of_mem_head? hminus)) rfl

/-- Digits and one point at most begin a numeral. -/
theorem begun_of_forall (ht : ∀ c ∈ t, isBodyChar c) (hcount : t.count '.' ≤ 1) : Begun t := by
  rw [Begun, unsigned_of_forall ht]
  exact ⟨ht, hcount⟩

/-- A minus in front of them does too. -/
theorem begun_minus_of_forall (ht : ∀ c ∈ t, isBodyChar c) (hcount : t.count '.' ≤ 1) :
    Begun ('-' :: t) := ⟨ht, hcount⟩

/-- The shape, said by its parts, is that of a numeral that has been begun. -/
theorem shaped_iff : Shaped t ↔ Begun t := by
  constructor
  · rintro ⟨sign, whole, point, fraction, rfl, hsign, hwhole, hpoint, hfraction⟩
    have hbody : ∀ c ∈ whole ++ (point ++ fraction), isBodyChar c := by
      intro c hc
      rcases List.mem_append.1 hc with hc | hc
      · simp [isBodyChar, hwhole c hc]
      rcases List.mem_append.1 hc with hc | hc
      · rcases hpoint with rfl | rfl
        · simp at hc
        · simp [isBodyChar, List.mem_singleton.1 hc]
      · simp [isBodyChar, hfraction c hc]
    have hcount : (whole ++ (point ++ fraction)).count '.' ≤ 1 := by
      rw [List.count_append, List.count_append, count_point_of_isDigit hwhole,
        count_point_of_isDigit hfraction]
      rcases hpoint with rfl | rfl <;> simp
    rcases hsign with rfl | rfl
    · exact begun_of_forall hbody hcount
    · exact begun_minus_of_forall hbody hcount
  · rintro ⟨hbody, hcount⟩
    obtain ⟨negative, ht⟩ := exists_sign t
    have hsign : Display.signText negative = [] ∨ Display.signText negative = ['-'] := by
      cases negative
      · exact .inl rfl
      · exact .inr rfl
    rcases Edit.exists_digits hbody hcount with hdigits | ⟨whole, fraction, hrun, hwhole, hfraction⟩
    · exact ⟨_, unsigned t, [], [], by simpa using ht, hsign, hdigits, .inl rfl, by simp⟩
    · rw [hrun] at ht
      exact ⟨_, whole, ['.'], fraction, ht, hsign, hwhole, .inr rfl, hfraction⟩

/-- **A suffix of the shape** has the shape. -/
theorem Begun.of_suffix (h : Begun t) (hs : s <:+ t) : Begun s := by
  obtain ⟨hbody, hcount⟩ := h
  obtain ⟨negative, ht⟩ := exists_sign t
  generalize unsigned t = run at hbody hcount ht
  have hrun : ∀ {s : Text}, s <:+ run → Begun s := fun hs =>
    begun_of_forall (fun c hc => hbody c (hs.subset hc)) ((hs.sublist.count_le _).trans hcount)
  subst ht
  cases negative with
  | false => exact hrun hs
  | true =>
    rcases List.suffix_cons_iff.1 hs with rfl | hs
    · exact begun_minus_of_forall hbody hcount
    · exact hrun hs

/-- A minus is the first character or there is none. -/
theorem not_begun_cons_minus : ¬ Begun (c :: '-' :: t) := by
  intro h
  have hmem : '-' ∈ unsigned (c :: '-' :: t) := by
    by_cases hc : c = '-'
    · subst hc
      exact List.mem_cons_self
    · rw [unsigned_of_head? (by simpa using hc)]
      simp
  exact ne_minus_of_isBodyChar (h.1 '-' hmem) rfl

end Numeral

namespace Edit

open Numeral

/-- A text begins with a run with at most one point that one more character does not continue. The
induction puts one character behind the text, and behind the run that may be all of it. -/
theorem exists_run (t : Text) :
    ∃ run rest, t = run ++ rest ∧ (∀ c ∈ run, isBodyChar c) ∧ run.count '.' ≤ 1 ∧
      ∀ c ∈ rest.head?, isBodyChar c → c = '.' ∧ '.' ∈ run := by
  induction t using List.reverseRecOn with
  | nil => exact ⟨[], [], rfl, by simp, by simp, by simp⟩
  | append_singleton s c ih =>
    obtain ⟨run, rest, rfl, hbody, hcount, hrest⟩ := ih
    cases rest with
    | cons d rest => exact ⟨run, d :: (rest ++ [c]), by simp, hbody, hcount, hrest⟩
    | nil =>
      by_cases hends : isBodyChar c → c = '.' ∧ '.' ∈ run
      · exact ⟨run, [c], by simp, hbody, hcount, by simpa using hends⟩
      · obtain ⟨hc, hpoint⟩ := Classical.not_imp.1 hends
        refine ⟨run ++ [c], [], by simp, ?_, ?_, by simp⟩
        · simpa [or_imp, forall_and] using ⟨hbody, hc⟩
        · rw [List.count_append, List.count_singleton]
          split
          · rename_i heq
            have hzero : run.count '.' = 0 :=
              List.count_eq_zero.2 fun hmem => hpoint ⟨by simpa using heq, hmem⟩
            omega
          · exact hcount

/-- **The last numeral** ends the text and has the shape, and one more character spoils it. -/
theorem exists_lastNumeral (s : Text) :
    ∃ before, s = before ++ lastNumeral s ∧ Begun (lastNumeral s) ∧
      ∀ c ∈ before.getLast?, ¬ Begun (c :: lastNumeral s) := by
  obtain ⟨run, rest, hs, hbody, hcount, hrest⟩ := exists_run s.reverse
  have hnumeral := reversedNumeral_append hbody hcount hrest
  rw [← hs] at hnumeral
  have hbody' : ∀ c ∈ run.reverse, isBodyChar c := by simpa using hbody
  have hcount' : run.reverse.count '.' ≤ 1 := by simpa using hcount
  replace hs : s = rest.reverse ++ run.reverse := by
    rw [← List.reverse_append, ← hs, List.reverse_reverse]
  rw [lastNumeral, hnumeral]
  -- Nothing can stand before a minus. Without one, a further character is no part of a body, or is
  -- a second point.
  by_cases hminus : rest.head? = some '-'
  · obtain ⟨rest, rfl⟩ := List.head?_eq_some_iff.1 hminus
    refine ⟨rest.reverse, ?_, ?_, fun c _ => ?_⟩
    · simpa using hs
    · simpa using begun_minus_of_forall hbody' hcount'
    · simpa using not_begun_cons_minus
  · rw [if_neg hminus]
    refine ⟨rest.reverse, hs, begun_of_forall hbody' hcount', fun c hc hbegun => ?_⟩
    rw [List.getLast?_reverse] at hc
    have hne : c ≠ '-' := by
      rintro rfl
      exact hminus hc
    have hunsigned : unsigned (c :: run.reverse) = c :: run.reverse :=
      unsigned_of_head? (by simpa using hne)
    rw [Begun, hunsigned] at hbegun
    obtain ⟨rfl, hpoint⟩ := hrest c hc (hbegun.1 c List.mem_cons_self)
    have hpositive : 0 < run.reverse.count '.' := List.count_pos_iff.2 (by simpa using hpoint)
    have htwo := hbegun.2
    rw [List.count_cons_self] at htwo
    omega

/-- What replaces the last numeral stands behind what is before it, or alone. -/
theorem replaceLastNumeral_of_append {s before : Text} (hs : s = before ++ lastNumeral s)
    (replacement : Text) : replaceLastNumeral s replacement =
      if lastNumeral s = [] then replacement else before ++ replacement := by
  split
  · rename_i hnil
    rw [replaceLastNumeral, if_pos hnil]
  · rename_i hne
    have hlast : lastNumeral (before ++ lastNumeral s) = lastNumeral s := by rw [← hs]
    calc
      replaceLastNumeral s replacement
        = replaceLastNumeral (before ++ lastNumeral s) replacement := by rw [← hs]
      _ = before ++ replacement := replaceLastNumeral_append hlast hne

/-- **The last numeral is the longest suffix of its shape**, and what replaces it stands in its
place. If it is empty, nothing else remains; so replacing it by itself gives the text back just if it
is not empty, or the text is. -/
theorem lastNumeral_longest (s : Text) :
    lastNumeral s <:+ s ∧ Shaped (lastNumeral s) ∧
      (∀ t, t <:+ s → (lastNumeral s).length < t.length → ¬ Shaped t) ∧
      (∀ before replacement, s = before ++ lastNumeral s → replaceLastNumeral s replacement =
        if lastNumeral s = [] then replacement else before ++ replacement) ∧
      (replaceLastNumeral s (lastNumeral s) = s ↔ lastNumeral s ≠ [] ∨ s = []) := by
  obtain ⟨before, hs, hbegun, hspoiled⟩ := exists_lastNumeral s
  have hsuffix : lastNumeral s <:+ s := ⟨before, hs.symm⟩
  refine ⟨hsuffix, shaped_iff.2 hbegun, fun t ht hlength hshaped => ?_,
    fun _ replacement hs => replaceLastNumeral_of_append hs replacement, ?_⟩
  · obtain ⟨more, rfl⟩ := List.suffix_of_suffix_length_le hsuffix ht hlength.le
    rcases more.eq_nil_or_concat with rfl | ⟨more, c, rfl⟩
    · simp at hlength
    obtain ⟨first, hfirst⟩ := ht
    have hwhole : first ++ (more ++ [c]) ++ lastNumeral s = s := by simpa using hfirst
    have hbefore : first ++ (more ++ [c]) = before := List.append_cancel_right (hwhole.trans hs)
    have hlonger : c :: lastNumeral s <:+ more.concat c ++ lastNumeral s := ⟨more, by simp⟩
    exact hspoiled c (by simp [← hbefore]) ((shaped_iff.1 hshaped).of_suffix hlonger)
  · rw [replaceLastNumeral_of_append hs, ← hs]
    by_cases hnil : lastNumeral s = []
    · rw [if_pos hnil, hnil]
      simp [eq_comm]
    · simp [hnil]

/-- Two points: the last numeral has one of them, and the longer suffix with both has not the
shape. -/
theorem lastNumeral_longest_points :
    let s := "1.2.3".toList
    lastNumeral s = "2.3".toList ∧ ¬ Shaped ".2.3".toList ∧
      replaceLastNumeral s ['7'] = "1.7".toList ∧ replaceLastNumeral s (lastNumeral s) = s := by
  intro s
  have hlast : lastNumeral s = "2.3".toList := by decide
  obtain ⟨-, -, hlongest, hreplace, hself⟩ := lastNumeral_longest s
  rw [hlast] at hlongest hreplace hself ⊢
  exact ⟨rfl, hlongest _ ⟨['1'], rfl⟩ (by decide), hreplace "1.".toList ['7'] rfl,
    hself.2 (.inl (by decide))⟩

/-- Behind an operator there is no last numeral, and replacing it by itself leaves nothing. -/
theorem replaceLastNumeral_self_ne :
    let s := "5+".toList
    lastNumeral s = [] ∧ replaceLastNumeral s (lastNumeral s) = [] ∧
      replaceLastNumeral s (lastNumeral s) ≠ s := by decide

end Edit
end PocketCalculator
