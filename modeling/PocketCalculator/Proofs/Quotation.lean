/-
# Quoted texts, written and read

A text is written between quotes with escapes, and a scanner that comes upon the quotes has the text
again. Two things have to be seen: the scanner does not stop inside the text, because a quote in it
stands behind a backslash (`Data.Enclosed.runs`), and what stands between the quotes is the text
once its escapes are taken back.

`Data.Scanner.Runs` says what a scanner makes of a part of a text, from one place to another. Parts
follow each other (`Runs.append`), so a text that is written from parts is scanned part by part.
`Stored.runs_writeQuoted` is the result for a quoted text of the stored form.
-/

import Mathlib.Algebra.Group.Nat.Defs
import PocketCalculator.Data.Writer

namespace PocketCalculator

namespace Data.Scanner

variable {Place : Type} (s : Scanner Place)

/-- The lexemes of a part of a text, and the place behind it. -/
def runFrom : Place → Text → Option (List Lexeme × Place)
  | place, [] => some ([], place)
  | place, c :: rest => do
    let (lexemes, place) ← s.step place c
    let (more, place) ← runFrom place rest
    return (lexemes ++ more, place)

/-- From one place over a part of a text to another place, there are these lexemes. -/
def Runs (place : Place) (t : Text) (lexemes : List Lexeme) (behind : Place) : Prop :=
  s.runFrom place t = some (lexemes, behind)

instance [DecidableEq Place] (place : Place) (t : Text) (lexemes : List Lexeme) (behind : Place) :
    Decidable (s.Runs place t lexemes behind) :=
  inferInstanceAs (Decidable (s.runFrom place t = some (lexemes, behind)))

variable {s}

/-- A run over no character goes nowhere. -/
theorem Runs.nil (place : Place) : s.Runs place [] [] place := rfl

/-- A run over one more character in front. -/
theorem Runs.cons {place next behind : Place} {c : Char} {t : Text} {lexemes more : List Lexeme}
    (hc : s.step place c = some (lexemes, next)) (ht : s.Runs next t more behind) :
    s.Runs place (c :: t) (lexemes ++ more) behind := by
  rw [Runs] at ht
  simp [Runs, runFrom, hc, ht]

/-- **One part behind another.** -/
theorem Runs.append {place middle behind : Place} {t u : Text} {lexemes more : List Lexeme}
    (ht : s.Runs place t lexemes middle) (hu : s.Runs middle u more behind) :
    s.Runs place (t ++ u) (lexemes ++ more) behind := by
  induction t generalizing place lexemes with
  | nil =>
    obtain ⟨rfl, rfl⟩ := Prod.mk.inj (Option.some.inj ht)
    exact hu
  | cons c t ih =>
    rw [Runs, runFrom] at ht
    cases hc : s.step place c with
    | none => simp [hc] at ht
    | some first =>
      cases hrest : s.runFrom first.2 t with
      | none => simp [hc, hrest] at ht
      | some rest =>
        obtain ⟨rfl, rfl⟩ : first.1 ++ rest.1 = lexemes ∧ rest.2 = middle := by
          simpa [hc, hrest] using ht
        rw [List.append_assoc]
        exact .cons hc (ih hrest)

/-- A whole text is scanned to its end. -/
theorem Runs.scanFrom {place behind : Place} {t : Text} {lexemes last : List Lexeme}
    (ht : s.Runs place t lexemes behind) (hfinish : s.finish behind = some last) :
    s.scanFrom place t = some (lexemes ++ last) := by
  induction t generalizing place lexemes with
  | nil =>
    obtain ⟨rfl, rfl⟩ := Prod.mk.inj (Option.some.inj ht)
    exact hfinish
  | cons c t ih =>
    rw [Runs, runFrom] at ht
    cases hc : s.step place c with
    | none => simp [hc] at ht
    | some first =>
      cases hrest : s.runFrom first.2 t with
      | none => simp [hc, hrest] at ht
      | some rest =>
        obtain ⟨rfl, rfl⟩ : first.1 ++ rest.1 = lexemes ∧ rest.2 = behind := by
          simpa [hc, hrest] using ht
        simp [Scanner.scanFrom, hc, ih hrest]

end Data.Scanner

namespace Data

/-- What may stand between quotes: characters that are neither a quote nor a backslash, and
backslashes with the character that each of them takes with it. -/
inductive Enclosed : Text → Prop
  | nil : Enclosed []
  | plain {c : Char} {t : Text} (hquote : c ≠ '"') (hbackslash : c ≠ '\\') (ht : Enclosed t) :
      Enclosed (c :: t)
  | escape (c : Char) {t : Text} (ht : Enclosed t) : Enclosed ('\\' :: c :: t)

namespace Enclosed

/-- A text without quotes and backslashes may stand between quotes. -/
theorem of_forall {t : Text} (ht : ∀ c ∈ t, c ≠ '"' ∧ c ≠ '\\') : Enclosed t := by
  induction t with
  | nil => exact .nil
  | cons c t ih =>
    obtain ⟨⟨hquote, hbackslash⟩, ht⟩ := List.forall_mem_cons.1 ht
    exact .plain hquote hbackslash (ih ht)

/-- So may two such texts, one behind the other. -/
theorem append {t u : Text} (ht : Enclosed t) (hu : Enclosed u) : Enclosed (t ++ u) := by
  induction ht with
  | nil => exact hu
  | plain hquote hbackslash _ ih => exact .plain hquote hbackslash ih
  | escape c _ ih => exact .escape c ih

/-- So may a text with every character replaced by such a text. -/
theorem flatMap {f : Char → Text} (hf : ∀ c, Enclosed (f c)) (t : Text) :
    Enclosed (t.flatMap f) := by
  induction t with
  | nil => exact .nil
  | cons c t ih => exact (hf c).append ih

/-- **A scanner stays between the quotes** if it does so at a character that is neither a quote nor
a backslash, and over a backslash with any character. -/
theorem runs {Place : Type} {s : Scanner Place} {quotes : Text → Place} {t : Text}
    (ht : Enclosed t)
    (hplain : ∀ read c, c ≠ '"' → c ≠ '\\' →
      s.step (quotes read) c = some ([], quotes (read ++ [c])))
    (hescape : ∀ read c, s.Runs (quotes read) ['\\', c] [] (quotes (read ++ ['\\', c])))
    (read : Text) : s.Runs (quotes read) t [] (quotes (read ++ t)) := by
  induction ht generalizing read with
  | nil => simpa using Scanner.Runs.nil (quotes read)
  | plain hquote hbackslash _ ih =>
    simpa using Scanner.Runs.cons (hplain read _ hquote hbackslash) (ih _)
  | escape c _ ih => simpa using (hescape read c).append (ih _)

end Enclosed
end Data

namespace Hexadecimal

/-- A digit is read as the number it was written for. -/
theorem value?_digitChar : ∀ n < 16, value? (Nat.digitChar n) = some n := by decide

/-- A digit is no mark: it closes no bracket, and neither a quote nor a backslash. -/
theorem digitChar_ne : ∀ n < 16,
    Nat.digitChar n ≠ '\x7d' ∧ Nat.digitChar n ≠ '"' ∧ Nat.digitChar n ≠ '\\' := by decide

/-- A number below sixteen has one digit. -/
theorem ofNat_of_lt {n : Nat} (hn : n < 16) : ofNat n = [Nat.digitChar n] :=
  Nat.toDigits_of_lt_base hn

/-- Any other has one digit more than its sixteenth part. -/
theorem ofNat_of_le {n : Nat} (hn : 16 ≤ n) :
    ofNat n = ofNat (n / 16) ++ [Nat.digitChar (n % 16)] :=
  Nat.toDigits_of_base_le (by decide) hn

/-- A number is written with the digits of the numbers below sixteen. -/
theorem exists_of_mem_ofNat {n : Nat} {c : Char} (hc : c ∈ ofNat n) :
    ∃ k < 16, c = Nat.digitChar k := by
  induction n using Nat.strongRecOn with
  | ind n ih =>
    rcases Nat.lt_or_ge n 16 with hn | hn
    · rw [ofNat_of_lt hn, List.mem_singleton] at hc
      exact ⟨n, hn, hc⟩
    · rw [ofNat_of_le hn, List.mem_append, List.mem_singleton] at hc
      rcases hc with hc | hc
      · exact ih (n / 16) (by omega) hc
      · exact ⟨n % 16, Nat.mod_lt n (by decide), hc⟩

/-- A code point has at most six digits. -/
theorem length_ofNat_le (c : Char) : (ofNat c.toNat).length ≤ 6 := by
  rw [ofNat, Nat.length_toDigits_le_iff (by decide) (by decide)]
  have hvalid : c.toNat < 0xD800 ∨ 0xDFFF < c.toNat ∧ c.toNat < 0x110000 := c.valid
  omega

end Hexadecimal

namespace Stored

open Data (Lexeme Scanner)

/-! ### Escapes -/

/-- A digit of a code is read behind those that were read before. -/
theorem unescapeFrom_digitChar (content : Content) {n digits : Nat} (hn : n < 16)
    (hdigits : digits < 6) (value : Nat) (rest : Text) :
    unescapeFrom content (.code digits value) (Nat.digitChar n :: rest) =
      unescapeFrom content (.code (digits + 1) (value * 16 + n)) rest := by
  rw [unescapeFrom, if_neg (Hexadecimal.digitChar_ne n hn).1, if_pos hdigits,
    Hexadecimal.value?_digitChar n hn]
  rfl

/-- The digits of a number are read behind those that were read before. -/
theorem unescapeFrom_ofNat (content : Content) (n digits value : Nat) (rest : Text)
    (h : digits + (Hexadecimal.ofNat n).length ≤ 6) :
    unescapeFrom content (.code digits value) (Hexadecimal.ofNat n ++ rest) =
      unescapeFrom content (.code (digits + (Hexadecimal.ofNat n).length)
        (value * 16 ^ (Hexadecimal.ofNat n).length + n)) rest := by
  induction n using Nat.strongRecOn generalizing rest with
  | ind n ih =>
    rcases Nat.lt_or_ge n 16 with hn | hn
    · rw [Hexadecimal.ofNat_of_lt hn] at h ⊢
      rw [List.singleton_append, unescapeFrom_digitChar content hn h, List.length_singleton,
        pow_one]
    · rw [Hexadecimal.ofNat_of_le hn, List.length_append, List.length_singleton] at h ⊢
      have hlast : n % 16 < 16 := Nat.mod_lt n (by decide)
      have hvalue : (value * 16 ^ (Hexadecimal.ofNat (n / 16)).length + n / 16) * 16 + n % 16 =
          value * 16 ^ ((Hexadecimal.ofNat (n / 16)).length + 1) + n := by
        rw [pow_succ, ← Nat.mul_assoc]
        omega
      rw [List.append_assoc, ih (n / 16) (by omega) _ (by omega), List.singleton_append,
        unescapeFrom_digitChar content hlast (by omega), hvalue, Nat.add_assoc]

/-- The code of a character is read as the character. -/
theorem ofCode?_toNat (c : Char) : ofCode? c.toNat = some c := by
  have hvalid : c.toNat.isValidChar := c.valid
  rw [ofCode?, if_pos hvalid, Char.ofNat_toNat]

/-- A code between brackets is the character that it was written for. -/
theorem unescapeFrom_code (c : Char) (rest : Text) :
    unescapeFrom .text (.code 0 0) (Hexadecimal.ofNat c.toNat ++ '\x7d' :: rest) =
      (unescapeFrom .text .plain rest).map (c :: ·) := by
  have hlength : 0 < (Hexadecimal.ofNat c.toNat).length := Nat.length_toDigits_pos
  have hsix := Hexadecimal.length_ofNat_le c
  rw [unescapeFrom_ofNat .text c.toNat 0 0 _ (by omega), Nat.zero_mul, Nat.zero_add,
    Nat.zero_add, unescapeFrom, if_pos rfl, if_neg (by omega), ofCode?_toNat]
  cases unescapeFrom .text .plain rest <;> rfl

/-- **An escaped character** is read as the character. -/
theorem unescapeFrom_escapeChar (c : Char) (rest : Text) :
    unescapeFrom .text .plain (escapeChar c ++ rest) =
      (unescapeFrom .text .plain rest).map (c :: ·) := by
  unfold escapeChar
  split
  case h_8 hbackslash _ _ _ _ =>
    split
    · exact if_neg hbackslash
    · simp only [List.cons_append, List.append_assoc, List.nil_append]
      exact unescapeFrom_code c rest
  -- Each of the others has a letter of its own.
  all_goals exact Option.map_eq_bind.symm

/-- **What is escaped is read back.** -/
theorem unescape_escape (t : Text) : unescape .text (escape t) = some t := by
  rw [unescape, escape]
  induction t with
  | nil => rfl
  | cons c t ih => rw [List.flatMap_cons, unescapeFrom_escapeChar, ih, Option.map_some]

/-! ### Quotes -/

deriving instance DecidableEq for Place

/-- A character is written as itself, or with a backslash for every quote and backslash. -/
theorem enclosed_escapeChar (c : Char) : Data.Enclosed (escapeChar c) := by
  unfold escapeChar
  split
  case h_8 hquote _ hbackslash _ _ _ _ =>
    split
    · exact .plain hquote hbackslash .nil
    · refine .escape 'u' (.of_forall fun d hd => ?_)
      rcases List.mem_append.1 hd with hd | hd
      · rcases List.mem_cons.1 hd with rfl | hd
        · decide
        · obtain ⟨k, hk, rfl⟩ := Hexadecimal.exists_of_mem_ofNat hd
          exact (Hexadecimal.digitChar_ne k hk).2
      · rw [List.mem_singleton.1 hd]
        decide
  all_goals exact .escape _ .nil

/-- An escaped text may stand between quotes. -/
theorem enclosed_escape (t : Text) : Data.Enclosed (escape t) :=
  .flatMap enclosed_escapeChar t

/-- What is enclosed leaves the scanner between the quotes. -/
theorem runs_enclosed {t : Text} (ht : Data.Enclosed t) (content : Content) (read : Text) :
    scanner.Runs (.quotes content read) t [] (.quotes content (read ++ t)) := by
  have hplain (read : Text) (c : Char) (hquote : c ≠ '"') (hbackslash : c ≠ '\\') :
      scanner.step (.quotes content read) c = some ([], .quotes content (read ++ [c])) := by
    simp [scanner, step, hquote, hbackslash]
  have hescape (read : Text) (c : Char) :
      scanner.Runs (.quotes content read) ['\\', c] [] (.quotes content (read ++ ['\\', c])) := rfl
  exact ht.runs hplain hescape read

/-- **A quoted text** is scanned as the text. -/
theorem runs_writeQuoted (a : Attributes) (t : Text) :
    scanner.Runs .between (Data.writeQuoted (.stored a) t) [.quoted (some t)] .between := by
  have hopen : scanner.Runs .between ['"'] [] (.quotes .text []) := by decide +kernel
  have hclose : scanner.Runs (.quotes .text (escape t)) ['"'] [.quoted (some t)] .between := by
    simp [Scanner.Runs, Scanner.runFrom, scanner, step, unescape_escape, ofQuoted]
  exact hopen.append ((runs_enclosed (enclosed_escape t) .text []).append hclose)

end Stored
end PocketCalculator
