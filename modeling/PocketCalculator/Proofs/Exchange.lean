/-
# A history in JSON is read back

The form for exchange has escapes of its own. A short one is a backslash and a letter, and the
other control characters are written by their code; both are read as the character
(`Json.pieces_escapeChar`), and no other character begins with a backslash. From there the scanner
and the reader go as for the stored form, through `Data.Scanner.Cuts.history` and
`History.read?_of_scan`. A text that is read back was written from one history only.
-/

import PocketCalculator.Proofs.ReadBack

namespace PocketCalculator

namespace Json

open Data (Lexeme Scanner)

/-! ### Escapes -/

/-- A character that is neither a backslash nor a control character stands for itself. -/
theorem pieces_of_ne_backslash {c : Char} (hbackslash : c ≠ '\\') (hcontrol : ¬ c.toNat < 0x20)
    (rest : Text) : pieces (c :: rest) = (pieces rest).map (.whole c :: ·) := by
  rw [pieces.eq_def]
  exact (if_neg hbackslash).trans (if_neg hcontrol)

/-- A backslash with a letter stands for one character. -/
theorem pieces_backslash {e c : Char} (he : ofEscape? e = some c) (hu : e ≠ 'u') (rest : Text) :
    pieces ('\\' :: e :: rest) = (pieces rest).map (.whole c :: ·) := by
  rw [pieces.eq_def]
  simp only [if_true, if_neg hu, he]
  cases pieces rest <;> rfl

/-- Two digits behind two zeros are the code of a control character. -/
theorem code?_digits : ∀ n < 0x20,
    code? '0' '0' (Hexadecimal.digit (n / 16)) (Hexadecimal.digit (n % 16)) = some n := by
  decide

/-- A control character is read back from its code. -/
theorem pieces_code {c : Char} (hc : c.toNat < 0x20) (rest : Text) :
    pieces ('\\' :: 'u' :: '0' :: '0' :: Hexadecimal.digit (c.toNat / 16) ::
      Hexadecimal.digit (c.toNat % 16) :: rest) = (pieces rest).map (.whole c :: ·) := by
  have hpiece : Piece.ofCode c.toNat = .whole c := by
    rw [Piece.ofCode, if_neg (by omega), Char.ofNat_toNat]
  rw [pieces.eq_def]
  simp only [if_true, code?_digits _ hc, Option.bind_eq_bind, Option.bind_some, hpiece]
  cases pieces rest <;> rfl

/-- **An escaped character** is read as the character. -/
theorem pieces_escapeChar (c : Char) (rest : Text) :
    pieces (escapeChar c ++ rest) = (pieces rest).map (.whole c :: ·) := by
  unfold escapeChar
  split
  case h_8 hbackslash _ _ _ _ _ =>
    split
    · rename_i hcontrol
      exact pieces_code hcontrol rest
    · rename_i hcontrol
      exact pieces_of_ne_backslash hbackslash hcontrol rest
  -- Each of the others has a letter of its own.
  all_goals exact pieces_backslash rfl (by decide) rest

/-- Without halves of surrogate pairs nothing has to meet. -/
theorem joinPieces_whole (t : Text) : joinPieces (t.map .whole) = some t := by
  induction t with
  | nil => rfl
  | cons c t ih => rw [List.map_cons, joinPieces, ih, Option.map_some]

/-- **What is escaped is read back.** -/
theorem unescape_escape (t : Text) : unescape (escape t) = some (some t) := by
  have hpieces : pieces (escape t) = some (t.map .whole) := by
    rw [escape]
    induction t with
    | nil => rfl
    | cons c t ih => rw [List.flatMap_cons, pieces_escapeChar, ih, Option.map_some, List.map_cons]
  rw [unescape, hpieces, Option.map_some, joinPieces_whole]

/-! ### Quotes -/

deriving instance DecidableEq for Place

/-- A character is written as itself, or with a backslash for every quote and backslash. -/
theorem enclosed_escapeChar (c : Char) : Data.Enclosed (escapeChar c) := by
  have hdigit (n : ℕ) (hn : n < 16) : Hexadecimal.digit n ≠ '"' ∧ Hexadecimal.digit n ≠ '\\' :=
    (Hexadecimal.digitChar_ne n hn).2
  unfold escapeChar
  split
  case h_8 hquote hbackslash _ _ _ _ _ =>
    split
    · rename_i hcontrol
      refine .escape 'u' (.of_forall ?_)
      simp [hdigit (c.toNat / 16) (by omega), hdigit (c.toNat % 16) (by omega)]
    · exact .plain hquote hbackslash .nil
  all_goals exact .escape _ .nil

/-- **Enclosed text** is read character by character and stays between the quotes. -/
theorem runs_enclosed {t : Text} (ht : Data.Enclosed t) (read : Text) :
    scanner.Runs (.quotes read) t [] (.quotes (read ++ t)) := by
  have hplain (read : Text) (c : Char) (hquote : c ≠ '"') (hbackslash : c ≠ '\\') :
      scanner.step (.quotes read) c = some ([], .quotes (read ++ [c])) := by
    simp [scanner, step, hquote, hbackslash]
  have hescape (read : Text) (c : Char) :
      scanner.Runs (.quotes read) ['\\', c] [] (.quotes (read ++ ['\\', c])) := rfl
  exact ht.runs hplain hescape read

/-- **A quoted text** is scanned as the text. -/
theorem runs_writeQuoted (t : Text) :
    scanner.Runs .between (Data.writeQuoted .json t) [.quoted (some t)] .between := by
  have hopen : scanner.Runs .between ['"'] [] (.quotes []) := by decide +kernel
  have hclose : scanner.Runs (.quotes (escape t)) ['"'] [.quoted (some t)] .between := by
    simp [Scanner.Runs, Scanner.runFrom, scanner, step, unescape_escape]
  have htext := runs_enclosed (.flatMap enclosed_escapeChar t) []
  exact hopen.append (htext.append hclose)

/-- The scanner of JSON, between two parts. -/
theorem cuts : scanner.Cuts .json .between where
  quoted := runs_writeQuoted
  expression := by decide +kernel
  result := by decide +kernel
  closing := by decide +kernel
  listOpening := by decide +kernel
  comma := by decide +kernel
  listClosing := by decide +kernel

end Json

namespace History

/-- **A history in JSON is read back**, with the same entries in the same order. -/
theorem read?_write_json (h : History) : read? .json (h.write .json) = some h := by
  refine read?_of_scan rfl ?_
  have hscan : Json.scanner.scan (h.write .json) = some (h.lexemes .json ++ []) :=
    (Json.cuts.history h).scanFrom rfl
  rw [List.append_nil] at hscan
  rw [Data.Dialect.scan, hscan]
  rfl

/-- **Exchange loses nothing.** Every history, however many entries it has and whatever characters
these hold, is read back from its JSON text, and so no two histories have the same text. -/
theorem exchange : (∀ h : History, read? .json (h.write .json) = some h) ∧
    Function.Injective (write .json) := by
  refine ⟨read?_write_json, fun h h' hwrite => ?_⟩
  have hread := h.read?_write_json
  rw [hwrite, h'.read?_write_json] at hread
  exact (Option.some.inj hread).symm

end History
end PocketCalculator
