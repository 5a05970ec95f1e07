/-
# What is kept is read back

A written history goes through three forms on its way back:

| form | of an entry | of the history |
| --- | --- | --- |
| text | `Entry.write` | `History.write` |
| lexemes | `Entry.lexemes` | `History.lexemes` |
| data | `Entry.data` | `History.data` |

Each step is stated for one entry in the middle of the list, and the list follows by induction. All
of this is the same for both dialects, but for what a scanner makes of marks and quoted texts
(`Data.Scanner.Cuts`). So a session that is saved and restored has its history up to the limit and
its preferences, and is new in everything else (`Session.restore_save`).
-/

import PocketCalculator.Proofs.Quotation
import PocketCalculator.Storage

namespace PocketCalculator

open Data (Dialect Lexeme Reader)

/-- Separators stand in front of every part but the first. -/
theorem intercalate_cons_eq_flatMap {α : Type} (sep x : List α) (xs : List (List α)) :
    List.intercalate sep (x :: xs) = x ++ xs.flatMap (sep ++ ·) := by
  induction xs generalizing x with
  | nil => simp
  | cons y ys ih =>
    rw [List.intercalate_cons_cons, ih, List.flatMap_cons, List.append_assoc, List.append_assoc]

/-! ### Lexemes and data -/

/-- The lexeme of a label. -/
def Data.labelLexeme : Dialect → Text → Lexeme
  | .json, t => .quoted (some t)
  | .stored _, t => .name t

namespace Entry

/-- The lexemes of a written entry. -/
def lexemes (d : Dialect) (e : Entry) : List Lexeme :=
  [.opening .record,
    Data.labelLexeme d expressionLabel, .colon, .quoted (some e.expression), .comma,
    Data.labelLexeme d resultLabel, .colon, .quoted (some e.result), .closing .record]

/-- What a written entry says. -/
def data (e : Entry) : Data :=
  .record none
    [(some expressionLabel, .quoted (some e.expression)),
      (some resultLabel, .quoted (some e.result))]

/-- **The reader over one entry** of a list. -/
theorem foldlM_lexemes (d : Dialect) (e : Entry) {last : Data.Last}
    (hlast : last = .opening ∨ last = .comma) (entries : List (Option Data × Data))
    (frames : List Data.Frame) :
    (e.lexemes d).foldlM (Reader.step d) ⟨last, ⟨.list, entries, none⟩ :: frames⟩ =
      some ⟨.value e.data, ⟨.list, entries, none⟩ :: frames⟩ := by
  rcases hlast with rfl | rfl <;> cases d <;> rfl

/-- The data of an entry are the entry. -/
theorem ofData?_data {d : Dialect} (hname : d.acceptsName recordName none) (e : Entry) :
    ofData? d e.data = some e := by
  have hfields : e.data.fields? d recordName = some
      [(some expressionLabel, .quoted (some e.expression)),
        (some resultLabel, .quoted (some e.result))] := if_pos ⟨hname, rfl⟩
  rw [data] at hfields
  rw [data, ofData?, hfields]
  · rfl
  · intro expression result h
    cases h

end Entry

namespace History

/-- The lexemes of a written history. -/
def lexemes (d : Dialect) (h : History) : List Lexeme :=
  .opening .list :: List.intercalate [.comma] (h.entries.map (Entry.lexemes d)) ++ [.closing .list]

/-- What a written history says. -/
def data (h : History) : Data := .list (h.entries.map Entry.data)

/-- The reader over the other entries of a list, behind the value of one. -/
theorem foldlM_others (d : Dialect) (es : List Entry) (v : Data)
    (entries : List (Option Data × Data)) :
    (es.flatMap (fun e : Entry => Lexeme.comma :: e.lexemes d) ++ [Lexeme.closing .list]).foldlM
        (Reader.step d) ⟨.value v, [⟨.list, entries, none⟩]⟩ =
      some ⟨.value (.list ((entries.map Prod.snd).reverse ++ v :: es.map Entry.data)), []⟩ := by
  induction es generalizing v entries with
  | nil =>
    have hclose : Reader.step d ⟨.value v, [⟨.list, entries, none⟩]⟩ (.closing .list) =
        some ⟨.value (.list (((none, v) :: entries).map Prod.snd).reverse), []⟩ := rfl
    rw [List.flatMap_nil, List.nil_append, List.foldlM_cons, hclose]
    simp
  | cons e es ih =>
    have hcomma : Reader.step d ⟨.value v, [⟨.list, entries, none⟩]⟩ .comma =
        some ⟨.comma, [⟨.list, (none, v) :: entries, none⟩]⟩ := rfl
    have hlexemes : (e :: es).flatMap (fun e : Entry => Lexeme.comma :: e.lexemes d) ++
        [Lexeme.closing .list] = .comma :: (e.lexemes d ++
          (es.flatMap (fun e : Entry => Lexeme.comma :: e.lexemes d) ++ [.closing .list])) := by
      simp
    rw [hlexemes, List.foldlM_cons, hcomma, Option.bind_eq_bind, Option.bind_some,
      List.foldlM_append, e.foldlM_lexemes d (.inr rfl), Option.bind_eq_bind, Option.bind_some, ih]
    simp

/-- **The reader over a history.** -/
theorem foldlM_lexemes (d : Dialect) (h : History) :
    (h.lexemes d).foldlM (Reader.step d) .start = some ⟨.value h.data, []⟩ := by
  obtain ⟨entries⟩ := h
  cases entries with
  | nil => rfl
  | cons e es =>
    have hopen : Reader.step d .start (.opening .list) =
        some ⟨.opening, [⟨.list, [], none⟩]⟩ := rfl
    have hlexemes : lexemes d ⟨e :: es⟩ = .opening .list :: (e.lexemes d ++
        (es.flatMap (fun e : Entry => Lexeme.comma :: e.lexemes d) ++ [.closing .list])) := by
      simp [lexemes, intercalate_cons_eq_flatMap, List.flatMap_map]
    rw [hlexemes, List.foldlM_cons, hopen, Option.bind_eq_bind, Option.bind_some,
      List.foldlM_append, e.foldlM_lexemes d (.inl rfl)]
    exact foldlM_others d es e.data []

/-- Entries in a list are three levels deep at most. -/
theorem depthWithin_data_le (es : List Entry) : Data.depthWithin (es.map Entry.data) ≤ 3 := by
  induction es with
  | nil => exact Nat.zero_le 3
  | cons e es ih =>
    have hentry : e.data.depth = 2 := rfl
    rw [List.map_cons, Data.depthWithin, hentry]
    omega

/-- Entries are not nested deeply. -/
theorem acceptsDepth_data (d : Dialect) (h : History) : d.acceptsDepth h.data.depth := by
  cases d with
  | json => rfl
  | stored a =>
    have hdepth := depthWithin_data_le h.entries
    refine decide_eq_true ?_
    rw [data, Data.depth]
    omega

/-- The data of a history are the history. -/
theorem ofData?_data {d : Dialect} (hname : d.acceptsName Entry.recordName none) (h : History) :
    ofData? d h.data = some h := by
  have hentries : (h.entries.map Entry.data).mapM (Entry.ofData? d) = some h.entries := by
    generalize h.entries = es
    induction es with
    | nil => rfl
    | cons e es ih => simp [List.mapM_cons, Entry.ofData?_data hname, ih]
  rw [data, ofData?, hentries]
  rfl

/-- **A history is read back** from a text that is cut into its lexemes. -/
theorem read?_of_scan {d : Dialect} {h : History} {t : Text}
    (hname : d.acceptsName Entry.recordName none) (hscan : d.scan t = some (d, h.lexemes d)) :
    read? d t = some h := by
  have hread : Data.read d t = some (d, h.data) := by
    have hresult : Reader.result? ⟨.value h.data, []⟩ = some h.data := rfl
    rw [Data.read, hscan]
    simp only [Option.bind_eq_bind, Option.bind_some, h.foldlM_lexemes d, hresult,
      h.acceptsDepth_data d, if_true, Option.pure_def]
  rw [read?, hread]
  exact ofData?_data hname h

end History

/-! ### Cutting a written history -/

/-- A label, written. -/
def Data.labelText : Dialect → Text → Text
  | .json, t => Data.writeQuoted .json t
  | .stored _, t => t

/-- A field is written as its label, a colon and its value. -/
theorem Data.writeField_eq (d : Dialect) (label value : Text) :
    Data.writeField d label value = Data.labelText d label ++ ':' :: value := by
  cases d <;> rfl

namespace Data.Scanner

variable {Place : Type}

/-- What a scanner of a dialect has to make of the parts that a history is written from, at the
place between two parts. -/
structure Cuts (s : Scanner Place) (d : Dialect) (place : Place) : Prop where
  quoted (t : Text) : s.Runs place (Data.writeQuoted d t) [.quoted (some t)] place
  expression :
    s.Runs place (d.recordOpening :: Data.labelText d Entry.expressionLabel ++ [':'])
      [.opening .record, Data.labelLexeme d Entry.expressionLabel, .colon] place
  result :
    s.Runs place (',' :: Data.labelText d Entry.resultLabel ++ [':'])
      [.comma, Data.labelLexeme d Entry.resultLabel, .colon] place
  closing : s.Runs place [d.recordClosing] [.closing .record] place
  listOpening : s.Runs place ['['] [.opening .list] place
  comma : s.Runs place [','] [.comma] place
  listClosing : s.Runs place [']'] [.closing .list] place

variable {s : Scanner Place} {d : Dialect} {place : Place}

/-- An entry is cut into its lexemes. -/
theorem Cuts.entry (hs : s.Cuts d place) (e : Entry) :
    s.Runs place (e.write d) (e.lexemes d) place := by
  have hwrite : e.write d =
      (d.recordOpening :: Data.labelText d Entry.expressionLabel ++ [':']) ++
        (Data.writeQuoted d e.expression ++
          ((',' :: Data.labelText d Entry.resultLabel ++ [':']) ++
            (Data.writeQuoted d e.result ++ [d.recordClosing]))) := by
    simp [Entry.write, Data.writeRecord, Data.writeField_eq]
  rw [hwrite]
  exact hs.expression.append ((hs.quoted e.expression).append
    (hs.result.append ((hs.quoted e.result).append hs.closing)))

/-- **A history** is cut into its lexemes. -/
theorem Cuts.history (hs : s.Cuts d place) (h : History) :
    s.Runs place (h.write d) (h.lexemes d) place := by
  have hothers (es : List Entry) :
      s.Runs place (es.flatMap fun e => [','] ++ e.write d)
        (es.flatMap fun e => [.comma] ++ e.lexemes d) place := by
    induction es with
    | nil => exact .nil _
    | cons e es ih =>
      rw [List.flatMap_cons, List.flatMap_cons]
      exact (hs.comma.append (hs.entry e)).append ih
  obtain ⟨entries⟩ := h
  cases entries with
  | nil => exact hs.listOpening.append hs.listClosing
  | cons e es =>
    rw [History.write, History.lexemes, Data.writeList, List.map_cons, List.map_cons,
      intercalate_cons_eq_flatMap, intercalate_cons_eq_flatMap, List.flatMap_map, List.flatMap_map]
    exact hs.listOpening.append (((hs.entry e).append (hothers es)).append hs.listClosing)

end Data.Scanner

/-! ### The stored form -/

/-- The scanner of the stored form, between two parts. -/
theorem Stored.cuts : scanner.Cuts .bare .between where
  quoted := runs_writeQuoted .none
  expression := by decide +kernel
  result := by decide +kernel
  closing := by decide +kernel
  listOpening := by decide +kernel
  comma := by decide +kernel
  listClosing := by decide +kernel

/-- **A kept history is read back.** -/
theorem History.read?_write_bare (h : History) : read? .bare (h.write .bare) = some h := by
  refine read?_of_scan rfl ?_
  have hscan : Stored.scanner.scan (h.write .bare) = some (h.lexemes .bare ++ []) :=
    (Stored.cuts.history h).scanFrom rfl
  rw [List.append_nil] at hscan
  rw [Dialect.bare, Dialect.scan, ← Dialect.bare, hscan]
  rfl

/-- **Kept preferences are read back.** -/
theorem Preferences.read?_write_bare (p : Preferences) : read? .bare (p.write .bare) = some p := by
  obtain ⟨angle⟩ := p
  cases angle <;> decide +kernel

/-- A history is bounded once. -/
theorem History.bounded_bounded (h : History) : h.bounded.bounded = h.bounded := by
  rw [bounded, bounded, List.take_take, Nat.min_self]

namespace Session

/-- **A session that is saved and restored** is new, with its history up to the limit and its
preferences. -/
theorem restore_save_eq_new (s : Session) :
    restore s.save = new s.history.bounded s.preferences := by
  simp only [restore, save, Storage.readHistory, Storage.readPreferences, Option.bind_some,
    History.read?_write_bare, Preferences.read?_write_bare, Option.getD_some]

/-- **What is kept survives, and nothing else.** Both saved texts are read; the session that starts
with them has the history up to the limit and the preferences, and is new in everything else. So
whatever a storage holds, saving the session that starts with it and starting again changes
nothing. -/
theorem restore_save (s : Session) :
    s.save.history.bind (History.read? .bare) = some s.history ∧
      s.save.preferences.bind (Preferences.read? .bare) = some s.preferences ∧
      restore s.save = new s.history.bounded s.preferences ∧
      new s.history.bounded s.preferences =
        ⟨[], false, false, 0, ⟨s.history.entries.take 20⟩, s.preferences⟩ ∧
      ∀ storage, restore (restore storage).save = restore storage := by
  refine ⟨?_, ?_, s.restore_save_eq_new, rfl, fun storage => ?_⟩
  · rw [save, Option.bind_some, History.read?_write_bare]
  · rw [save, Option.bind_some, Preferences.read?_write_bare]
  · rw [restore_save_eq_new, restore]
    exact congrArg (new · storage.readPreferences) storage.readHistory.bounded_bounded

end Session
end PocketCalculator
