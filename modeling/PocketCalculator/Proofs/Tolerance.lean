/-
# What a storage may hold

A storage has a text for the history and one for the preferences, and either can be anything. A text
keeps something in three steps, of which the last two are said here without a reader:

| step | stated by |
| --- | --- |
| the text is cut into lexemes, and its attributes enable rules | `Data.Dialect.scan` |
| the lexemes spell a value | `Data.Spells` |
| the value has the form of a history | `History.IsStored` |
| or that of preferences | `Preferences.IsStored` |

The fields of a record may come in any order, with others among them, but none that is looked for
may come twice. A step that fails anywhere fails as a whole. This is what reading does
(`History.kept_iff`, `Preferences.kept_iff`), and a session is restored from each text on its own
(`Session.restore_tolerates`).
-/

import PocketCalculator.Proofs.Spelling
import PocketCalculator.Storage
import Mathlib.Data.List.Forall2

namespace PocketCalculator

open Data (Dialect)

/-- What succeeds for a whole list succeeds for each of its members. -/
theorem mapM_eq_some_iff {α β : Type} {f : α → Option β} {xs : List α} {ys : List β} :
    xs.mapM f = some ys ↔ List.Forall₂ (fun x y => f x = some y) xs ys := by
  induction xs generalizing ys with
  | nil => simp [List.forall₂_nil_left_iff, eq_comm]
  | cons x xs ih =>
    simp only [List.mapM_cons, Option.bind_eq_bind, Option.bind_eq_some_iff, ih,
      List.forall₂_cons_left_iff, Option.pure_def, Option.some.injEq]
    constructor
    · rintro ⟨y, hy, ys, hys, rfl⟩
      exact ⟨y, ys, hy, hys, rfl⟩
    · rintro ⟨y, ys, hy, hys, rfl⟩
      exact ⟨y, hy, ys, hys, rfl⟩

/-- Something or its substitute, by a property of what there can be. -/
theorem getD_of_eq_some_iff {α : Type} {o : Option α} {P : α → Prop} (h : ∀ x, P x ↔ o = some x)
    (y : α) : (∀ x, P x → o.getD y = x) ∧ ((∀ x, ¬ P x) → o.getD y = y) := by
  constructor
  · intro x hx
    rw [(h x).1 hx, Option.getD_some]
  · intro hnone
    have ho : o = none := Option.eq_none_iff_forall_ne_some.2 fun x hx => hnone x ((h x).2 hx)
    rw [ho, Option.getD_none]

/-! ### Records -/

namespace Data

/-- No field has the label. -/
def Lacks (label : Text) (fields : List (Option Text × Data)) : Prop :=
  ∀ field ∈ fields, field.1 ≠ some label

/-- One field has the label, and with a value. -/
def HasOne (label : Text) (v : Data) (fields : List (Option Text × Data)) : Prop :=
  ∃ before after, fields = before ++ (some label, v) :: after ∧ Lacks label before ∧
    Lacks label after

/-- A value with fields where a record of a name is expected. A pair of brackets with nothing
between them has no field. -/
def IsRecord (d : Dialect) (name : Text) (fields : List (Option Text × Data)) (data : Data) :
    Prop :=
  ∃ given, (data = .record given fields ∨ data = .unit ∧ given = none ∧ fields = []) ∧
    d.acceptsName name given ∧ ∀ field ∈ fields, field.1.isSome

variable {d : Dialect} {label name : Text} {v data : Data} {fields : List (Option Text × Data)}

/-- No field has a label if none is found with it. -/
theorem lacks_iff_filter : Lacks label fields ↔ fields.filter (·.1 == some label) = [] := by
  simp [Lacks]

/-- A field is found to be absent if no field has the label. -/
theorem field?_eq_none_iff : field? label fields = some none ↔ Lacks label fields := by
  rw [lacks_iff_filter, field?]
  split
  · rename_i hfilter
    exact ⟨fun _ => hfilter, fun _ => rfl⟩
  · rename_i hfilter
    rw [hfilter]
    simp
  · rename_i hempty _
    exact ⟨fun h => (by cases h), fun h => absurd h hempty⟩

/-- A field is found if it is the only one of its label. -/
theorem field?_eq_some_iff : field? label fields = some (some v) ↔ HasOne label v fields := by
  constructor
  · intro h
    unfold field? at h
    split at h
    · cases h
    · rename_i given w hfilter
      obtain rfl : w = v := Option.some.inj (Option.some.inj h)
      obtain ⟨before, after, rfl, hbefore, hgiven, hafter⟩ := List.filter_eq_cons_iff.1 hfilter
      obtain rfl : given = some label := by simpa using hgiven
      exact ⟨before, after, rfl, by simpa [Lacks] using hbefore, lacks_iff_filter.2 hafter⟩
    · cases h
  · rintro ⟨before, after, rfl, hbefore, hafter⟩
    rw [field?, List.filter_append, lacks_iff_filter.1 hbefore,
      List.filter_cons_of_pos (by simp), lacks_iff_filter.1 hafter]
    rfl

/-- Fields are those of a record of the right name, all of them with labels. -/
theorem fields?_eq_some_iff : data.fields? d name = some fields ↔ data.IsRecord d name fields := by
  constructor
  · intro h
    cases data with
    | record given all =>
      obtain ⟨⟨hname, hlabels⟩, hfields⟩ := Option.ite_none_right_eq_some.1 h
      obtain rfl := Option.some.inj hfields
      exact ⟨given, .inl rfl, hname, List.all_eq_true.1 hlabels⟩
    | unit =>
      obtain ⟨hname, hfields⟩ := Option.ite_none_right_eq_some.1 h
      obtain rfl := Option.some.inj hfields
      exact ⟨none, .inr ⟨rfl, rfl, rfl⟩, hname, by simp⟩
    | _ => cases h
  · rintro ⟨given, rfl | ⟨rfl, rfl, rfl⟩, hname, hlabels⟩
    · exact if_pos ⟨hname, List.all_eq_true.2 hlabels⟩
    · exact if_pos hname

/-- A text is a quoted text, with whole characters. -/
theorem text?_eq_some_iff {t : Text} : v.text? = some t ↔ v = .quoted (some t) := by
  cases v <;> simp [text?]

/-- **A text that says a value** in the stored form, with the rules that it enables. -/
def Says (t : Text) (a : Stored.Attributes) (data : Data) : Prop :=
  ∃ lexemes, Dialect.bare.scan t = some (.stored a, lexemes) ∧
    Spells (.stored a) (.value data) lexemes ∧ data.depth ≤ 128

/-- A stored text stays one, whatever its attributes enable. -/
theorem Dialect.exists_stored_of_scan {t : Text} {lexemes : List Lexeme}
    (h : Dialect.bare.scan t = some (d, lexemes)) : ∃ a, d = .stored a := by
  simp only [bare, scan, Option.bind_eq_bind, Option.bind_eq_some_iff] at h
  obtain ⟨all, -, ⟨a, rest⟩, -, h⟩ := h
  refine ⟨a, ?_⟩
  split at h
  · obtain ⟨unwrapped, -, h⟩ := Option.bind_eq_some_iff.1 h
    exact (congrArg Prod.fst (Option.some.inj h)).symm
  · exact (congrArg Prod.fst (Option.some.inj h)).symm

/-- **A stored text is read as what it says.** -/
theorem read_eq_some_iff {t : Text} :
    read .bare t = some (d, data) ↔ ∃ a, d = .stored a ∧ Says t a data := by
  simp only [read, Option.bind_eq_bind, Option.bind_eq_some_iff, Option.ite_none_right_eq_some,
    Option.pure_def, Option.some.injEq, Prod.mk.injEq]
  constructor
  · rintro ⟨⟨d, lexemes⟩, hscan, r, hrun, data, hresult, hdepth, rfl, rfl⟩
    obtain ⟨a, rfl⟩ := Dialect.exists_stored_of_scan hscan
    exact ⟨a, rfl, lexemes, hscan, reads_iff.1 ⟨r, hrun, hresult⟩, of_decide_eq_true hdepth⟩
  · rintro ⟨a, rfl, lexemes, hscan, hspells, hdepth⟩
    obtain ⟨r, hrun, hresult⟩ := reads_iff.2 hspells
    exact ⟨(.stored a, lexemes), hscan, r, hrun, data, hresult, decide_eq_true hdepth, rfl, rfl⟩

/-- Reading a text as something is to read what the text says as that. -/
theorem read_bind_eq_some_iff {α : Type} {f : Dialect → Data → Option α} {t : Text} {x : α} :
    ((read .bare t).bind fun (d, data) => f d data) = some x ↔
      ∃ a data, Says t a data ∧ f (.stored a) data = some x := by
  rw [Option.bind_eq_some_iff]
  constructor
  · rintro ⟨⟨d, data⟩, hread, hdata⟩
    obtain ⟨a, rfl, hsays⟩ := read_eq_some_iff.1 hread
    exact ⟨a, data, hsays, hdata⟩
  · rintro ⟨a, data, hsays, hdata⟩
    exact ⟨(.stored a, data), read_eq_some_iff.2 ⟨a, rfl, hsays⟩, hdata⟩

end Data

/-! ### The history -/

variable {a : Stored.Attributes} {data : Data} {t : Text}

/-- A value that is an entry in the stored form. -/
def Entry.IsStored (a : Stored.Attributes) (data : Data) (e : Entry) : Prop :=
  ∃ fields, data.IsRecord (.stored a) recordName fields ∧
    Data.HasOne expressionLabel (.quoted (some e.expression)) fields ∧
      Data.HasOne resultLabel (.quoted (some e.result)) fields

/-- **An entry is read** from a value just if the value is one in the stored form. -/
theorem Entry.ofData?_eq_some_iff {e : Entry} :
    ofData? (.stored a) data = some e ↔ e.IsStored a data := by
  have hfields : ofData? (.stored a) data = (do
      let fields ← data.fields? (.stored a) recordName
      let expression ← ← Data.field? expressionLabel fields
      let result ← ← Data.field? resultLabel fields
      return ⟨← expression.text?, ← result.text?⟩) := by
    unfold ofData?
    split <;> rfl
  rw [hfields]
  simp only [Option.bind_eq_bind, Option.bind_eq_some_iff, Option.pure_def, Option.some.injEq]
  constructor
  · rintro ⟨fields, hfields, _, hexpression, v, rfl, _, hresult, w, rfl, t, ht, u, hu, rfl⟩
    obtain rfl := Data.text?_eq_some_iff.1 ht
    obtain rfl := Data.text?_eq_some_iff.1 hu
    exact ⟨fields, Data.fields?_eq_some_iff.1 hfields, Data.field?_eq_some_iff.1 hexpression,
      Data.field?_eq_some_iff.1 hresult⟩
  · rintro ⟨fields, hfields, hexpression, hresult⟩
    exact ⟨fields, Data.fields?_eq_some_iff.2 hfields, _, Data.field?_eq_some_iff.2 hexpression,
      _, rfl, _, Data.field?_eq_some_iff.2 hresult, _, rfl, _, rfl, _, rfl, rfl⟩

namespace History

/-- A value that is a history in the stored form: a list, and each of its values an entry. -/
def IsStored (a : Stored.Attributes) (data : Data) (h : History) : Prop :=
  ∃ items, data = .list items ∧ List.Forall₂ (Entry.IsStored a) items h.entries

/-- **A text that keeps a history.** -/
def Kept (t : Text) (h : History) : Prop := ∃ a data, Data.Says t a data ∧ h.IsStored a data

/-- **A history is read** from a value just if the value is one in the stored form. -/
theorem ofData?_eq_some_iff {h : History} :
    ofData? (.stored a) data = some h ↔ h.IsStored a data := by
  obtain ⟨entries⟩ := h
  cases data with
  | list items =>
    simp [ofData?, IsStored, mapM_eq_some_iff, Entry.ofData?_eq_some_iff]
  | _ => simp [ofData?, IsStored]

/-- **A history is read** from a text just if the text keeps it. -/
theorem kept_iff {h : History} : h.Kept t ↔ read? .bare t = some h := by
  simp only [Kept, ← ofData?_eq_some_iff]
  exact Data.read_bind_eq_some_iff.symm

end History

/-! ### The preferences -/

/-- A unit is read from its name. -/
theorem AngleMode.ofName?_eq_some_iff {angle : AngleMode} :
    ofName? t = some angle ↔ t = angle.name := by
  constructor
  · intro h
    unfold ofName? at h
    split at h
    · rename_i hname
      exact Option.some.inj h ▸ hname
    · split at h
      · rename_i hname
        exact Option.some.inj h ▸ hname
      · cases h
  · rintro rfl
    cases angle <;> rfl

namespace Preferences

/-- A value that is preferences in the stored form. Without their field they are the standard
ones. -/
def IsStored (a : Stored.Attributes) (data : Data) (p : Preferences) : Prop :=
  ∃ fields, data.IsRecord (.stored a) recordName fields ∧
    (Data.Lacks angleLabel fields ∧ p = .standard ∨
      Data.HasOne angleLabel (.word p.angle.name) fields)

/-- **A text that keeps preferences.** -/
def Kept (t : Text) (p : Preferences) : Prop := ∃ a data, Data.Says t a data ∧ p.IsStored a data

/-- An angle that is given is the word for its unit. -/
theorem ofAngle?_eq_some_iff {v : Data} {p : Preferences} :
    ofAngle? (.stored a) (some v) = some p ↔ v = .word p.angle.name := by
  obtain ⟨angle⟩ := p
  cases v <;> simp [ofAngle?, Data.choice?, AngleMode.ofName?_eq_some_iff, Option.bind_eq_some_iff]

/-- **Preferences are read** from a value just if the value is preferences in the stored form. -/
theorem ofData?_eq_some_iff {p : Preferences} :
    ofData? (.stored a) data = some p ↔ p.IsStored a data := by
  have hfields : ofData? (.stored a) data = (do
      ofAngle? (.stored a) (← Data.field? angleLabel (← data.fields? (.stored a) recordName))) := by
    unfold ofData?
    split <;> rfl
  rw [hfields]
  simp only [Option.bind_eq_bind, Option.bind_eq_some_iff]
  constructor
  · rintro ⟨fields, hfields, given, hgiven, hangle⟩
    refine ⟨fields, Data.fields?_eq_some_iff.1 hfields, ?_⟩
    cases given with
    | none =>
      exact .inl ⟨Data.field?_eq_none_iff.1 hgiven, (Option.some.inj hangle).symm⟩
    | some v =>
      obtain rfl := ofAngle?_eq_some_iff.1 hangle
      exact .inr (Data.field?_eq_some_iff.1 hgiven)
  · rintro ⟨fields, hfields, ⟨hlacks, rfl⟩ | hone⟩
    · exact ⟨fields, Data.fields?_eq_some_iff.2 hfields, _, Data.field?_eq_none_iff.2 hlacks, rfl⟩
    · exact ⟨fields, Data.fields?_eq_some_iff.2 hfields, _, Data.field?_eq_some_iff.2 hone,
        ofAngle?_eq_some_iff.2 rfl⟩

/-- **Preferences are read** from a text just if the text keeps them. -/
theorem kept_iff {p : Preferences} : p.Kept t ↔ read? .bare t = some p := by
  simp only [Kept, ← ofData?_eq_some_iff]
  exact Data.read_bind_eq_some_iff.symm

end Preferences

/-! ### The storage -/

namespace Storage

/-- There is a text for the history, and it keeps that history. -/
def KeepsHistory (storage : Storage) (h : History) : Prop :=
  ∃ t, storage.history = some t ∧ h.Kept t

/-- There is a text for the preferences, and it keeps these. -/
def KeepsPreferences (storage : Storage) (p : Preferences) : Prop :=
  ∃ t, storage.preferences = some t ∧ p.Kept t

/-- What a storage keeps as a history is what is read of its text. -/
theorem keepsHistory_iff (storage : Storage) (h : History) :
    storage.KeepsHistory h ↔ storage.history.bind (History.read? .bare) = some h := by
  simp only [KeepsHistory, History.kept_iff, Option.bind_eq_some_iff]

/-- So are the preferences that it keeps. -/
theorem keepsPreferences_iff (storage : Storage) (p : Preferences) :
    storage.KeepsPreferences p ↔ storage.preferences.bind (Preferences.read? .bare) = some p := by
  simp only [KeepsPreferences, Preferences.kept_iff, Option.bind_eq_some_iff]

end Storage

namespace Session

/-- **A session is restored text by text.** Whatever is stored, it starts with nothing typed, no
flag, nothing in its memory and at most `20` calculations. Its history is what the one text keeps,
up to the limit, or empty. Its preferences are what the other text keeps, or the standard ones.
Neither changes with the text of the other. -/
theorem restore_tolerates (storage : Storage) :
    ((restore storage).expression = [] ∧ (restore storage).failed = false ∧
      (restore storage).evaluated = false ∧ (restore storage).memory = 0 ∧
      (restore storage).history.size ≤ 20) ∧
    ((∀ h, storage.KeepsHistory h → (restore storage).history.entries = h.entries.take 20) ∧
      ((∀ h, ¬ storage.KeepsHistory h) → (restore storage).history.entries = [])) ∧
    ((∀ p, storage.KeepsPreferences p → (restore storage).preferences = p) ∧
      ((∀ p, ¬ storage.KeepsPreferences p) → (restore storage).preferences = .standard)) ∧
    ∀ other : Option Text,
      (restore { storage with preferences := other }).history = (restore storage).history ∧
      (restore { storage with history := other }).preferences = (restore storage).preferences := by
  have hhistory := getD_of_eq_some_iff storage.keepsHistory_iff .empty
  have hpreferences := getD_of_eq_some_iff storage.keepsPreferences_iff .standard
  refine ⟨⟨rfl, rfl, rfl, rfl, List.length_take_le _ _⟩, ⟨fun h hkeeps => ?_, fun hnone => ?_⟩,
    hpreferences, fun other => ⟨rfl, rfl⟩⟩
  · exact congrArg (fun h : History => h.bounded.entries) (hhistory.1 h hkeeps)
  · exact congrArg (fun h : History => h.bounded.entries) (hhistory.2 hnone)

/-- A history with its fields in another order and one more, and preferences that are cut off. -/
theorem restore_tolerates_cut_off :
    let kept : Storage :=
      ⟨some "[(result:\"2\",autre:1,expression:\"1+1\",),]".toList,
        some "(mode_angle:Radians".toList⟩
    (restore kept).history.entries = [⟨"1+1".toList, "2".toList⟩] ∧
      (restore kept).preferences = .standard := by
  intro kept
  have hhistory : kept.KeepsHistory ⟨[⟨"1+1".toList, "2".toList⟩]⟩ :=
    (kept.keepsHistory_iff _).2 (by decide +kernel)
  have hpreferences (p : Preferences) : ¬ kept.KeepsPreferences p := by
    have hread : kept.preferences.bind (Preferences.read? .bare) = none := by decide +kernel
    rw [Storage.keepsPreferences_iff, hread]
    rintro ⟨⟩
  obtain ⟨-, hkept, hstandard, -⟩ := restore_tolerates kept
  exact ⟨hkept.1 _ hhistory, hstandard.2 hpreferences⟩

end Session
end PocketCalculator
