/-
# Which lexemes spell a value

The grammar of structured data, as `Spells`, and the reader, which takes lexemes one at a time and
has the open brackets on a stack. The two agree: the reader ends with a value just if the lexemes
spell it (`Data.reads_iff`).

From the reader to the grammar, an invariant says what has been spelled so far. `Stack` has it for
the open brackets: each was opened, then come its whole entries with a comma behind every one, and
perhaps a key. `Reader.After` adds what was met last. One lexeme keeps this (`After.step`), and so
does a run. From the grammar to the reader, the induction is on the spelling, with the brackets
around it left open (`Spells.runs`). A word is taken for a value only by what follows, so a run over
a value ends in a reader that is one behind it when settled.
-/

import PocketCalculator.Data.Reader
import Mathlib.Data.List.Basic

namespace PocketCalculator
namespace Data

/-- What lexemes can spell. -/
inductive Phrase where
  | value (v : Data)
  /-- The key of a value to come in a bracket, with a colon, or nothing. -/
  | key (b : Bracket) (k : Option Data)
  /-- Values of a bracket with their keys, a comma behind each. -/
  | closed (b : Bracket) (es : List (Option Data × Data))
  /-- All that a bracket holds. -/
  | contents (b : Bracket) (es : List (Option Data × Data))

/-- The lexemes that open a bracket. -/
inductive Opens : Bracket → List Lexeme → Prop
  | list : Opens .list [.opening .list]
  | map : Opens .map [.opening .map]
  | record : Opens (.record none) [.opening .record]
  | named {l : Lexeme} {t : Text} (hl : l.name? = some t) :
      Opens (.record (some t)) [l, .opening .record]
  | option : Opens .option [.present, .opening .record]
  | unwrapped : Opens .unwrapped [.present, .opening .unwrapped]

/-- Lexemes that begin with brackets that the mark of an option takes for its own. -/
def BeginsRound (ls : List Lexeme) : Prop :=
  ls.head? = some (.opening .record) ∨ ls.head? = some .unit

/-- Brackets in which the mark of an option is a label like any other word. -/
def Bracket.HasLabels : Bracket → Prop
  | .record _ | .unwrapped => True
  | _ => False

/-- **The grammar.** What a bracket holds when it is closed is for `Frame.close` to say. -/
inductive Spells (d : Dialect) : Phrase → List Lexeme → Prop
  | quoted (t : Option Text) : Spells d (.value (.quoted t)) [.quoted t]
  | literal (t : Text) : Spells d (.value (.word t)) [.literal t]
  | scalar : Spells d (.value .scalar) [.scalar]
  | unit : Spells d (.value .unit) [.unit]
  | name {l : Lexeme} {t : Text} (hl : l.name? = some t) : Spells d (.value (.word t)) [l]
  | namedUnit {l : Lexeme} {t : Text} (hl : l.name? = some t) :
      Spells d (.value (.record (some t) [])) [l, .unit]
  | implied {v : Data} {ls : List Lexeme} (hd : d.impliedOptions) (hv : Spells d (.value v) ls)
      (hround : ¬ BeginsRound ls) : Spells d (.value (.option v)) (.present :: ls)
  | bracket {b : Bracket} {es : List (Option Data × Data)} {v : Data} {shape : Shape}
      {opening ls : List Lexeme} (hopen : Opens b opening) (hes : Spells d (.contents b es) ls)
      (hclose : Frame.close d ⟨b, es.reverse, none⟩ shape = some v) :
      Spells d (.value v) (opening ++ ls ++ [.closing shape])
  | noKey (b : Bracket) : Spells d (.key b none) []
  | key {b : Bracket} {k : Data} {ls : List Lexeme} (hb : (Frame.new b).hasKeys)
      (hk : Spells d (.value k) ls) : Spells d (.key b (some k)) (ls ++ [.colon])
  | presentKey {b : Bracket} (hb : b.HasLabels) :
      Spells d (.key b (some (.word "Some".toList))) [.present, .colon]
  | nothing (b : Bracket) : Spells d (.closed b []) []
  | next {b : Bracket} {es : List (Option Data × Data)} {k : Option Data} {v : Data}
      {ls kls vls : List Lexeme} (hes : Spells d (.closed b es) ls) (hk : Spells d (.key b k) kls)
      (hv : Spells d (.value v) vls) :
      Spells d (.closed b (es ++ [(k, v)])) (ls ++ kls ++ vls ++ [.comma])
  /-- A bracket may end in a comma where the dialect has it so. -/
  | allClosed {b : Bracket} {es : List (Option Data × Data)} {ls : List Lexeme}
      (hes : Spells d (.closed b es) ls) (hcomma : es = [] ∨ d.finalComma) :
      Spells d (.contents b es) ls
  | lastOpen {b : Bracket} {es : List (Option Data × Data)} {k : Option Data} {v : Data}
      {ls kls vls : List Lexeme} (hes : Spells d (.closed b es) ls) (hk : Spells d (.key b k) kls)
      (hv : Spells d (.value v) vls) :
      Spells d (.contents b (es ++ [(k, v)])) (ls ++ kls ++ vls)

variable {d : Dialect}

/-- An option without brackets is opened by none. -/
theorem Opens.ne_implied {b : Bracket} {ls : List Lexeme} (h : Opens b ls) : b ≠ .implied := by
  cases h <;> exact Bracket.noConfusion

/-- A bracket is opened by some lexeme. -/
theorem Opens.ne_nil {b : Bracket} {ls : List Lexeme} (h : Opens b ls) : ls ≠ [] := by
  cases h <;> exact List.cons_ne_nil _ _

/-- The first lexeme says whether brackets are begun that the mark of an option takes. -/
@[simp]
theorem beginsRound_cons {l : Lexeme} {ls : List Lexeme} :
    BeginsRound (l :: ls) ↔ l = .opening .record ∨ l = .unit := by
  simp [BeginsRound]

/-- Those of a record behind its name are not begun by them. -/
theorem not_beginsRound_of_name? {l : Lexeme} {t : Text} (hl : l.name? = some t)
    (ls : List Lexeme) : ¬ BeginsRound (l :: ls) := by
  rw [beginsRound_cons]
  rintro (rfl | rfl) <;> cases hl

/-- What follows the first lexeme does not matter. -/
theorem beginsRound_append {ls : List Lexeme} (hls : ls ≠ []) (more : List Lexeme) :
    BeginsRound (ls ++ more) ↔ BeginsRound ls := by
  rw [BeginsRound, BeginsRound, List.head?_append_of_ne_nil _ hls]

@[simp]
theorem Frame.new_bracket (b : Bracket) : (Frame.new b).bracket = b := rfl

/-- No lexeme spells that there is no key. -/
theorem Spells.eq_nil {b : Bracket} {ls : List Lexeme} (h : Spells d (.key b none) ls) :
    ls = [] := by
  cases h
  rfl

/-! ### From the reader to the grammar -/

/-- Not the frame of an option without brackets, which only its value may follow. -/
def Bracketed (fs : List Frame) : Prop := ∀ f ∈ fs.head?, f.bracket ≠ .implied

/-- At the beginning of a text no option waits for its value. -/
@[simp]
theorem bracketed_nil : Bracketed [] := by simp [Bracketed]

/-- Only the innermost bracket counts. -/
@[simp]
theorem bracketed_cons {f : Frame} {fs : List Frame} :
    Bracketed (f :: fs) ↔ f.bracket ≠ .implied := by
  simp [Bracketed]

/-- **What open brackets have behind them:** lexemes up to where a value may come. -/
inductive Stack (d : Dialect) : List Frame → List Lexeme → Prop
  | nil : Stack d [] []
  | push {f : Frame} {fs : List Frame} {ls opening inner kls : List Lexeme} (hfs : Stack d fs ls)
      (hopen : Opens f.bracket opening) (hround : BeginsRound opening → Bracketed fs)
      (hes : Spells d (.closed f.bracket f.entries.reverse) inner)
      (hkey : Spells d (.key f.bracket f.key) kls) :
      Stack d (f :: fs) (ls ++ opening ++ inner ++ kls)
  | implied {fs : List Frame} {ls : List Lexeme} (hd : d.impliedOptions) (hfs : Stack d fs ls) :
      Stack d (.new .implied :: fs) (ls ++ [.present])

/-- What a reader has behind it. -/
inductive Reader.After (d : Dialect) : Reader → List Lexeme → Prop
  | start {fs : List Frame} {ls : List Lexeme} (hfs : Stack d fs ls) (hb : Bracketed fs) :
      After d ⟨.start, fs⟩ ls
  | opening {b : Bracket} {fs : List Frame} {ls : List Lexeme}
      (hfs : Stack d (.new b :: fs) ls) (hb : b ≠ .implied) : After d ⟨.opening, .new b :: fs⟩ ls
  | comma {f : Frame} {fs : List Frame} {ls : List Lexeme} (hfs : Stack d (f :: fs) ls)
      (hb : f.bracket ≠ .implied) (hkey : f.key = none) : After d ⟨.comma, f :: fs⟩ ls
  | name {l : Lexeme} {t : Text} {fs : List Frame} {ls : List Lexeme} (hfs : Stack d fs ls)
      (hl : l.name? = some t) : After d ⟨.name t, fs⟩ (ls ++ [l])
  | present {fs : List Frame} {ls : List Lexeme} (hfs : Stack d fs ls) :
      After d ⟨.present, fs⟩ (ls ++ [.present])
  | value {v : Data} {fs : List Frame} {ls vls : List Lexeme} (hfs : Stack d fs ls)
      (hv : Spells d (.value v) vls) (hb : Bracketed fs) : After d ⟨.value v, fs⟩ (ls ++ vls)

namespace Reader

variable {r r' : Reader} {fs : List Frame} {ls vls : List Lexeme} {v : Data} {l : Lexeme}

/-- A whole value also ends the options without brackets around it. -/
theorem After.behind (hfs : Stack d fs ls) (hv : Spells d (.value v) vls)
    (hround : BeginsRound vls → Bracketed fs) : (behind v fs).After d (ls ++ vls) := by
  induction hfs generalizing v vls with
  | nil => exact .value .nil hv bracketed_nil
  | @push f fs ls opening inner kls hfs hopen hround' hes hkey _ =>
    rw [Reader.behind, if_neg hopen.ne_implied]
    exact .value (.push hfs hopen hround' hes hkey) hv (bracketed_cons.2 hopen.ne_implied)
  | @implied fs ls hd hfs ih =>
    -- the option ends with its value, and begins with its mark, which is no bracket to be taken
    have hnot : ¬ BeginsRound vls := fun h => bracketed_cons.1 (hround h) rfl
    rw [Reader.behind, Frame.new_bracket, if_pos rfl, List.append_assoc]
    exact ih (.implied hd hv hnot) fun h => by simp at h

/-- Where a value may begin. -/
theorem After.around (hr : r.After d ls) (h : r.around? d = some fs) :
    Stack d fs ls ∧ (r.last ≠ .present → Bracketed fs) := by
  cases hr with
  | start hfs hb => exact Option.some.inj h ▸ ⟨hfs, fun _ => hb⟩
  | opening hfs hb => exact Option.some.inj h ▸ ⟨hfs, fun _ => bracketed_cons.2 hb⟩
  | comma hfs hb _ => exact Option.some.inj h ▸ ⟨hfs, fun _ => bracketed_cons.2 hb⟩
  | name => cases h
  | present hfs =>
    simp only [around?] at h
    split at h
    · rename_i hd
      exact Option.some.inj h ▸ ⟨.implied hd hfs, fun hne => absurd rfl hne⟩
    · cases h
  | value => cases h

/-- Settling a reader leaves what it has behind it: a word is a value that it spells. -/
theorem After.settle (hr : r.After d ls) : r.settle.After d ls := by
  cases hr with
  | name hfs hl => exact .behind hfs (.name hl) fun h => absurd h (not_beginsRound_of_name? hl [])
  | start hfs hb => exact .start hfs hb
  | opening hfs hb => exact .opening hfs hb
  | comma hfs hb hkey => exact .comma hfs hb hkey
  | present hfs => exact .present hfs
  | value hfs hv hb => exact .value hfs hv hb

/-- A value of one lexeme, which is no bracket that the mark of an option would take. -/
theorem After.take (hr : r.After d ls) (hv : Spells d (.value v) [l]) (hl : ¬ BeginsRound [l])
    (h : r.take d v = some r') : r'.After d (ls ++ [l]) := by
  obtain ⟨fs, hfs, rfl⟩ := Option.map_eq_some_iff.1 h
  exact .behind (hr.around hfs).1 hv fun hround => absurd hround hl

/-- A bracket that is opened. -/
theorem After.open {b : Bracket} {opening : List Lexeme} (hfs : Stack d fs ls)
    (hopen : Opens b opening) (hround : BeginsRound opening → Bracketed fs) :
    After d ⟨.opening, .new b :: fs⟩ (ls ++ opening) := by
  have hstack := Stack.push (f := .new b) hfs hopen hround (.nothing b) (.noKey b)
  rw [List.append_nil, List.append_nil] at hstack
  exact .opening hstack hopen.ne_implied

/-- **An opening bracket.** Behind a name it opens the record of that name, and behind the mark of
an option those of the option. Anywhere else it opens brackets of its own. -/
theorem After.enter {shape : Shape} (hr : r.After d ls) (h : r.enter d shape = some r') :
    r'.After d (ls ++ [.opening shape]) := by
  -- A bracket of its own stands where a value can begin; one behind the mark of an option takes
  -- the mark for its opening.
  have hunnamed {b : Bracket} (hopen : Opens b [.opening shape])
      (hround : BeginsRound [.opening shape] → r.last ≠ .present)
      (h : ((r.around? d).map fun fs => Reader.mk .opening (.new b :: fs)) = some r') :
      r'.After d (ls ++ [.opening shape]) := by
    obtain ⟨fs, hfs, rfl⟩ := Option.map_eq_some_iff.1 h
    obtain ⟨hstack, hb⟩ := hr.around hfs
    exact .open hstack hopen fun hbegins => hb (hround hbegins)
  have hpresent {b : Bracket} (hopen : Opens b [.present, .opening shape])
      (hlast : r.last = .present) (h : Reader.mk .opening (.new b :: r.frames) = r') :
      r'.After d (ls ++ [.opening shape]) := by
    obtain ⟨last, frames⟩ := r
    obtain rfl : last = .present := hlast
    cases hr with
    | present hfs =>
      subst h
      rw [List.append_assoc]
      exact .open hfs hopen fun h => by simp at h
  unfold Reader.enter at h
  dsimp only at h
  split at h
  · rename_i t heq
    cases hr <;> cases heq
    rename_i hfs hl
    obtain rfl := Option.some.inj h
    rw [List.append_assoc]
    exact .open hfs (.named hl) fun h => absurd h (not_beginsRound_of_name? hl _)
  · rename_i heq
    exact hpresent .option heq (Option.some.inj h)
  · rename_i heq
    exact hpresent .unwrapped heq (Option.some.inj h)
  · exact hunnamed .list (fun h => by simp at h) h
  · rename_i hne
    exact hunnamed .record (fun _ => hne) h
  · exact hunnamed .map (fun h => by simp at h) h
  · cases h

/-- A bracket that is closed is a value. -/
theorem After.close {f : Frame} {es : List (Option Data × Data)} {shape : Shape}
    {opening inner : List Lexeme} (hfs : Stack d fs ls) (hopen : Opens f.bracket opening)
    (hround : BeginsRound opening → Bracketed fs) (hes : Spells d (.contents f.bracket es) inner)
    (hclose : Frame.close d ⟨f.bracket, es.reverse, none⟩ shape = some v) :
    (Reader.behind v fs).After d (ls ++ opening ++ inner ++ [.closing shape]) := by
  have hv := Spells.bracket hopen hes hclose
  have hbegins : BeginsRound (opening ++ inner ++ [.closing shape]) ↔ BeginsRound opening := by
    rw [List.append_assoc, beginsRound_append hopen.ne_nil]
  simpa using After.behind hfs hv fun h => hround (hbegins.1 h)

/-- **A closing bracket.** What the innermost bracket has behind it is all that it holds: nothing,
values with a comma behind the last if the dialect has it so, or one more value. -/
theorem After.leave {shape : Shape} (hr : r.After d ls) (h : r.leave d shape = some r') :
    r'.After d (ls ++ [.closing shape]) := by
  -- A name that is pending is settled first, as the value that it is.
  have hsettled := hr.settle
  unfold Reader.leave at h
  dsimp only at h
  generalize r.settle = q at hsettled h
  cases hsettled with
  | start hfs hb => cases ‹List Frame› <;> cases h
  | name => cases ‹List Frame› <;> cases h
  | present => cases ‹List Frame› <;> cases h
  | opening hfs hb =>
    obtain ⟨v, hclose, rfl⟩ := Option.map_eq_some_iff.1 (Option.map_eq_bind.trans h)
    cases hfs with
    | implied => exact absurd rfl hb
    | push hfs hopen hround hes hkey =>
      rw [hkey.eq_nil, List.append_nil]
      exact .close hfs hopen hround (.allClosed hes (.inl rfl)) hclose
  | comma hfs hb hkey =>
    by_cases hd : d.finalComma
    · simp only [hd, if_true] at h
      obtain ⟨v, hclose, rfl⟩ := Option.map_eq_some_iff.1 (Option.map_eq_bind.trans h)
      cases hfs with
      | implied => exact absurd rfl hb
      | push hfs hopen hround hes hk =>
        rw [hkey] at hk
        rw [hk.eq_nil, List.append_nil]
        refine .close hfs hopen hround (.allClosed hes (.inr hd)) ?_
        rwa [List.reverse_reverse]
    · simp [hd] at h
  | @value v fs ls vls hfs hv hb =>
    cases hfs with
    | nil => cases h
    | implied => exact absurd rfl (bracketed_cons.1 hb)
    | @push f fs ls opening inner kls hfs hopen hround hes hkey =>
      obtain ⟨w, hclose, rfl⟩ := Option.map_eq_some_iff.1 (Option.map_eq_bind.trans h)
      have hclose' :
          Frame.close d ⟨f.bracket, (f.entries.reverse ++ [(f.key, v)]).reverse, none⟩ shape =
            some w := by
        rwa [List.reverse_append, List.reverse_reverse]
      simpa using After.close hfs hopen hround (.lastOpen hes hkey hv) hclose'

/-- **A comma.** The value before it, with its key, joins the others of the bracket. -/
theorem After.separate (hr : r.After d ls) (h : r.separate = some r') :
    r'.After d (ls ++ [.comma]) := by
  have hsettled := hr.settle
  unfold Reader.separate at h
  dsimp only at h
  generalize r.settle = q at hsettled h
  cases hsettled with
  | value hfs hv hb =>
    cases hfs with
    | nil => cases h
    | implied => exact absurd rfl (bracketed_cons.1 hb)
    | @push f fs ls opening inner kls hfs hopen hround hes hkey =>
      obtain rfl := Option.some.inj h
      have hnext := Spells.next hes hkey hv
      have hstack := Stack.push (f := f.push _) hfs hopen hround
        (by simpa [Frame.push] using hnext) (.noKey _)
      exact .comma (by simpa using hstack) hopen.ne_implied rfl
  | _ => cases h

/-- Behind anything but the mark of an option, a key is a value. -/
theorem label_of_ne_present (hlast : r.last ≠ .present) :
    r.label = match r.settle with
      | ⟨.value v, f :: fs⟩ =>
        if f.hasKeys ∧ f.key.isNone then some ⟨.start, { f with key := some v } :: fs⟩ else none
      | _ => none := by
  obtain ⟨last, frames⟩ := r
  cases last with
  | present => exact absurd rfl hlast
  | _ =>
    simp only [Reader.label]
    generalize settle _ = q
    obtain ⟨last, frames⟩ := q
    cases last <;> cases frames <;> rfl

/-- **A colon.** The value before it is the key of the value to come. The mark of an option is no
value, but a key where a bracket has labels. -/
theorem After.label (hr : r.After d ls) (h : r.label = some r') :
    r'.After d (ls ++ [.colon]) := by
  -- The mark of an option cannot be settled, so it is told apart before the values.
  by_cases hlast : r.last = .present
  · cases hr <;> cases hlast
    rename_i hfs
    cases hfs with
    | nil => cases h
    | implied => cases h
    | @push f fs ls opening inner kls hfs hopen hround hes hkey =>
      obtain ⟨b, entries, key⟩ := f
      have hlabel (hb : b.HasLabels) (h : key.isNone) :
          After d ⟨.start, ⟨b, entries, some (.word "Some".toList)⟩ :: fs⟩
            (ls ++ opening ++ inner ++ kls ++ [.present] ++ [.colon]) := by
        have hkls : kls = [] := Spells.eq_nil (Option.isNone_iff_eq_none.1 h ▸ hkey)
        have hstack := Stack.push (f := ⟨b, entries, some _⟩) hfs hopen hround hes (.presentKey hb)
        exact .start (by simpa [hkls] using hstack) (bracketed_cons.2 hopen.ne_implied)
      cases b with
      | record name =>
        obtain ⟨hkeys, hr'⟩ := Option.ite_none_right_eq_some.1 h
        exact Option.some.inj hr' ▸ hlabel trivial hkeys.2
      | unwrapped =>
        obtain ⟨hkeys, hr'⟩ := Option.ite_none_right_eq_some.1 h
        exact Option.some.inj hr' ▸ hlabel trivial hkeys.2
      | _ => cases h
  · have hsettled := hr.settle
    rw [label_of_ne_present hlast] at h
    generalize r.settle = q at hsettled h
    cases hsettled with
    | value hfs hv hb =>
      cases hfs with
      | nil => cases h
      | implied => exact absurd rfl (bracketed_cons.1 hb)
      | @push f fs ls opening inner kls hfs hopen hround hes hkey =>
        obtain ⟨hkeys, hr'⟩ := Option.ite_none_right_eq_some.1 h
        obtain rfl := Option.some.inj hr'
        have hkls : kls = [] := Spells.eq_nil (Option.isNone_iff_eq_none.1 hkeys.2 ▸ hkey)
        have hstack := Stack.push (f := { f with key := some _ }) hfs hopen hround hes
          (.key hkeys.1 hv)
        exact .start (by simpa [hkls] using hstack) (bracketed_cons.2 hopen.ne_implied)
    | _ => cases h

/-- **One lexeme** keeps what the reader has behind it. -/
theorem After.step (hr : r.After d ls) (h : r.step d l = some r') : r'.After d (ls ++ [l]) := by
  cases l with
  | quoted t => exact hr.take (.quoted t) (by simp) h
  | literal t => exact hr.take (.literal t) (by simp) h
  | scalar => exact hr.take .scalar (by simp) h
  | name t =>
    obtain ⟨fs, hfs, rfl⟩ := Option.map_eq_some_iff.1 h
    exact .name (hr.around hfs).1 rfl
  | rawName t =>
    obtain ⟨fs, hfs, rfl⟩ := Option.map_eq_some_iff.1 h
    exact .name (hr.around hfs).1 rfl
  | present =>
    obtain ⟨fs, hfs, rfl⟩ := Option.map_eq_some_iff.1 h
    exact .present (hr.around hfs).1
  | unit =>
    unfold Reader.step at h
    dsimp only at h
    split at h
    · rename_i t heq
      cases hr <;> cases heq
      rename_i hfs hl
      obtain rfl := Option.some.inj h
      rw [List.append_assoc]
      exact .behind hfs (.namedUnit hl) fun h => absurd h (not_beginsRound_of_name? hl _)
    · cases h
    · rename_i hne
      obtain ⟨fs, hfs, rfl⟩ := Option.map_eq_some_iff.1 h
      obtain ⟨hstack, hb⟩ := hr.around hfs
      exact .behind hstack .unit fun _ => hb hne
  | opening shape => exact hr.enter h
  | closing shape => exact hr.leave h
  | comma => exact hr.separate h
  | colon => exact hr.label h
  | hash => cases h
  | bang => cases h

/-- **A run** keeps what the reader has behind it. -/
theorem After.foldlM {more : List Lexeme} (hr : r.After d ls)
    (h : more.foldlM (Reader.step d) r = some r') : r'.After d (ls ++ more) := by
  induction more generalizing r ls with
  | nil =>
    obtain rfl := Option.some.inj h
    rwa [List.append_nil]
  | cons l more ih =>
    rw [List.foldlM_cons] at h
    obtain ⟨next, hstep, hmore⟩ := Option.bind_eq_some_iff.1 h
    simpa using ih (hr.step hstep) hmore

/-- A reader that ends with a value has had it spelled. -/
theorem After.spells (hr : r.After d ls) (h : r.result? = some v) : Spells d (.value v) ls := by
  have hsettled := hr.settle
  unfold result? at h
  generalize r.settle = q at hsettled h
  cases hsettled with
  | value hfs hv hb =>
    cases hfs with
    | nil =>
      obtain rfl := Option.some.inj h
      exact hv
    | push => cases h
    | implied => cases h
  | _ => cases h

/-! ### From the grammar to the reader -/

/-- Behind a whole value there is nothing to settle. -/
theorem settle_behind (v : Data) (fs : List Frame) : (behind v fs).settle = behind v fs := by
  induction fs generalizing v with
  | nil => rfl
  | cons f fs ih =>
    rw [behind]
    split
    · exact ih _
    · rfl

/-- A value in brackets of its own ends nothing but itself. -/
theorem behind_of_ne_implied {f : Frame} (hb : f.bracket ≠ .implied) (v : Data) (fs : List Frame) :
    behind v (f :: fs) = ⟨.value v, f :: fs⟩ := if_neg hb

/-- A reader that settles behind a value has not met the mark of an option last. -/
theorem last_ne_present (h : r.settle = ⟨.value v, fs⟩) : r.last ≠ .present := by
  obtain ⟨last, frames⟩ := r
  rintro rfl
  cases h

/-- Where a value may begin, one without brackets is taken. -/
theorem take_of_around (h : r.around? d = some fs) (v : Data) :
    r.take d v = some (behind v fs) := by
  rw [take, h, Option.map_some]

/-- Behind a value in a bracket a comma is taken. -/
theorem separate_of_settle {f : Frame} (h : r.settle = ⟨.value v, f :: fs⟩) :
    r.separate = some ⟨.comma, f.push v :: fs⟩ := by
  rw [separate, h]

/-- Behind the last value of a bracket, the bracket is closed. -/
theorem leave_of_settle {f : Frame} {w : Data} {shape : Shape} (h : r.settle = ⟨.value v, f :: fs⟩)
    (hclose : (f.push v).close d shape = some w) : r.leave d shape = some (behind w fs) := by
  rw [leave, h]
  simp [hclose]

/-- A run over one more lexeme. -/
theorem foldlM_concat {r'' : Reader} (hrun : ls.foldlM (Reader.step d) r = some r')
    (hstep : r'.step d l = some r'') : (ls ++ [l]).foldlM (Reader.step d) r = some r'' := by
  simp [List.foldlM_append, hrun, hstep]

/-- A lexeme that is a name is taken as that name. -/
theorem step_name {t : Text} (hl : l.name? = some t) (h : r.around? d = some fs) :
    r.step d l = some ⟨.name t, fs⟩ := by
  cases l <;> cases hl <;> rw [Reader.step, h, Option.map_some]

/-- The lexemes that open a bracket, run over. -/
theorem foldlM_opening {b : Bracket} {opening : List Lexeme} (hopen : Opens b opening)
    (h : r.around? d = some fs) (hround : r.last = .present → ¬ BeginsRound opening) :
    opening.foldlM (Reader.step d) r = some ⟨.opening, .new b :: fs⟩ := by
  have hpresent : r.step d .present = some ⟨.present, fs⟩ := by rw [Reader.step, h, Option.map_some]
  have hunnamed {b : Bracket} {shape : Shape}
      (henter : r.enter d shape = (r.around? d).map (⟨.opening, .new b :: ·⟩)) :
      [Lexeme.opening shape].foldlM (Reader.step d) r = some ⟨.opening, .new b :: fs⟩ := by
    rw [List.foldlM_cons, Reader.step, henter, h]
    rfl
  cases hopen with
  | list =>
    refine hunnamed ?_
    obtain ⟨last, frames⟩ := r
    cases last <;> rfl
  | map =>
    refine hunnamed ?_
    obtain ⟨last, frames⟩ := r
    cases last <;> rfl
  | record =>
    refine hunnamed ?_
    obtain ⟨last, frames⟩ := r
    cases last with
    | present => exact absurd (.inl rfl) (hround rfl)
    | name t => cases h
    | _ => rfl
  | @named l t hl =>
    rw [List.foldlM_cons, step_name hl h]
    rfl
  | option =>
    rw [List.foldlM_cons, hpresent]
    rfl
  | unwrapped =>
    rw [List.foldlM_cons, hpresent]
    rfl

end Reader

/-- What a run over the lexemes of a phrase does, with the brackets around it open. -/
def Phrase.Runs (d : Dialect) (ls : List Lexeme) : Phrase → Prop
  | .value v => ∀ (r : Reader) (fs : List Frame), r.around? d = some fs →
      (r.last = .present → ¬ BeginsRound ls) →
        ∃ r', ls.foldlM (Reader.step d) r = some r' ∧ r'.settle = Reader.behind v fs
  | .key b k => b ≠ .implied → ∀ (r : Reader) (entries : List (Option Data × Data))
      (fs : List Frame), r.last ≠ .present → r.around? d = some (⟨b, entries, none⟩ :: fs) →
        ∃ r', ls.foldlM (Reader.step d) r = some r' ∧ r'.last ≠ .present ∧
          r'.around? d = some (⟨b, entries, k⟩ :: fs)
  | .closed b es => b ≠ .implied → ∀ fs : List Frame,
      ls.foldlM (Reader.step d) ⟨.opening, .new b :: fs⟩ =
        some ⟨if es = [] then .opening else .comma, ⟨b, es.reverse, none⟩ :: fs⟩
  | .contents b es => b ≠ .implied → ∀ (fs : List Frame) (shape : Shape) (v : Data),
      Frame.close d ⟨b, es.reverse, none⟩ shape = some v →
        (ls ++ [Lexeme.closing shape]).foldlM (Reader.step d) ⟨.opening, .new b :: fs⟩ =
          some (Reader.behind v fs)

namespace Phrase

open Reader (settle_behind)

variable {b : Bracket} {es : List (Option Data × Data)} {k : Option Data} {v : Data}
  {ls kls vls : List Lexeme}

/-- A value of one lexeme. -/
theorem Runs.of_take {l : Lexeme} (hstep : ∀ (r : Reader) (fs : List Frame), r.around? d = some fs →
    (r.last = .present → ¬ BeginsRound [l]) → r.step d l = r.take d v) :
    Runs d [l] (.value v) := by
  intro r fs hfs hround
  refine ⟨Reader.behind v fs, ?_, settle_behind v fs⟩
  rw [List.foldlM_cons, hstep r fs hfs hround, Reader.take_of_around hfs]
  rfl

/-- One more value of a bracket, with its key if it has one. -/
theorem Runs.entry (hes : Runs d ls (.closed b es)) (hk : Runs d kls (.key b k))
    (hv : Runs d vls (.value v)) (hb : b ≠ .implied) (fs : List Frame) :
    ∃ r', (ls ++ kls ++ vls).foldlM (Reader.step d) ⟨.opening, .new b :: fs⟩ = some r' ∧
      r'.settle = ⟨.value v, ⟨b, es.reverse, k⟩ :: fs⟩ := by
  have haround : Reader.around? d ⟨if es = [] then .opening else .comma,
      ⟨b, es.reverse, none⟩ :: fs⟩ = some (⟨b, es.reverse, none⟩ :: fs) := by
    split <;> rfl
  have hlast : (if es = [] then Last.opening else Last.comma) ≠ .present := by
    split <;> exact Last.noConfusion
  obtain ⟨r₁, hkey, hlast₁, haround₁⟩ := hk hb _ _ fs hlast haround
  obtain ⟨r₂, hvalue, hsettle⟩ := hv r₁ _ haround₁ fun h => absurd h hlast₁
  refine ⟨r₂, ?_, hsettle.trans (Reader.behind_of_ne_implied hb v fs)⟩
  rw [List.foldlM_append, List.foldlM_append, hes hb fs]
  simp only [Option.bind_eq_bind, Option.bind_some, hkey, hvalue]

end Phrase

open Reader in
/-- **What is spelled is read.** -/
theorem Spells.runs {p : Phrase} {ls : List Lexeme} (h : Spells d p ls) : p.Runs d ls := by
  induction h with
  | quoted t => exact .of_take fun _ _ _ _ => rfl
  | literal t => exact .of_take fun _ _ _ _ => rfl
  | scalar => exact .of_take fun _ _ _ _ => rfl
  | unit =>
    refine .of_take fun r fs hfs hround => ?_
    obtain ⟨last, frames⟩ := r
    cases last with
    | present => exact absurd (.inr rfl) (hround rfl)
    | name t => cases hfs
    | _ => rfl
  | @name l t hl =>
    intro r fs hfs _
    refine ⟨⟨.name t, fs⟩, ?_, rfl⟩
    rw [List.foldlM_cons, step_name hl hfs]
    rfl
  | @namedUnit l t hl =>
    intro r fs hfs _
    refine ⟨_, ?_, settle_behind _ fs⟩
    rw [List.foldlM_cons, step_name hl hfs]
    rfl
  | @implied v ls hd _ hround ih =>
    -- for the reader the value is in a bracket of its own, which ends with it
    intro r fs hfs _
    have haround : Reader.around? d ⟨.present, fs⟩ = some (.new .implied :: fs) := if_pos hd
    obtain ⟨r', hrun, hsettle⟩ := ih ⟨.present, fs⟩ _ haround fun _ => hround
    refine ⟨r', ?_, hsettle⟩
    rw [List.foldlM_cons, Reader.step, hfs]
    exact hrun
  | @bracket b es v shape opening ls hopen _ hclose ih =>
    intro r fs hfs hround
    rw [List.append_assoc, beginsRound_append hopen.ne_nil] at hround
    refine ⟨_, ?_, settle_behind v fs⟩
    rw [List.append_assoc, List.foldlM_append, foldlM_opening hopen hfs hround]
    exact ih hopen.ne_implied fs shape v hclose
  | noKey b =>
    intro _ r entries fs hlast hfs
    exact ⟨r, rfl, hlast, hfs⟩
  | @key b k ls hb _ ih =>
    intro hne r entries fs hlast hfs
    obtain ⟨r', hrun, hsettle⟩ := ih r _ hfs fun h => absurd h hlast
    rw [behind_of_ne_implied hne] at hsettle
    have hlabel : r'.step d .colon = some ⟨.start, ⟨b, entries, some k⟩ :: fs⟩ := by
      rw [Reader.step, label_of_ne_present (last_ne_present hsettle), hsettle]
      exact if_pos ⟨hb, rfl⟩
    refine ⟨⟨.start, ⟨b, entries, some k⟩ :: fs⟩, ?_, Last.noConfusion, rfl⟩
    exact foldlM_concat hrun hlabel
  | @presentKey b hb =>
    intro _ r entries fs _ hfs
    have hlabel : Reader.step d ⟨.present, ⟨b, entries, none⟩ :: fs⟩ .colon =
        some ⟨.start, ⟨b, entries, some (.word "Some".toList)⟩ :: fs⟩ := by
      cases b with
      | record | unwrapped => rfl
      | _ => exact hb.elim
    refine ⟨⟨.start, ⟨b, entries, some (.word "Some".toList)⟩ :: fs⟩, ?_, Last.noConfusion, rfl⟩
    have hpresent : r.step d .present = some ⟨.present, ⟨b, entries, none⟩ :: fs⟩ := by
      rw [Reader.step, hfs, Option.map_some]
    have hrun : [Lexeme.present].foldlM (Reader.step d) r =
        some ⟨.present, ⟨b, entries, none⟩ :: fs⟩ := by
      rw [List.foldlM_cons, hpresent]
      rfl
    exact foldlM_concat hrun hlabel
  | nothing b => exact fun _ fs => rfl
  | @next b es k v ls kls vls _ _ _ ihes ihk ihv =>
    intro hb fs
    obtain ⟨r', hrun, hsettle⟩ := ihes.entry ihk ihv hb fs
    rw [if_neg (by simp), List.reverse_append]
    exact foldlM_concat hrun (separate_of_settle hsettle)
  | @allClosed b es ls _ hcomma ih =>
    intro hb fs shape v hclose
    have hleave : Reader.leave d ⟨if es = [] then .opening else .comma,
        ⟨b, es.reverse, none⟩ :: fs⟩ shape = some (behind v fs) := by
      split
      · simp [leave, settle, hclose]
      · rename_i hne
        simp [leave, settle, hcomma.resolve_left hne, hclose]
    exact foldlM_concat (ih hb fs) hleave
  | @lastOpen b es k v ls kls vls _ _ _ ihes ihk ihv =>
    intro hb fs shape w hclose
    obtain ⟨r', hrun, hsettle⟩ := ihes.entry ihk ihv hb fs
    refine foldlM_concat hrun (leave_of_settle hsettle ?_)
    rwa [List.reverse_append] at hclose

/-- **The reader ends with a value just if the lexemes spell it.** -/
theorem reads_iff {ls : List Lexeme} {v : Data} :
    (∃ r, ls.foldlM (Reader.step d) .start = some r ∧ r.result? = some v) ↔
      Spells d (.value v) ls := by
  constructor
  · rintro ⟨r, hrun, hresult⟩
    have hstart : Reader.After d .start [] := .start .nil bracketed_nil
    exact (hstart.foldlM hrun).spells hresult
  · intro h
    obtain ⟨r, hrun, hsettle⟩ := h.runs .start [] rfl fun h => by cases h
    refine ⟨r, hrun, ?_⟩
    rw [Reader.result?, hsettle]
    rfl

end Data
end PocketCalculator
