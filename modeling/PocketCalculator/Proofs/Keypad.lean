/-
# Keypad and keyboard

The keypad and the keyboard find the action of a key in two ways: a click finds a button by what
stands on it, an event of the keyboard is a text or a named key.

| key | on its button | typed | pressed |
| --- | --- | --- | --- |
| digit, point, operator | its character | its character | |
| equals | `=` | `=` | Enter |
| clear | `C` | | Delete, Escape |
| delete | `⌫` | | Backspace |

Which keys the keyboard sends is said here by this table alone (`Sent`): the characters of a text
one after the other, and nothing for what stands nowhere in the table. Every list of events sends
the keys of one sequence and of no other (`Sent.existsUnique`), and what the session reads from the
events are the actions of these keys (`Sent.flatMap_actions`). On the other side no other button of
the screen has the label of a key, since all labels that depend on the session are longer
(`Screen.filter_buttons`). So clicks and events give the same screen, however the events are divided
into frames.
-/

import Mathlib.Data.List.Basic
import PocketCalculator.Screen

namespace PocketCalculator

/-- The keys that the keypad and the keyboard share. -/
inductive PadKey where
  | digit (d : Fin 10)
  | point
  | operator (op : Operator)
  | equals
  | clear
  | delete
  deriving DecidableEq

namespace PadKey

/-- What stands on the button of a key. -/
def face : PadKey → Char
  | .digit d => Nat.digitChar d
  | .point => '.'
  | .operator op => op.symbol
  | .equals => '='
  | .clear => 'C'
  | .delete => '⌫'

/-- The label of a key's button. -/
def label (key : PadKey) : Text := [key.face]

/-- The character that types a key. -/
def character? : PadKey → Option Char
  | .clear | .delete => none
  | key => some key.face

/-- The keys of a keyboard without a character that stand for a key. -/
def named : PadKey → List Key
  | .equals => [.enter]
  | .clear => [.delete, .escape]
  | .delete => [.backspace]
  | _ => []

/-- The action of a key. -/
def action : PadKey → Action
  | .digit d => .digit (Nat.digitChar d)
  | .point => .point
  | .operator op => .operator op
  | .equals => .equals
  | .clear => .clear
  | .delete => .delete

end PadKey

/-- A text types these keys, each by its character. Characters of no key may stand anywhere. -/
inductive Typed : Text → List PadKey → Prop
  | nil : Typed [] []
  | key {key : PadKey} {c : Char} {t : Text} {keys : List PadKey} (h : key.character? = some c) :
      Typed t keys → Typed (c :: t) (key :: keys)
  | foreign {c : Char} {t : Text} {keys : List PadKey}
      (h : ∀ key : PadKey, key.character? ≠ some c) : Typed t keys → Typed (c :: t) keys

/-- The events of a keyboard send these keys: in texts, or pressed by a name. Other keys, the
release of any key and events that no key caused may stand anywhere. -/
inductive Sent : List KeyboardEvent → List PadKey → Prop
  | nil : Sent [] []
  | text {t : Text} {typed keys : List PadKey} {events : List KeyboardEvent} :
      Typed t typed → Sent events keys → Sent (.text t :: events) (typed ++ keys)
  | press {k : Key} {key : PadKey} {keys : List PadKey} {events : List KeyboardEvent}
      (h : k ∈ key.named) : Sent events keys → Sent (.key k true :: events) (key :: keys)
  | foreign {k : Key} {keys : List PadKey} {events : List KeyboardEvent}
      (h : ∀ key : PadKey, k ∉ key.named) : Sent events keys → Sent (.key k true :: events) keys
  | release {k : Key} {keys : List PadKey} {events : List KeyboardEvent} :
      Sent events keys → Sent (.key k false :: events) keys
  | other {keys : List PadKey} {events : List KeyboardEvent} :
      Sent events keys → Sent (.other :: events) keys

variable {t : Text} {typed keys : List PadKey} {events : List KeyboardEvent}

/-! ### The keyboard -/

namespace PadKey

/-- Two keys of the pad do not do the same. -/
theorem action_injective : Function.Injective action := by
  have hdigit : ∀ d e : Fin 10, Nat.digitChar d = Nat.digitChar e → d = e := by decide
  intro key other h
  cases key with
  | digit d =>
    cases other with
    | digit e => rw [hdigit d e (Action.digit.inj h)]
    | _ => cases h
  | operator op =>
    cases other with
    | operator next => rw [Action.operator.inj h]
    | _ => cases h
  | _ => cases other <;> first | rfl | cases h

/-- A digit is the character of one of ten numbers. -/
theorem exists_digitChar {c : Char} (hc : c.isDigit) : ∃ d : Fin 10, Nat.digitChar d = c := by
  obtain ⟨hlow, hhigh⟩ : 48 ≤ c.toNat ∧ c.toNat ≤ 57 := by
    simpa [Char.isDigit, UInt32.le_iff_toNat_le] using hc
  have hchar : ∀ d : Fin 10, Nat.digitChar d = Char.ofNat (48 + d) := by decide
  refine ⟨⟨c.toNat - 48, by omega⟩, ?_⟩
  rw [hchar, Nat.add_sub_cancel' hlow, Char.ofNat_toNat]

/-- **A character is read as the key that it types**, and as no key if it types none. -/
theorem ofChar?_eq_some_iff {c : Char} {a : Action} :
    Action.ofChar? c = some a ↔ ∃ key : PadKey, key.character? = some c ∧ key.action = a := by
  constructor
  · intro h
    unfold Action.ofChar? at h
    split_ifs at h with hdigit hpoint hequals
    · obtain ⟨d, rfl⟩ := exists_digitChar hdigit
      exact ⟨.digit d, rfl, Option.some.inj h⟩
    · exact ⟨.point, by rw [hpoint]; rfl, Option.some.inj h⟩
    · exact ⟨.equals, by rw [hequals]; rfl, Option.some.inj h⟩
    · obtain ⟨op, hop, rfl⟩ := Option.map_eq_some_iff.1 h
      exact ⟨.operator op, by rw [Operator.symbol_of_ofChar? hop]; rfl, rfl⟩
  · rintro ⟨key, hc, rfl⟩
    cases key with
    | digit d =>
      have hread : ∀ d : Fin 10, Action.ofChar? (Nat.digitChar d) =
          some (.digit (Nat.digitChar d)) := by decide
      cases hc
      exact hread d
    | operator op =>
      cases hc
      cases op <;> rfl
    | point | equals =>
      cases hc
      rfl
    | clear | delete => cases hc

/-- Only a character that no key types is read as no key. -/
theorem ofChar?_eq_none_iff {c : Char} :
    Action.ofChar? c = none ↔ ∀ key : PadKey, key.character? ≠ some c := by
  simp only [Option.eq_none_iff_forall_ne_some, ne_eq, ofChar?_eq_some_iff]
  exact ⟨fun h key hc => h _ ⟨key, hc, rfl⟩, fun h _ ⟨key, hc, _⟩ => h key hc⟩

/-- **A pressed key is read as the key that it stands for**, and as no key if it stands for none. -/
theorem action?_eq_some_iff {k : Key} {a : Action} :
    k.action? = some a ↔ ∃ key : PadKey, k ∈ key.named ∧ key.action = a := by
  constructor
  · intro h
    cases k with
    | enter => exact ⟨.equals, by decide, Option.some.inj h⟩
    | backspace => exact ⟨.delete, by decide, Option.some.inj h⟩
    | delete | escape => exact ⟨.clear, by decide, Option.some.inj h⟩
    | other => cases h
  · rintro ⟨key, hk, rfl⟩
    cases key with
    | equals | delete =>
      obtain rfl := List.mem_singleton.1 hk
      rfl
    | clear =>
      rcases (by simpa [named] using hk : k = .delete ∨ k = .escape) with rfl | rfl <;> rfl
    | digit | point | operator => cases hk

/-- Only a key that stands for none of the pad is read as none. -/
theorem action?_eq_none_iff {k : Key} : k.action? = none ↔ ∀ key : PadKey, k ∉ key.named := by
  simp only [Option.eq_none_iff_forall_ne_some, ne_eq, action?_eq_some_iff]
  exact ⟨fun h key hk => h _ ⟨key, hk, rfl⟩, fun h _ ⟨key, hk, _⟩ => h key hk⟩

end PadKey

/-- **A typed text** is read as the keys that it types, one after another. -/
theorem Typed.filterMap_ofChar? (h : Typed t keys) :
    t.filterMap Action.ofChar? = keys.map PadKey.action := by
  induction h with
  | nil => rfl
  | key hc _ ih =>
    rw [List.filterMap_cons_some (PadKey.ofChar?_eq_some_iff.2 ⟨_, hc, rfl⟩), ih, List.map_cons]
  | foreign hc _ ih =>
    rw [List.filterMap_cons_none (PadKey.ofChar?_eq_none_iff.2 hc), ih]

/-- Every text types some keys; what is foreign in it types none. -/
theorem exists_typed (t : Text) : ∃ keys, Typed t keys := by
  induction t with
  | nil => exact ⟨[], .nil⟩
  | cons c t ih =>
    obtain ⟨keys, hkeys⟩ := ih
    by_cases hc : ∃ key : PadKey, key.character? = some c
    · obtain ⟨key, hc⟩ := hc
      exact ⟨key :: keys, .key hc hkeys⟩
    · exact ⟨keys, .foreign (not_exists.1 hc) hkeys⟩

namespace Sent

/-- **What is read are the actions of the keys that were sent**, in their order. -/
theorem flatMap_actions (h : Sent events keys) :
    events.flatMap KeyboardEvent.actions = keys.map PadKey.action := by
  induction h with
  | nil => rfl
  | text ht _ ih =>
    rw [List.flatMap_cons, ih, List.map_append, ← ht.filterMap_ofChar?, KeyboardEvent.actions]
  | press hk _ ih =>
    rw [List.flatMap_cons, ih, KeyboardEvent.actions,
      PadKey.action?_eq_some_iff.2 ⟨_, hk, rfl⟩]
    rfl
  | foreign hk _ ih =>
    rw [List.flatMap_cons, ih, KeyboardEvent.actions, PadKey.action?_eq_none_iff.2 hk]
    rfl
  | release _ ih | other _ ih => exact ih

/-- **Every list of events sends one sequence of keys.** It is unique because different keys have
different actions. -/
theorem existsUnique (events : List KeyboardEvent) : ∃! keys, Sent events keys := by
  refine existsUnique_of_exists_of_unique ?_ fun keys others h h' =>
    List.map_injective_iff.2 PadKey.action_injective (h.flatMap_actions.symm.trans
      h'.flatMap_actions)
  induction events with
  | nil => exact ⟨[], .nil⟩
  | cons event events ih =>
    obtain ⟨keys, hkeys⟩ := ih
    match event with
    | .text t =>
      obtain ⟨typed, ht⟩ := exists_typed t
      exact ⟨typed ++ keys, .text ht hkeys⟩
    | .key k true =>
      by_cases hk : ∃ key : PadKey, k ∈ key.named
      · obtain ⟨key, hk⟩ := hk
        exact ⟨key :: keys, .press hk hkeys⟩
      · exact ⟨keys, .foreign (not_exists.1 hk) hkeys⟩
    | .key k false => exact ⟨keys, .release hkeys⟩
    | .other => exact ⟨keys, .other hkeys⟩

/-- Every sequence of keys can be sent. -/
theorem exists_events (keys : List PadKey) : ∃ events, Sent events keys := by
  induction keys with
  | nil => exact ⟨[], .nil⟩
  | cons key keys ih =>
    obtain ⟨events, hsent⟩ := ih
    cases key with
    | clear => exact ⟨.key .escape true :: events, .press (by decide) hsent⟩
    | delete => exact ⟨.key .backspace true :: events, .press (by decide) hsent⟩
    | _ => exact ⟨.text [_] :: events, .text (.key rfl .nil) hsent⟩

end Sent

/-! ### The screen -/

namespace Screen

/-- Frames are read as their events one after the other. -/
theorem foldl_readKeyboard (v : Screen) (frames : List (List KeyboardEvent)) :
    frames.foldl readKeyboard v =
      { v with session := v.session.run (frames.flatten.flatMap KeyboardEvent.actions) } := by
  induction frames generalizing v with
  | nil => rfl
  | cons events frames ih =>
    rw [List.foldl_cons, ih, List.flatten_cons, List.flatMap_append, Session.run, Session.run,
      List.foldl_append]
    rfl

/-- Each key of the pad has one button on it, by its label. -/
theorem filter_keypad (key : PadKey) :
    Button.keypad.filter (·.label = key.label) = [⟨key.label, .action key.action⟩] := by
  cases key with
  | digit d => revert d; decide
  | operator op => cases op <;> decide
  | _ => decide

/-- The buttons of the functions and the memory have other labels. -/
theorem filter_functions_memory (key : PadKey) :
    (Button.functions ++ Button.memory).filter (·.label = key.label) = [] := by
  cases key with
  | digit d => revert d; decide
  | operator op => cases op <;> decide
  | _ => decide

/-- The label of the header is longer than that of any key. -/
theorem one_lt_length_header (v : Screen) : 1 < v.header.length := by
  unfold header
  simp

/-- So are those of the entries, with an expression and a result each. -/
theorem one_lt_length_label {h : History} {b : Button} (hb : b ∈ historyButtons h) :
    1 < b.label.length := by
  have hequals : " = ".toList.length = 3 := rfl
  unfold historyButtons at hb
  split at hb
  · cases hb
  · rcases List.mem_append.1 hb with hb | hb
    · obtain ⟨i, hi, rfl⟩ := List.mem_mapIdx.1 hb
      rw [Button.ofEntry, List.length_append, List.length_append, hequals]
      omega
    · obtain rfl := List.mem_singleton.1 hb
      decide

/-- **The label of a key is that of one button**, which performs the action of the key. What depends
on the session is longer. -/
theorem filter_buttons (v : Screen) (key : PadKey) :
    v.buttons.filter (·.label = key.label) = [⟨key.label, .action key.action⟩] := by
  have hlonger : ∀ label : Text, 1 < label.length → label ≠ key.label := fun label hlabel heq => by
    rw [heq] at hlabel
    exact absurd hlabel (Nat.lt_irrefl 1)
  have hangle : v.session.preferences.angle.label ≠ key.label := by
    refine hlonger _ ?_
    cases v.session.preferences.angle <;> decide
  have hheader : v.header ≠ key.label := hlonger _ v.one_lt_length_header
  have hhistory : (if v.isOpen then historyButtons v.session.history else []).filter
      (·.label = key.label) = [] := by
    refine List.filter_eq_nil_iff.2 fun b hb => ?_
    split at hb
    · simpa using hlonger _ (one_lt_length_label hb)
    · cases hb
  rw [buttons, List.filter_append, List.filter_cons_of_neg (by simpa using hheader), hhistory,
    List.append_nil, List.cons_append, List.cons_append,
    List.filter_cons_of_neg (by simpa using hangle), List.filter_append, filter_functions_memory,
    filter_keypad, List.nil_append]

/-- A click on the button of a key applies the key's action to the session. -/
theorem click?_label (v : Screen) (key : PadKey) :
    v.click? key.label 0 = some { v with session := v.session.apply key.action } := by
  rw [click?, button?, filter_buttons]
  rfl

/-- Clicks on keys, one after the other, run the actions of these keys. -/
theorem foldlM_click? (v : Screen) (keys : List PadKey) :
    keys.foldlM (fun v key => v.click? key.label 0) v =
      some { v with session := v.session.run (keys.map PadKey.action) } := by
  induction keys generalizing v with
  | nil => rfl
  | cons key keys ih =>
    rw [List.foldlM_cons, click?_label]
    exact ih _

/-- **The keypad and the keyboard agree.** The label of a key is on one button of every screen, a
button of the keypad. The events of any frames send the keys of one sequence, every sequence can be
sent, and clicks on its keys in their order give the screen that is there once the frames have been
read. -/
theorem keypad_agrees (v : Screen) :
    (∀ key : PadKey, ∃ b ∈ Button.keypad, v.buttons.filter (·.label = key.label) = [b]) ∧
    (∀ frames : List (List KeyboardEvent), ∃! keys, Sent frames.flatten keys) ∧
    (∀ keys, ∃ frames : List (List KeyboardEvent), Sent frames.flatten keys) ∧
    ∀ (frames : List (List KeyboardEvent)) (keys : List PadKey), Sent frames.flatten keys →
      keys.foldlM (fun v key => v.click? key.label 0) v = some (frames.foldl readKeyboard v) := by
  refine ⟨fun key => ⟨_, ?_, v.filter_buttons key⟩, fun frames => Sent.existsUnique frames.flatten,
    fun keys => ?_, fun frames keys hsent => ?_⟩
  · have hmem : ⟨key.label, .action key.action⟩ ∈ Button.keypad.filter (·.label = key.label) := by
      rw [filter_keypad]
      exact List.mem_singleton_self _
    exact List.mem_of_mem_filter hmem
  · obtain ⟨events, hsent⟩ := Sent.exists_events keys
    exact ⟨[events], by simpa using hsent⟩
  · rw [foldlM_click?, foldl_readKeyboard, hsent.flatMap_actions]

/-- From the error state, in four frames: a digit and a clear key, two digits with a blank between
them, a sum without its zero, and a digit that is deleted before the equals key. -/
theorem keypad_agrees_sum :
    let v : Screen := ⟨{ Session.new .empty .standard with failed := true }, []⟩
    let frames : List (List KeyboardEvent) :=
      [[.text ['9'], .key .escape true], [.text ['1', ' ', '2'], .key .enter false],
        [.key .other true, .text ['+', '.', '5'], .other],
        [.text ['8'], .key .backspace true, .key .enter true]]
    let keys : List PadKey := [.digit 9, .clear, .digit 1, .digit 2, .operator .plus, .point,
      .digit 5, .digit 8, .delete, .equals]
    Sent frames.flatten keys ∧
      keys.foldlM (fun v key => v.click? key.label 0) v = some (frames.foldl readKeyboard v) := by
  intro v frames keys
  have hsent : Sent frames.flatten keys :=
    .text (.key rfl .nil) <| .press (by decide) <|
      .text (.key rfl <| .foreign (PadKey.ofChar?_eq_none_iff.1 rfl) <| .key rfl .nil) <|
        .release <| .foreign (PadKey.action?_eq_none_iff.1 rfl) <|
          .text (.key rfl <| .key rfl <| .key rfl .nil) <| .other <|
            .text (.key rfl .nil) <| .press (by decide) <| .press (by decide) .nil
  obtain ⟨-, -, -, hagrees⟩ := keypad_agrees v
  exact ⟨hsent, hagrees frames keys hsent⟩

end Screen
end PocketCalculator
