/-
# Where the decimal point stands

Digits `d₁ d₂ … dₖ` with an exponent `e` stand for `d₁.d₂…dₖ · 10 ^ e` (`Scientific.value`). A text
of them counts its digits anew, from where its point is:

| form | the first digit of the text counts |
| --- | --- |
| digits, with zeros behind them or a point among them | `10 ^ e` |
| `0.` with zeros and the digits behind it | `1`, and `-e` zeros come before `d₁` |
| one digit, a point and the others, with an exponent | `1`, and the exponent adds `e` |

Zeros in front of digits or behind them count nothing (`Scientific.placed_zeros_append`,
`Scientific.placed_append_zeros`), so every form denotes the same number, whatever the digits and
the exponent, and still does when its last zeros are dropped.

The forms cut the digits in two. `Display.natural?` and `Display.significant?` are the same texts
with cuts that fail where there are not so many digits; they never fail.
-/

import PocketCalculator.Proofs.CanonicalText
import PocketCalculator.Proofs.Reread

namespace PocketCalculator

namespace Scientific

/-! ### The number that digits stand for -/

/-- The number that digits stand for if the first of them counts `10 ^ e`. -/
def placed : Text → ℤ → ℚ
  | [], _ => 0
  | d :: t, e => (d.toNat - '0'.toNat : ℕ) * 10 ^ e + placed t (e - 1)

/-- `d₁.d₂…dₖ · 10 ^ e`, for the digits and the exponent. -/
def value (s : Scientific) : ℚ := placed s.digits s.exponent

/-- Zeros in front only say where the other digits stand. -/
theorem placed_zeros_append (k : ℕ) (t : Text) (e : ℤ) :
    placed (List.replicate k '0' ++ t) e = placed t (e - k) := by
  induction k generalizing e with
  | zero => simp
  | succ k ih =>
    rw [List.replicate_succ, List.cons_append, placed, ih, Nat.sub_self, Nat.cast_zero, zero_mul,
      zero_add]
    congr 1
    push_cast
    ring

/-- Zeros behind count nothing. -/
theorem placed_append_zeros (t : Text) (k : ℕ) (e : ℤ) :
    placed (t ++ List.replicate k '0') e = placed t e := by
  induction t generalizing e with
  | nil => simpa [placed] using placed_zeros_append k [] e
  | cons d t ih => rw [List.cons_append, placed, placed, ih]

end Scientific

namespace Numeral

open Scientific (placed)

/-- A number with the sign of a numeral. -/
def signed (negative : Bool) (q : ℚ) : ℚ := if negative then -q else q

/-- The number that a decimal denotes exactly: with an optional sign, a point and an exponent where
it has them. -/
def denoted? (t : Text) : Option ℚ :=
  let (negative, body) := splitSign t
  let (whole, fraction, rest) := splitDecimal body
  if whole = [] ∧ fraction = [] then none
  else (readExponent rest).map fun exponent =>
    signed negative (placed (whole ++ fraction) (whole.length - 1 + exponent))

variable {negative : Bool} {whole : Text} {fraction : Option Text}

/-- A plain text with an exponent behind it denotes its digits, moved by the exponent. -/
theorem denoted?_plain_append {rest : Text} (h : Digits whole fraction)
    (hrest : ∀ c ∈ rest.head?, isBodyChar c = false) :
    denoted? (plain negative whole fraction ++ rest) = (readExponent rest).map fun exponent =>
      signed negative (placed (whole ++ fraction.getD []) (whole.length - 1 + exponent)) := by
  rw [denoted?, splitSign_plain h]
  simp only [splitDecimal_plain h hrest, h.1, false_and, if_false]

/-- **A plain text** denotes its digits, the last one before the point counting `1`. -/
theorem denoted?_plain (h : Digits whole fraction) :
    denoted? (plain negative whole fraction) =
      some (signed negative (placed (whole ++ fraction.getD []) (whole.length - 1))) := by
  have hdenoted := @denoted?_plain_append negative whole fraction [] h (by simp)
  rwa [List.append_nil, readExponent, Option.map_some, add_zero] at hdenoted

end Numeral

namespace Scientific

open Numeral (denoted? signed plain)

/-! ### The two forms -/

variable {s : Scientific} {negative : Bool}

/-- Zeros are digits. -/
theorem forall_isDigit_replicate (k : ℕ) : ∀ c ∈ List.replicate k '0', c.isDigit := fun c hc => by
  rw [List.eq_of_mem_replicate hc]
  decide

/-- **The positional form** is plain, and its digits stand for the number. -/
theorem exists_plain_positional (hs : s.digits ≠ []) (hdigits : ∀ c ∈ s.digits, c.isDigit) :
    ∃ whole fraction, s.positional = plain false whole fraction ∧ Numeral.Digits whole fraction ∧
      placed (whole ++ fraction.getD []) (whole.length - 1) = s.value := by
  have hlen := List.length_pos_of_ne_nil hs
  unfold positional
  dsimp only
  split
  · rename_i he
    refine ⟨['0'], some (List.replicate (-s.exponent - 1).toNat '0' ++ s.digits), by rfl,
      ⟨by simp, by simp, ?_⟩, ?_⟩
    · exact List.forall_mem_append.2 ⟨forall_isDigit_replicate _, hdigits⟩
    · have hzeros : ['0'] ++ (List.replicate (-s.exponent - 1).toNat '0' ++ s.digits) =
          List.replicate ((-s.exponent - 1).toNat + 1) '0' ++ s.digits := by
        rw [List.replicate_succ]
        rfl
      rw [Option.getD_some, hzeros, placed_zeros_append, value]
      congr 1
      simp only [List.length_singleton]
      omega
  split
  · rename_i he hshort
    refine ⟨s.digits ++ List.replicate (s.exponent.toNat + 1 - s.digits.length) '0', none,
      by simp [plain, Display.signText], ⟨by simp [hs], ?_, by simp⟩, ?_⟩
    · exact List.forall_mem_append.2 ⟨hdigits, forall_isDigit_replicate _⟩
    · rw [Option.getD_none, List.append_nil, placed_append_zeros, value, List.length_append,
        List.length_replicate]
      congr 1
      omega
  · rename_i he hlong
    refine ⟨s.digits.take (s.exponent.toNat + 1), some (s.digits.drop (s.exponent.toNat + 1)),
      by simp [plain, Display.signText], ⟨?_, ?_, ?_⟩, ?_⟩
    · simp [hs]
    · exact fun c hc => hdigits c (List.mem_of_mem_take hc)
    · exact fun c hc => hdigits c (List.mem_of_mem_drop hc)
    · rw [Option.getD_some, List.take_append_drop, List.length_take, value]
      congr 1
      omega

/-- **The exponential form** is plain up to its exponent. -/
theorem exists_plain_exponential (hs : s.digits ≠ []) (hdigits : ∀ c ∈ s.digits, c.isDigit) :
    ∃ fraction, s.exponential = plain false (s.digits.take 1) fraction ++
        'e' :: (Display.exponentOperator s.exponent).symbol :: Text.ofNat s.exponent.natAbs ∧
      Numeral.Digits (s.digits.take 1) fraction ∧
        s.digits.take 1 ++ fraction.getD [] = s.digits := by
  have hfirst : s.digits.take 1 ≠ [] := by simp [hs]
  have hfirst' : ∀ c ∈ s.digits.take 1, c.isDigit := fun c hc => hdigits c (List.mem_of_mem_take hc)
  unfold exponential
  dsimp only
  rw [Display.symbol_exponentOperator]
  split
  · rename_i hlen
    exact ⟨none, by simp [plain, Display.signText], ⟨hfirst, hfirst', by simp⟩, by
      rw [Option.getD_none, List.append_nil, List.take_of_length_le hlen]⟩
  · refine ⟨some (s.digits.drop 1), by simp [plain, Display.signText], ⟨hfirst, hfirst', ?_⟩,
      List.take_append_drop 1 _⟩
    exact fun c hc => hdigits c (List.mem_of_mem_drop hc)

/-- **The exponential form** denotes its digits, with the first one before the point and an exponent
that counts it. -/
theorem denoted?_exponential (hs : s.digits ≠ []) (hdigits : ∀ c ∈ s.digits, c.isDigit) :
    denoted? (Display.signText negative ++ s.exponential) = some (signed negative s.value) := by
  obtain ⟨fraction, hplain, h, hall⟩ := exists_plain_exponential hs hdigits
  have hsign : Display.signText negative ++ s.exponential =
      plain negative (s.digits.take 1) fraction ++
        'e' :: (Display.exponentOperator s.exponent).symbol ::
          Text.ofNat s.exponent.natAbs := by
    rw [hplain]
    simp [plain, Display.signText]
  have hlen : (s.digits.take 1).length = 1 := by
    have := List.length_pos_of_ne_nil hs
    rw [List.length_take]
    omega
  rw [hsign, Numeral.denoted?_plain_append h (by simp; decide), Numeral.readExponent,
    if_pos (.inl rfl), Display.readInteger_exponent, Option.map_some, hall, hlen]
  simp [value]

end Scientific

namespace Display

open Scientific Numeral

/-! ### Zeros at the end -/

/-- Digits with the zeros at their end apart. -/
theorem exists_append_zeros (t : Text) :
    ∃ u k, t = u ++ List.replicate k '0' ∧ ∀ c ∈ u.getLast?, c ≠ '0' := by
  induction t using List.reverseRecOn with
  | nil => exact ⟨[], 0, rfl, by simp⟩
  | append_singleton t c ih =>
    by_cases hc : c = '0'
    · obtain ⟨u, k, rfl, hu⟩ := ih
      refine ⟨u, k + 1, ?_, hu⟩
      rw [hc, List.replicate_succ', List.append_assoc]
    · exact ⟨t ++ [c], 0, by simp, by simpa using hc⟩

/-- Trimming a plain text with places drops their last zeros, and the point with the last of the
places. -/
theorem exists_trimPlaces_plain {negative : Bool} {whole places : Text}
    (h : Digits whole (some places)) :
    ∃ fraction k, trimPlaces (plain negative whole (some places)) = plain negative whole fraction ∧
      Digits whole fraction ∧ places = fraction.getD [] ++ List.replicate k '0' := by
  obtain ⟨u, k, rfl, hu⟩ := exists_append_zeros places
  obtain ⟨hwhole, hwholeDigits, hplaces⟩ := h
  have hu' : ∀ c ∈ u, c.isDigit := fun c hc => hplaces c (List.mem_append_left _ hc)
  have hzeros : plain negative whole (some (u ++ List.replicate k '0')) =
      plain negative whole (some u) ++ List.replicate k '0' := by
    simp [plain]
  have he := @e_not_mem_plain negative whole (some u) ⟨hwhole, hwholeDigits, hu'⟩
  rw [hzeros, trimPlaces_append_zeros k (by simp [plain]) he]
  rcases List.eq_nil_or_concat' u with rfl | ⟨v, c, rfl⟩
  · refine ⟨none, k, ?_, ⟨hwhole, hwholeDigits, by simp⟩, rfl⟩
    have hpoint : plain negative whole (some []) = plain negative whole none ++ ['.'] := by
      simp [plain]
    have hlast : ∀ c ∈ (plain negative whole none).getLast?, c ≠ '.' := by
      intro c hc
      have hplain : plain negative whole none = signText negative ++ whole := by simp [plain]
      rw [hplain, List.getLast?_append_of_ne_nil _ hwhole] at hc
      exact ne_point_of_isDigit (hwholeDigits c (List.mem_of_getLast? hc))
    rw [hpoint, trimPlaces_append_point (e_not_mem_plain ⟨hwhole, hwholeDigits, by simp⟩) hlast]
  · refine ⟨some (v ++ [c]), k, ?_, ⟨hwhole, hwholeDigits, hu'⟩, rfl⟩
    have hc : c ≠ '0' := hu c (by simp)
    have hdigit : c.isDigit := hu' c (by simp)
    refine trimPlaces_eq_self fun d hd => ?_
    have hplain : plain negative whole (some (v ++ [c])) =
        (signText negative ++ whole ++ '.' :: v) ++ [c] := by
      simp [plain]
    rw [hplain, List.getLast?_concat, Option.mem_some_iff] at hd
    subst hd
    exact ⟨hc, ne_point_of_isDigit hdigit⟩

/-- **Trimming a plain text** does not change the number that it denotes. -/
theorem denoted?_trimPlaces_plain {negative : Bool} {whole : Text} {fraction : Option Text}
    (h : Digits whole fraction) :
    denoted? (trimPlaces (plain negative whole fraction)) =
      denoted? (plain negative whole fraction) := by
  cases fraction with
  | none =>
    have hpoint : '.' ∉ plain negative whole none := by
      have hplain : plain negative whole none = signText negative ++ whole := by simp [plain]
      rw [hplain, List.mem_append, not_or]
      refine ⟨by cases negative <;> decide, fun hmem => ?_⟩
      exact ne_point_of_isDigit (h.2.1 _ hmem) rfl
    rw [trimPlaces_of_not_mem hpoint]
  | some places =>
    obtain ⟨fraction, k, htrim, hfraction, rfl⟩ := @exists_trimPlaces_plain negative _ _ h
    rw [htrim, denoted?_plain hfraction, denoted?_plain h, Option.getD_some, ← List.append_assoc,
      placed_append_zeros]

/-! ### What a layout denotes -/

/-- A text denotes a number, and still does without its last zeros. -/
def Denotes (t : Text) (q : ℚ) : Prop :=
  denoted? t = some q ∧ denoted? (trimPlaces t) = some q

/-- **A layout** denotes the number that its digits stand for. -/
theorem denotes_layout {s : Scientific} (hs : s.digits.NoLeadingZero) (negative : Bool)
    (positionalBelow : ℤ) :
    Denotes (signText negative ++ s.layout positionalBelow) (signed negative s.value) := by
  obtain ⟨hdigits, first, hfirst, -⟩ := hs
  have hne : s.digits ≠ [] := List.ne_nil_of_mem (List.mem_of_head? hfirst)
  rw [Denotes]
  unfold layout
  split
  · obtain ⟨whole, fraction, hplain, h, hvalue⟩ := Scientific.exists_plain_positional hne hdigits
    have hsign : signText negative ++ s.positional = plain negative whole fraction := by
      rw [hplain]
      simp [plain, signText]
    rw [hsign, denoted?_trimPlaces_plain h, denoted?_plain h, hvalue]
    exact ⟨rfl, rfl⟩
  · rw [trimPlaces_of_mem_e (List.mem_append_right _ (e_mem_exponential s)),
      denoted?_exponential hne hdigits]
    exact ⟨rfl, rfl⟩

/-! ### Cuts -/

/-- A text cut behind so many characters, if it has them. -/
def cut? (k : ℕ) (t : Text) : Option (Text × Text) :=
  if k ≤ t.length then some (t.splitAt k) else none

/-- The exponential form, if there is a first digit. -/
def exponential? (s : Scientific) : Option Text := do
  let (first, others) ← cut? 1 s.digits
  let fraction := if others = [] then [] else '.' :: others
  return first ++ fraction ++ 'e' :: (if s.exponent < 0 then '-' else '+') ::
    Text.ofNat s.exponent.natAbs

/-- The form `0.00d₁d₂…dₖ`, for a negative exponent. -/
def behindZeros (s : Scientific) : Text :=
  '0' :: '.' :: List.replicate (-s.exponent - 1).toNat '0' ++ s.digits

/-- Any number of digits: with zeros behind them, or cut at the point, or cut behind the first. -/
def natural? (s : Scientific) : Option Text :=
  if s.digits.length ≤ s.exponent + 1 ∧ s.exponent < 21 then
    some (s.digits ++ List.replicate (s.exponent + 1 - s.digits.length).toNat '0')
  else if 0 ≤ s.exponent ∧ s.exponent < 21 then do
    let (whole, places) ← cut? (s.exponent + 1).toNat s.digits
    return whole ++ '.' :: places
  else if -6 ≤ s.exponent ∧ s.exponent < 0 then some (behindZeros s)
  else exponential? s

/-- So many digits: cut at the point, which stands among them or behind the last, or behind the
first digit. -/
def significant? (count : ℕ) (s : Scientific) : Option Text :=
  if s.exponent < -6 ∨ count ≤ s.exponent then exponential? s
  else if 0 ≤ s.exponent then do
    let (whole, places) ← cut? (s.exponent + 1).toNat s.digits
    return whole ++ if places = [] then [] else '.' :: places
  else some (behindZeros s)

variable {s : Scientific}

/-- A cut within a text gives what is before it and what is behind it. -/
theorem cut?_of_le {k : ℕ} {t : Text} (h : k ≤ t.length) :
    cut? k t = some (t.take k, t.drop k) := by
  rw [cut?, if_pos h, List.splitAt_eq]

/-- The exponential form is cut behind the first digit, and there is one. -/
theorem exponential?_eq (hs : s.digits ≠ []) : exponential? s = some s.exponential := by
  have hlen := List.length_pos_of_ne_nil hs
  have hothers : s.digits.tail = [] ↔ s.digits.length ≤ 1 := by
    rw [← List.drop_one, List.drop_eq_nil_iff]
  simp [exponential?, cut?_of_le (Nat.succ_le_iff.2 hlen), exponential, hothers]

/-- For a negative exponent the positional form is that behind zeros. -/
theorem behindZeros_eq (hs : s.exponent < 0) : behindZeros s = s.positional := by
  rw [positional, if_pos hs]
  rfl

/-- **Any number of digits** is cut within them. -/
theorem natural?_eq (hs : s.digits ≠ []) : natural? s = some (s.layout 21) := by
  have hlen := List.length_pos_of_ne_nil hs
  unfold natural?
  split
  · rename_i h
    have hzeros : (s.exponent + 1 - s.digits.length).toNat =
        s.exponent.toNat + 1 - s.digits.length := by omega
    rw [layout, if_pos ⟨by omega, h.2⟩, positional, if_neg (by omega), if_pos (by omega), hzeros]
  split
  · rename_i hlong h
    have hwhole : (s.exponent + 1).toNat = s.exponent.toNat + 1 := by omega
    rw [layout, if_pos ⟨by omega, h.2⟩, positional, if_neg (by omega), if_neg (by omega), hwhole,
      cut?_of_le (by omega)]
    rfl
  split
  · rename_i h
    rw [layout, if_pos ⟨h.1, by omega⟩, behindZeros_eq h.2]
  · rw [layout, if_neg (by omega), exponential?_eq hs]

/-- **So many digits** are cut within them, and none is missing before the point. -/
theorem significant?_eq (hs : s.digits ≠ []) :
    significant? s.digits.length s = some (s.layout s.digits.length) := by
  unfold significant?
  split
  · rw [layout, if_neg (by omega), exponential?_eq hs]
  split
  · have hwhole : (s.exponent + 1).toNat = s.exponent.toNat + 1 := by omega
    rw [layout, if_pos (by omega), positional, if_neg (by omega), hwhole, cut?_of_le (by omega)]
    dsimp only
    split
    · rename_i hle
      have hall : s.exponent.toNat + 1 = s.digits.length := by omega
      simp [hall]
    · rename_i hgt
      have hplaces : s.digits.drop (s.exponent.toNat + 1) ≠ [] := by
        rw [ne_eq, List.drop_eq_nil_iff]
        exact hgt
      simp [hplaces]
  · rw [layout, if_pos (by omega), behindZeros_eq (by omega)]

/-! ### The texts of a magnitude -/

variable {m : Binary64.Magnitude} {p : ℕ}

/-- The shortest digits of a magnitude other than zero begin with one other than zero. -/
theorem noLeadingZero_shortest (hm : m.units ≠ 0) : (shortest m).digits.NoLeadingZero := by
  obtain ⟨c, x, hs, -, hc, -⟩ := shortest_spec hm
  rw [hs]
  exact Text.noLeadingZero_ofNat hc

/-- So does a fixed number of digits, and there are just so many. -/
theorem noLeadingZero_rounded (hm : m.units ≠ 0) (hp : 0 < p) :
    (rounded p m).digits.NoLeadingZero ∧ (rounded p m).digits.length = p := by
  obtain ⟨n, x, -, hr, hlow, hhigh, -⟩ := rounded_spec hm hp
  have hn : n ≠ 0 := ((Nat.pow_pos (by decide)).trans_le hlow).ne'
  rw [hr]
  exact ⟨Text.noLeadingZero_ofNat hn, length_ofNat_eq hp hlow hhigh⟩

/-- The shown text denotes one of three choices of digits. -/
theorem denoted?_finiteText (hm : m.units ≠ 0) (negative : Bool) :
    ∃ s ∈ [shortest m, rounded 10 m, rounded 12 m],
      denoted? (finiteText negative m) = some (signed negative s.value) := by
  rw [finiteText, if_neg hm]
  dsimp only
  split
  · have hten := (noLeadingZero_rounded hm (p := 10) (by decide)).1
    exact ⟨rounded 10 m, by simp, (denotes_layout hten negative _).2⟩
  split
  · have htwelve := (noLeadingZero_rounded hm (p := 12) (by decide)).1
    exact ⟨rounded 12 m, by simp, (denotes_layout htwelve negative _).2⟩
  · exact ⟨shortest m, by simp, (denotes_layout (noLeadingZero_shortest hm) negative _).2⟩

/-- **The point is placed exactly.** Whatever the digits and the exponent, no cut goes beyond the
digits, and the text denotes `d₁.d₂…dₖ · 10 ^ e` with its sign, before and after its last zeros are
dropped. The digits of a magnitude other than zero are of that kind, those of a fixed number are
just so many, and so every text of it denotes its digits, the one that is shown too. -/
theorem point_placed (hm : m.units ≠ 0) (hp : 0 < p) (negative : Bool) :
    (∀ s : Scientific, s.digits.NoLeadingZero →
      (∃ t, natural? s = some t ∧ Denotes (signText negative ++ t) (signed negative s.value)) ∧
        ∃ t, significant? s.digits.length s = some t ∧
          Denotes (signText negative ++ t) (signed negative s.value)) ∧
      ((shortest m).digits.NoLeadingZero ∧ natural? (shortest m) = some (natural m) ∧
        Denotes (signText negative ++ natural m) (signed negative (shortest m).value)) ∧
      ((rounded p m).digits.NoLeadingZero ∧ (rounded p m).digits.length = p ∧
        significant? p (rounded p m) = some (significant p m) ∧
        Denotes (signText negative ++ significant p m) (signed negative (rounded p m).value)) ∧
      ∃ s ∈ [shortest m, rounded 10 m, rounded 12 m],
        denoted? (finiteText negative m) = some (signed negative s.value) := by
  have hne {s : Scientific} (hs : s.digits.NoLeadingZero) : s.digits ≠ [] := by
    obtain ⟨-, first, hfirst, -⟩ := hs
    exact List.ne_nil_of_mem (List.mem_of_head? hfirst)
  have hshortest := noLeadingZero_shortest hm
  obtain ⟨hrounded, hlen⟩ := noLeadingZero_rounded hm hp
  have hcut := significant?_eq (hne hrounded)
  rw [hlen] at hcut
  refine ⟨fun s hs => ⟨?_, ?_⟩, ⟨hshortest, ?_, ?_⟩, ⟨hrounded, hlen, hcut, ?_⟩,
    denoted?_finiteText hm negative⟩
  · exact ⟨_, natural?_eq (hne hs), denotes_layout hs negative 21⟩
  · exact ⟨_, significant?_eq (hne hs), denotes_layout hs negative _⟩
  · exact natural?_eq (hne hshortest)
  · exact denotes_layout hshortest negative 21
  · exact denotes_layout hrounded negative p

/-- `12345.75` with all its digits and with three. -/
theorem point_placed_quarters :
    let m : Binary64.Magnitude := ⟨49383 * 2 ^ 1072, by decide +kernel⟩
    (m.units ≠ 0 ∧ 0 < 3) ∧
      (natural m = "12345.75".toList ∧ significant 3 m = "1.23e+4".toList) ∧
      Denotes "-12345.75".toList (signed true (shortest m).value) ∧
      Denotes "-1.23e+4".toList (signed true (rounded 3 m).value) := by
  intro m
  have hm : m.units ≠ 0 := by decide +kernel
  have hnatural : natural m = "12345.75".toList := by decide +kernel
  have hthree : significant 3 m = "1.23e+4".toList := by decide +kernel
  obtain ⟨-, ⟨-, -, hshortest⟩, ⟨-, -, -, hrounded⟩, -⟩ := point_placed hm (p := 3) (by decide) true
  rw [hnatural] at hshortest
  rw [hthree] at hrounded
  exact ⟨⟨hm, by decide⟩, ⟨hnatural, hthree⟩, hshortest, hrounded⟩

end Display

end PocketCalculator
