import Mathlib.Data.List.Basic
import Mathlib.Data.List.TakeWhile
import Mathlib.Tactic.Common
import Mathlib.Tactic.IntervalCases
import Abacus.Decimal.Conversion
import Abacus.Proofs.ScanSteps

/-!
Texts of numbers. The text of a numeral is a numeral again, whatever script its digits are from, and
so the text of every number token, and every text that means a number by itself, is converted to the
number that it stands for.
-/

namespace Abacus.Numeral

variable {digit? : Char → Option ℕ} {x : Numeral} {cs ds rest : List Char}

/-! ### The parts of a numeral -/

/-- Digits only. -/
def AllDigits (digit? : Char → Option ℕ) (ds : List Char) : Prop := ∀ c ∈ ds, (digit? c).isSome

structure WellFormedPower (digit? : Char → Option ℕ) (p : Power) : Prop where
  letter : p.letter = 'e' ∨ p.letter = 'E'
  sign : ∀ s ∈ p.sign, s = '+' ∨ s = '-'
  digits : AllDigits digit? p.digits
  ne_nil : p.digits ≠ []

/-- The parts of a numeral are those that a text can be split into. -/
structure WellFormed (digit? : Char → Option ℕ) (x : Numeral) : Prop where
  whole : AllDigits digit? x.whole
  fraction : ∀ ds ∈ x.fraction, AllDigits digit? ds
  ne_nil : ¬ (x.whole = [] ∧ x.fraction.getD [] = [])
  power : ∀ p ∈ x.power, WellFormedPower digit? p

lemma allDigits_takeDigits (cs : List Char) : AllDigits digit? (takeDigits digit? cs) :=
  fun _ hc => List.mem_takeWhile_imp (p := fun c => (digit? c).isSome) hc

lemma allDigits_of_splitFraction (cs : List Char) :
    ∀ ds ∈ (splitFraction digit? cs).1, AllDigits digit? ds := by
  intro ds hds
  unfold splitFraction at hds
  split at hds
  · obtain rfl := Option.some.inj hds
    exact allDigits_takeDigits _
  · simp at hds

lemma sign_of_splitSign (cs : List Char) : ∀ s ∈ (splitSign cs).1, s = '+' ∨ s = '-' := by
  intro s hs
  unfold splitSign at hs
  split at hs
  · exact .inl (Option.some.inj hs).symm
  · exact .inr (Option.some.inj hs).symm
  · simp at hs

lemma wellFormed_of_splitPower (cs : List Char) :
    ∀ p ∈ (splitPower digit? cs).1, WellFormedPower digit? p := by
  intro p hp
  cases cs with
  | nil => simp [splitPower] at hp
  | cons c rest =>
    unfold splitPower at hp
    dsimp only at hp
    split at hp
    · rename_i h
      obtain rfl := Option.some.inj hp
      exact ⟨h.1, sign_of_splitSign rest, allDigits_takeDigits _, h.2⟩
    · simp at hp

lemma wellFormed_of_split? (h : split? digit? cs = some (x, rest)) : x.WellFormed digit? := by
  unfold split? at h
  dsimp only at h
  split at h
  · simp at h
  · rename_i hne
    obtain ⟨rfl, rfl⟩ := Prod.mk.inj (Option.some.inj h)
    exact ⟨allDigits_takeDigits _, allDigits_of_splitFraction _, hne, wellFormed_of_splitPower _⟩

/-! ### The text of a numeral is that numeral -/

/-- What is not a digit ends digits. -/
def EndsDigits (digit? : Char → Option ℕ) (cs : List Char) : Prop :=
  ∀ c ∈ cs.head?, digit? c = none

/-- The marks in a numeral are no digits. -/
structure NoMarks (digit? : Char → Option ℕ) : Prop where
  mark : ∀ c ∈ ['.', 'e', 'E', '+', '-'], digit? c = none

lemma takeDigits_append_of_ends (hd : AllDigits digit? ds) (hr : EndsDigits digit? rest) :
    takeDigits digit? (ds ++ rest) = ds := by
  rw [takeDigits, List.takeWhile_append_of_pos hd]
  cases rest with
  | nil => simp
  | cons c rest => simp [hr c rfl]

lemma dropDigits_append_of_ends (hd : AllDigits digit? ds) (hr : EndsDigits digit? rest) :
    dropDigits digit? (ds ++ rest) = rest := by
  rw [dropDigits, List.dropWhile_append_of_pos hd]
  cases rest with
  | nil => simp
  | cons c rest => simp [hr c rfl]

lemma splitSign_of_digits {sign : Option Char} (hs : ∀ s ∈ sign, s = '+' ∨ s = '-')
    (hm : NoMarks digit?) (hd : AllDigits digit? ds) (hne : ds ≠ []) (rest : List Char) :
    splitSign (sign.toList ++ (ds ++ rest)) = (sign, ds ++ rest) := by
  cases sign with
  | some s => rcases hs s rfl with rfl | rfl <;> rfl
  | none =>
    obtain ⟨d, ds, rfl⟩ := List.exists_cons_of_ne_nil hne
    have hdigit : (digit? d).isSome := hd d (by simp)
    have hplus : d ≠ '+' := by rintro rfl; simp [hm.mark '+' (by simp)] at hdigit
    have hminus : d ≠ '-' := by rintro rfl; simp [hm.mark '-' (by simp)] at hdigit
    unfold splitSign
    split <;> simp_all

lemma rest_of_splitPower (h : (splitPower digit? cs).1 = none) : (splitPower digit? cs).2 = cs := by
  have happend := @splitPower_append digit? cs
  rwa [h, powerText, List.nil_append] at happend

lemma splitPower_powerText {power : Option Power} (hm : NoMarks digit?)
    (hp : ∀ p ∈ power, WellFormedPower digit? p) (hr : EndsDigits digit? rest)
    (hnone : power = none → (splitPower digit? rest).1 = none) :
    splitPower digit? (powerText power ++ rest) = (power, rest) := by
  cases power with
  | none => exact Prod.ext (hnone rfl) (rest_of_splitPower (hnone rfl))
  | some p =>
    obtain ⟨hl, hs, hd, hne⟩ := hp p rfl
    simp [powerText, splitPower, splitSign_of_digits hs hm hd hne, hl, hne,
      takeDigits_append_of_ends hd hr, dropDigits_append_of_ends hd hr]

lemma splitFraction_fractionText {fraction : Option (List Char)}
    (hf : ∀ ds ∈ fraction, AllDigits digit? ds) (hr : EndsDigits digit? rest)
    (hp : fraction = none → ∀ c ∈ rest.head?, c ≠ '.') :
    splitFraction digit? (fractionText fraction ++ rest) = (fraction, rest) := by
  cases fraction with
  | some ds =>
    simp [fractionText, splitFraction, takeDigits_append_of_ends (hf ds rfl) hr,
      dropDigits_append_of_ends (hf ds rfl) hr]
  | none =>
    rw [fractionText, List.nil_append]
    unfold splitFraction
    split
    · simp at hp
    · rfl

/-- What can follow a numeral and is no part of it. -/
structure Stops (digit? : Char → Option ℕ) (x : Numeral) (rest : List Char) : Prop where
  digits : EndsDigits digit? rest
  point : x.fraction = none → x.power = none → ∀ c ∈ rest.head?, c ≠ '.'
  power : x.power = none → (splitPower digit? rest).1 = none

lemma Stops.nil : Stops digit? x [] := ⟨by simp [EndsDigits], by simp, fun _ => rfl⟩

/-- **The text of a numeral is split into that numeral** and what follows it. -/
theorem split?_text_append (hx : x.WellFormed digit?) (hm : NoMarks digit?)
    (hr : Stops digit? x rest) : split? digit? (x.text ++ rest) = some (x, rest) := by
  obtain ⟨hw, hf, hne, hp⟩ := hx
  -- each part is followed by what is no digit: by a mark of the next part or by the rest
  have hpower : EndsDigits digit? (powerText x.power ++ rest) := by
    cases hpow : x.power with
    | none => simpa [powerText] using hr.digits
    | some p =>
      intro c hc
      obtain rfl : p.letter = c := by simpa [powerText] using hc
      rcases (hp p hpow).letter with h | h <;> rw [h] <;> exact hm.mark _ (by simp)
  have hdot : x.fraction = none → ∀ c ∈ (powerText x.power ++ rest).head?, c ≠ '.' := by
    intro hfr
    cases hpow : x.power with
    | none => simpa [powerText] using hr.point hfr hpow
    | some p =>
      intro c hc
      obtain rfl : p.letter = c := by simpa [powerText] using hc
      rcases (hp p hpow).letter with h | h <;> rw [h] <;> decide
  have hends : EndsDigits digit? (fractionText x.fraction ++ (powerText x.power ++ rest)) := by
    cases hfr : x.fraction with
    | none => simpa [fractionText] using hpower
    | some ds => simpa [EndsDigits, fractionText] using hm.mark '.' (by simp)
  simp only [split?, text, List.append_assoc, takeDigits_append_of_ends hw hends,
    dropDigits_append_of_ends hw hends, splitFraction_fractionText hf hpower hdot,
    splitPower_powerText hm hp hr.digits hr.power, if_neg hne]

lemma split?_text (hx : x.WellFormed digit?) (hm : NoMarks digit?) :
    split? digit? x.text = some (x, []) := by
  simpa using split?_text_append hx hm Stops.nil

lemma endsDigits_dropDigits (cs : List Char) : EndsDigits digit? (dropDigits digit? cs) := by
  intro c hc
  have := List.head?_dropWhile_not (fun c => (digit? c).isSome) cs
  rw [dropDigits] at hc
  simp_all

lemma endsDigits_of_splitFraction (cs : List Char) :
    EndsDigits digit? (splitFraction digit? (dropDigits digit? cs)).2 := by
  unfold splitFraction
  split
  · exact endsDigits_dropDigits _
  · exact endsDigits_dropDigits _

lemma head?_of_splitFraction (h : (splitFraction digit? cs).1 = none) :
    ∀ c ∈ (splitFraction digit? cs).2.head?, c ≠ '.' := by
  unfold splitFraction at h ⊢
  split at h
  · simp at h
  · rename_i hpoint
    rintro c hc rfl
    obtain ⟨rest, rfl⟩ : ∃ rest, cs = '.' :: rest := ⟨cs.tail, by cases cs <;> simp_all⟩
    exact hpoint rest rfl

lemma endsDigits_of_splitPower (h : EndsDigits digit? cs) :
    EndsDigits digit? (splitPower digit? cs).2 := by
  cases hpow : (splitPower digit? cs).1 with
  | none => rwa [rest_of_splitPower hpow]
  | some p =>
    cases cs with
    | nil => simp [splitPower] at hpow
    | cons c rest =>
      unfold splitPower at hpow ⊢
      dsimp only at hpow ⊢
      split
      · exact endsDigits_dropDigits _
      · rename_i hnot
        simp [hnot] at hpow

/-- **What a split leaves is no part of the numeral.** -/
theorem stops_of_split? (h : split? digit? cs = some (x, rest)) : Stops digit? x rest := by
  have hfraction := @endsDigits_of_splitFraction digit? cs
  unfold split? at h
  dsimp only at h
  split at h
  · simp at h
  · obtain ⟨rfl, rfl⟩ := Prod.mk.inj (Option.some.inj h)
    refine ⟨endsDigits_of_splitPower hfraction, fun hfr hpow => ?_, fun hpow => ?_⟩
    · rw [rest_of_splitPower hpow]
      exact head?_of_splitFraction hfr
    · rw [rest_of_splitPower hpow]
      exact hpow

lemma mem_text (hx : x.WellFormed digit?) :
    ∀ c ∈ x.text, (digit? c).isSome ∨ c ∈ ['.', 'e', 'E', '+', '-'] := by
  obtain ⟨hw, hf, -, hp⟩ := hx
  intro c hc
  simp only [text, List.mem_append] at hc
  rcases hc with hc | hc | hc
  · exact .inl (hw c hc)
  · cases hfr : x.fraction with
    | none => simp [hfr, fractionText] at hc
    | some ds =>
      rw [hfr, fractionText, List.mem_cons] at hc
      rcases hc with rfl | hc
      · simp
      · exact .inl (hf ds hfr c hc)
  · cases hpow : x.power with
    | none => simp [hpow, powerText] at hc
    | some p =>
      obtain ⟨hl, hs, hd, -⟩ := hp p hpow
      rw [hpow, powerText, List.mem_cons, List.mem_append, Option.mem_toList] at hc
      rcases hc with rfl | hc | hc
      · rcases hl with h | h <;> simp [h]
      · rcases hs c hc with rfl | rfl <;> simp
      · exact .inl (hd c hc)

/-- The first character is a digit or a point. -/
lemma head?_text (hx : x.WellFormed digit?) :
    ∃ c cs, x.text = c :: cs ∧ ((digit? c).isSome ∨ c = '.') := by
  obtain ⟨hw, hf, hne, -⟩ := hx
  cases hwhole : x.whole with
  | cons c cs => exact ⟨c, _, by rw [text, hwhole]; rfl, .inl (hw c (by simp [hwhole]))⟩
  | nil =>
    cases hfr : x.fraction with
    | none => simp [hwhole, hfr] at hne
    | some ds => exact ⟨'.', _, by rw [text, hwhole, hfr]; rfl, .inr rfl⟩

end Abacus.Numeral

namespace Abacus.Conversion

open Numeral

/-! ### Digits of any script -/

lemma noMarks_asciiDigitValue? : NoMarks Text.asciiDigitValue? :=
  ⟨List.forall_iff_forall_mem.mp (by decide)⟩

lemma digitValue?_le {c : Char} {k : ℕ} (h : Text.digitValue? c = some k) : k ≤ 9 := by
  unfold Text.digitValue? at h
  obtain ⟨z, hz, rfl⟩ := Option.map_eq_some_iff.mp h
  have := List.find?_some hz
  simp only [Bool.and_eq_true, decide_eq_true_eq] at this
  omega

lemma asciiDigit_of_some {c : Char} {k : ℕ} (h : Text.digitValue? c = some k) :
    Text.asciiDigitValue? (asciiDigit c) = some k := by
  have hk := digitValue?_le h
  rw [asciiDigit, h]
  dsimp only
  interval_cases k <;> decide

/-- The numeral with the digits `0` to `9`. -/
def asciiNumeral (x : Numeral) : Numeral where
  whole := x.whole.map asciiDigit
  fraction := x.fraction.map (·.map asciiDigit)
  power := x.power.map fun p => { p with digits := p.digits.map asciiDigit }

lemma allDigits_map {ds : List Char} (h : AllDigits Text.digitValue? ds) :
    AllDigits Text.asciiDigitValue? (ds.map asciiDigit) := by
  intro a ha
  obtain ⟨c, hc, rfl⟩ := List.mem_map.mp ha
  obtain ⟨k, hk⟩ := Option.isSome_iff_exists.mp (h c hc)
  simp [asciiDigit_of_some hk]

lemma valueOf_map {ds : List Char} (h : AllDigits Text.digitValue? ds) :
    valueOf Text.asciiDigitValue? (ds.map asciiDigit) = valueOf Text.digitValue? ds := by
  unfold valueOf
  rw [List.foldl_map]
  refine List.foldl_ext _ _ _ fun n c hc => ?_
  obtain ⟨k, hk⟩ := Option.isSome_iff_exists.mp (h c hc)
  simp [asciiDigit_of_some hk, hk]

variable {x : Numeral}

lemma wellFormed_asciiNumeral (hx : x.WellFormed Text.digitValue?) :
    (asciiNumeral x).WellFormed Text.asciiDigitValue? := by
  obtain ⟨hw, hf, hne, hp⟩ := hx
  refine ⟨allDigits_map hw, ?_, ?_, ?_⟩
  · intro as has
    obtain ⟨ds, hds, rfl⟩ := Option.map_eq_some_iff.mp has
    exact allDigits_map (hf ds hds)
  · cases hfr : x.fraction <;> simpa [asciiNumeral, hfr] using hne
  · intro a ha
    obtain ⟨p, hpow, rfl⟩ := Option.map_eq_some_iff.mp ha
    obtain ⟨hl, hs, hd, hnil⟩ := hp p hpow
    exact ⟨hl, hs, allDigits_map hd, by simpa using hnil⟩

lemma fractionText_map (fraction : Option (List Char)) :
    fractionText (fraction.map (·.map asciiDigit)) = (fractionText fraction).map asciiDigit := by
  have hpoint : asciiDigit '.' = '.' := by decide
  cases fraction <;> simp [fractionText, hpoint]

lemma powerText_map {power : Option Power}
    (hp : ∀ p ∈ power, WellFormedPower Text.digitValue? p) :
    powerText (power.map fun p => { p with digits := p.digits.map asciiDigit }) =
      (powerText power).map asciiDigit := by
  have hmark : ∀ c ∈ ['e', 'E', '+', '-'], asciiDigit c = c :=
    List.forall_iff_forall_mem.mp (by decide)
  cases power with
  | none => rfl
  | some p =>
    obtain ⟨hl, hs, -, -⟩ := hp p rfl
    have hletter : asciiDigit p.letter = p.letter := hmark _ (by rcases hl with h | h <;> simp [h])
    have hsign : p.sign.toList.map asciiDigit = p.sign.toList := by
      cases hsg : p.sign with
      | none => rfl
      | some s =>
        have hs' := hmark s (by rcases hs s hsg with rfl | rfl <;> simp)
        simp [hs']
    simp [powerText, hletter, hsign]

lemma text_asciiNumeral (hx : x.WellFormed Text.digitValue?) :
    (asciiNumeral x).text = x.text.map asciiDigit := by
  simp only [text, asciiNumeral, List.map_append, fractionText_map, powerText_map hx.power]

lemma value_asciiNumeral (hx : x.WellFormed Text.digitValue?) :
    (asciiNumeral x).value Text.asciiDigitValue? = x.value Text.digitValue? := by
  obtain ⟨hw, hf, -, hp⟩ := hx
  have hfr : ((asciiNumeral x).fraction.getD []) = (x.fraction.getD []).map asciiDigit := by
    cases h : x.fraction <;> simp [asciiNumeral, h]
  have hall : AllDigits Text.digitValue? (x.whole ++ x.fraction.getD []) := by
    intro c hc
    rcases List.mem_append.mp hc with hc | hc
    · exact hw c hc
    · cases h : x.fraction with
      | none => simp [h] at hc
      | some ds => exact hf ds h c (by simpa [h] using hc)
  have hpow : powerValue Text.asciiDigitValue? (asciiNumeral x).power =
      powerValue Text.digitValue? x.power := by
    cases h : x.power with
    | none => simp [asciiNumeral, h, powerValue]
    | some p => simp [asciiNumeral, h, powerValue, valueOf_map (hp p h).digits]
  have hwhole : (asciiNumeral x).whole = x.whole.map asciiDigit := rfl
  simp only [value, hfr, hpow, hwhole, ← List.map_append, valueOf_map hall, List.length_map]

/-! ### Conversion -/

/-- A character that conversion neither drops nor changes. -/
structure Kept (c : Char) : Prop where
  blank : Text.isBlank c = false
  digit : asciiDigit c = c
  line : c ≠ '_'

lemma trim_of_forall {cs : List Char} (h : ∀ c ∈ cs, Text.isBlank c = false) :
    Text.trim cs = cs := by
  have hdrop : ∀ ds : List Char, (∀ c ∈ ds, Text.isBlank c = false) →
      ds.dropWhile Text.isBlank = ds := by
    intro ds hds
    cases ds with
    | nil => rfl
    | cons c ds => simp [hds c (by simp)]
  rw [Text.trim, hdrop cs h, hdrop _ fun c hc => h c (List.mem_reverse.mp hc),
    List.reverse_reverse]

lemma joinDigits_of_forall {cs : List Char} (h : ∀ c ∈ cs, c ≠ '_') (b : Bool) :
    joinDigits b cs = cs := by
  induction cs generalizing b with
  | nil => rfl
  | cons c cs ih =>
    have hc : (c == '_') = false := by simpa using h c (by simp)
    rw [joinDigits, hc]
    simp [ih fun a ha => h a (by simp [ha])]

lemma plain_of_kept {cs : List Char} (h : ∀ c ∈ cs, Kept c) : plain cs = cs := by
  have hmap : cs.map asciiDigit = cs := by
    rw [List.map_congr_left fun c hc => (h c hc).digit, List.map_id']
  rw [plain, trim_of_forall fun c hc => (h c hc).blank, hmap,
    joinDigits_of_forall fun c hc => (h c hc).line]

lemma isBlank_of_digit {c : Char} (h : (Text.digitValue? c).isSome) : Text.isBlank c = false := by
  have hfar : ∀ z ∈ Text.zeros, ∀ r ∈ Text.blanks, z + 9 < r.1 ∨ r.2 < z := by decide
  obtain ⟨k, hk⟩ := Option.isSome_iff_exists.mp h
  obtain ⟨z, hz, -⟩ := Option.map_eq_some_iff.mp hk
  have hmem := List.mem_of_find?_eq_some hz
  have hrange := List.find?_some hz
  simp only [Bool.and_eq_true, decide_eq_true_eq] at hrange
  rw [← Bool.not_eq_true, Text.isBlank, Text.Ranges.has_iff]
  rintro ⟨r, hr, hlow, hhigh⟩
  have := hfar z hmem r hr
  omega

/-- The characters of the texts that mean a number by themselves. -/
def numberChars : List Char := "0123456789.eE+-infatyINFATY".toList

lemma kept_of_mem {c : Char} (h : c ∈ numberChars) : Kept c := by
  have hall : ∀ c ∈ numberChars, Text.isBlank c = false ∧ asciiDigit c = c ∧ c ≠ '_' :=
    List.forall_iff_forall_mem.mp (by decide +kernel)
  obtain ⟨hb, hd, hl⟩ := hall c h
  exact ⟨hb, hd, hl⟩

lemma mem_of_asciiDigitValue? {c : Char} (h : (Text.asciiDigitValue? c).isSome) :
    c ∈ "0123456789".toList := by
  have hrange : '0' ≤ c ∧ c ≤ '9' := by
    by_contra hc
    simp [Text.asciiDigitValue?, hc] at h
  have hlow : 48 ≤ c.toNat := hrange.1
  have hhigh : c.toNat ≤ 57 := hrange.2
  obtain ⟨n, hn⟩ : ∃ n, c.toNat = n := ⟨_, rfl⟩
  have hc : c = Char.ofNat n := by rw [← hn, Char.ofNat_toNat]
  rw [hn] at hlow hhigh
  subst hc
  interval_cases n <;> decide

lemma mem_of_wellFormed {x : Numeral} (hx : x.WellFormed Text.asciiDigitValue?) :
    ∀ c ∈ x.text, c ∈ numberChars := by
  have hdigit : ∀ c ∈ "0123456789".toList, c ∈ numberChars :=
    List.forall_iff_forall_mem.mp (by decide)
  have hmark : ∀ c ∈ ['.', 'e', 'E', '+', '-'], c ∈ numberChars :=
    List.forall_iff_forall_mem.mp (by decide)
  intro c hc
  rcases mem_text hx c hc with h | h
  · exact hdigit c (mem_of_asciiDigitValue? h)
  · exact hmark c h

/-- The letters of `inf`, `infinity` and `nan` in either case. -/
lemma mem_of_toLower {c : Char} (h : c.toLower ∈ "infaty".toList) : c ∈ numberChars := by
  by_cases hr : 65 ≤ c.toNat ∧ c.toNat ≤ 90
  · obtain ⟨n, hn⟩ : ∃ n, c.toNat = n := ⟨_, rfl⟩
    have hc : c = Char.ofNat n := by rw [← hn, Char.ofNat_toNat]
    obtain ⟨hlow, hhigh⟩ := hr
    rw [hn] at hlow hhigh
    subst hc
    interval_cases n <;> revert h <;> decide
  · have hsame : c.toLower = c := by
      unfold Char.toLower
      rw [dif_neg]
      exact hr
    have hall : ∀ c ∈ "infaty".toList, c ∈ numberChars :=
      List.forall_iff_forall_mem.mp (by decide)
    exact hall c (hsame ▸ h)

/-- The text of a numeral begins with no sign and with no letter of a word. -/
lemma first_text (hx : x.WellFormed Text.asciiDigitValue?) :
    ∃ c cs, x.text = c :: cs ∧ c ≠ '+' ∧ c ≠ '-' ∧ c.toLower ≠ 'i' ∧ c.toLower ≠ 'n' := by
  obtain ⟨c, cs, htext, hc⟩ := head?_text hx
  have hdigit : ∀ c ∈ "0123456789".toList,
      c ≠ '+' ∧ c ≠ '-' ∧ c.toLower ≠ 'i' ∧ c.toLower ≠ 'n' :=
    List.forall_iff_forall_mem.mp (by decide)
  refine ⟨c, cs, htext, ?_⟩
  rcases hc with hc | rfl
  · exact hdigit c (mem_of_asciiDigitValue? hc)
  · decide

/-- The text of a numeral is no word. -/
lemma unsigned?_text (hx : x.WellFormed Text.asciiDigitValue?) (negative : Bool) :
    NumberText.unsigned? negative x.text =
      some ((x.value Text.asciiDigitValue?).toDouble negative) := by
  obtain ⟨c, cs, htext, -, -, hi, hn⟩ := first_text hx
  have hread : Numeral.read? Text.asciiDigitValue? (c :: cs) =
      some (x.value Text.asciiDigitValue?) := by
    rw [← htext, Numeral.read?, split?_text hx noMarks_asciiDigitValue?]
  rw [htext]
  simp [NumberText.unsigned?, hi, hn, hread]

/-- The text of a numeral has no sign. -/
lemma read?_text (hx : x.WellFormed Text.asciiDigitValue?) :
    NumberText.read? x.text = some ((x.value Text.asciiDigitValue?).toDouble false) := by
  obtain ⟨c, cs, htext, hplus, hminus, -, -⟩ := first_text hx
  rw [← unsigned?_text hx, htext, NumberText.read?]
  · intro rest h
    exact hplus (List.cons.inj h).1
  · intro rest h
    exact hminus (List.cons.inj h).1

/-- **The text of a numeral is converted to its value**, whatever script its digits are from. -/
theorem convertNumber?_text (hx : x.WellFormed Text.digitValue?) :
    convertNumber? (String.ofList x.text) = some ((x.value Text.digitValue?).toDouble false) := by
  have hascii := wellFormed_asciiNumeral hx
  have hblank : ∀ c ∈ x.text, Text.isBlank c = false := by
    have hmark : ∀ c ∈ ['.', 'e', 'E', '+', '-'], Text.isBlank c = false :=
      List.forall_iff_forall_mem.mp (by decide)
    intro c hc
    rcases mem_text hx c hc with h | h
    · exact isBlank_of_digit h
    · exact hmark c h
  have hplain : plain x.text = (asciiNumeral x).text := by
    rw [plain, trim_of_forall hblank, ← text_asciiNumeral hx]
    exact joinDigits_of_forall (fun c hc => (kept_of_mem (mem_of_wellFormed hascii c hc)).line) _
  rw [convertNumber?, String.toList_ofList, hplain, read?_text hascii, value_asciiNumeral hx]

/-- What has no sign is kept as it is. -/
lemma mem_of_unsigned? {negative : Bool} {cs : List Char} {v : Double}
    (h : NumberText.unsigned? negative cs = some v) : ∀ c ∈ cs, c ∈ numberChars := by
  unfold NumberText.unsigned? at h
  have hword : ∀ w, w ∈ ["inf".toList, "infinity".toList, "nan".toList] → cs.map Char.toLower = w →
      ∀ c ∈ cs, c ∈ numberChars := by
    rintro w hw rfl c hc
    have hletters : ∀ w ∈ ["inf".toList, "infinity".toList, "nan".toList],
        w.Forall (· ∈ "infaty".toList) := by decide
    exact mem_of_toLower
      (List.forall_iff_forall_mem.mp (hletters _ hw) _ (List.mem_map_of_mem hc))
  dsimp only at h
  split at h
  · rename_i hinf
    rcases hinf with hinf | hinf
    · exact hword _ (by simp) hinf
    · exact hword _ (by simp) hinf
  · split at h
    · rename_i hnan
      exact hword _ (by simp) hnan
    · obtain ⟨y, hy, -⟩ := Option.map_eq_some_iff.mp h
      unfold Numeral.read? at hy
      split at hy
      · rename_i z hz
        -- any other text is a numeral from end to end
        have htext := text_append_of_split? hz
        rw [List.append_nil] at htext
        rw [← htext]
        exact mem_of_wellFormed (wellFormed_of_split? hz)
      · simp at hy

/-- All characters of a text that means a number by itself are kept as they are. -/
lemma mem_of_readNumber? {s : String} {v : Double} (h : readNumber? s = some v) :
    ∀ c ∈ s.toList, c ∈ numberChars := by
  rw [readNumber?] at h
  unfold NumberText.read? at h
  split at h
  · rename_i rest heq
    rw [heq]
    exact List.forall_mem_cons.mpr ⟨by decide, mem_of_unsigned? h⟩
  · rename_i rest heq
    rw [heq]
    exact List.forall_mem_cons.mpr ⟨by decide, mem_of_unsigned? h⟩
  · exact mem_of_unsigned? h

/-- **A text that means a number by itself is converted to that number.** -/
theorem convertNumber?_of_readNumber? {s : String} {v : Double} (h : readNumber? s = some v) :
    convertNumber? s = some v := by
  have hkept : ∀ c ∈ s.toList, Kept c := fun c hc => kept_of_mem (mem_of_readNumber? h c hc)
  rw [convertNumber?, plain_of_kept hkept]
  exact h

/-- **The text of every number token is converted to the number of the token.** -/
theorem convertNumber?_of_scan {source : String} {ts : List Token}
    (h : Token.scan source = .ok ts) :
    ∀ t ∈ ts, ∀ v, t.kind = .number v → convertNumber? t.text = some v := by
  refine Token.forall_of_scanFrom (fun pos c rest t tail _ hn v hv => ?_) h
  unfold Token.next at hn
  split at hn
  · split at hn
    · rename_i y _ hy
      obtain ⟨rfl, -⟩ := Prod.mk.inj (Except.ok.inj hn)
      obtain rfl := Token.Kind.number.inj hv
      exact convertNumber?_text (wellFormed_of_split? hy)
    · simp at hn
  · split at hn
    · obtain ⟨rfl, -⟩ := Prod.mk.inj (Except.ok.inj hn)
      simp at hv
    · split at hn
      · rename_i k hk
        obtain ⟨rfl, -⟩ := Prod.mk.inj (Except.ok.inj hn)
        exact absurd hv ((Token.ne_of_mark hk).2 v)
      · simp at hn

end Abacus.Conversion
