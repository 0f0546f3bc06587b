import Mathlib.Tactic.Common
import Abacus.Proofs.NumberTexts
import Abacus.Proofs.Placeless

/-!
Tokens in new surroundings. Where a token ends is decided by the characters that follow it, and of
those only up to the first one that no number and no word goes on with. So a token that was scanned
before some text is scanned again, with the same kind and spelling, before every text that starts
with such a character, wherever it stands.
-/

namespace Abacus

/-! ### Numerals -/

/-- A character that neither a number nor a word goes on with. -/
structure Breaks (c : Char) : Prop where
  word : Text.isWordChar c = false
  digit : Text.digitValue? c = none
  marks : c ∉ ['.', '+', '-']

/-- A text that goes on with no number and no word. -/
def Parts (cs : List Char) : Prop := ∀ c ∈ cs.head?, Breaks c

lemma parts_nil : Parts [] := by simp [Parts]

lemma parts_cons {c : Char} (h : c ∈ [' ', '(', ')', ',', '!']) (cs : List Char) :
    Parts (c :: cs) := by
  have hall : ∀ c ∈ [' ', '(', ')', ',', '!'], Text.isWordChar c = false ∧
      Text.digitValue? c = none ∧ c ∉ ['.', '+', '-'] :=
    List.forall_iff_forall_mem.mp (by decide +kernel)
  obtain ⟨hw, hd, hm⟩ := hall c h
  intro d hd'
  obtain rfl : c = d := by simpa using hd'
  exact ⟨hw, hd, hm⟩

namespace Numeral

variable {x : Numeral} {b old after : List Char}

lemma noMarks_digitValue? : NoMarks Text.digitValue? :=
  ⟨List.forall_iff_forall_mem.mp (by decide +kernel)⟩

lemma endsDigits_parts (h : Parts after) : EndsDigits Text.digitValue? after :=
  fun c hc => (h c hc).digit

/-- The characters of `b` decide as before, and behind them no digit follows. -/
lemma EndsDigits.parts (h : EndsDigits Text.digitValue? (b ++ old)) (hp : Parts after) :
    EndsDigits Text.digitValue? (b ++ after) := by
  cases b with
  | nil => exact endsDigits_parts hp
  | cons d b => exact h

lemma splitSign_parts (hp : Parts after) : splitSign after = (none, after) := by
  unfold splitSign
  split
  · exact absurd (by simp) (hp '+' rfl).marks
  · exact absurd (by simp) (hp '-' rfl).marks
  · rfl

lemma endsDigits_splitSign_parts (h : EndsDigits Text.digitValue? (splitSign (b ++ old)).2)
    (hp : Parts after) : EndsDigits Text.digitValue? (splitSign (b ++ after)).2 := by
  match b with
  | [] =>
    rw [List.nil_append, splitSign_parts hp]
    exact endsDigits_parts hp
  | s :: b =>
    by_cases hplus : s = '+'
    · subst hplus
      exact @EndsDigits.parts _ old _ h hp
    · by_cases hminus : s = '-'
      · subst hminus
        exact @EndsDigits.parts _ old _ h hp
      · have hsign : ∀ rest, splitSign (s :: rest) = (none, s :: rest) := by
          intro rest
          unfold splitSign
          split <;> simp_all
        rw [List.cons_append, hsign] at h ⊢
        exact h

lemma takeDigits_eq_nil {cs : List Char} {digit? : Char → Option ℕ} :
    takeDigits digit? cs = [] ↔ EndsDigits digit? cs := by
  cases cs with
  | nil => simp [takeDigits, EndsDigits]
  | cons c cs => simp [takeDigits, EndsDigits, List.takeWhile_cons]

lemma splitPower_cons_none {c : Char} {cs : List Char} {digit? : Char → Option ℕ} :
    (splitPower digit? (c :: cs)).1 = none ↔
      ((c = 'e' ∨ c = 'E') → EndsDigits digit? (splitSign cs).2) := by
  rw [← takeDigits_eq_nil]
  unfold splitPower
  dsimp only
  split <;> simp_all

/-- What ended a numeral ends it before a text that goes on with nothing. -/
lemma Stops.parts (h : Stops Text.digitValue? x (b ++ old)) (hp : Parts after) :
    Stops Text.digitValue? x (b ++ after) := by
  refine ⟨EndsDigits.parts h.digits hp, fun hf hpow => ?_, fun hpow => ?_⟩
  · cases b with
    | nil => exact fun c hc hpoint => (hp c hc).marks (by simp [hpoint])
    | cons d b => exact h.point hf hpow
  · match b with
    | [] =>
      cases after with
      | nil => rfl
      | cons c after =>
        -- no letter of a power parts tokens
        have hletter : ¬ (c = 'e' ∨ c = 'E') := by
          have hword := (hp c rfl).word
          rintro (rfl | rfl) <;> revert hword <;> decide +kernel
        exact splitPower_cons_none.mpr fun h => absurd h hletter
    | d :: b =>
      have hold := splitPower_cons_none.mp (h.power hpow)
      exact splitPower_cons_none.mpr fun hletter => endsDigits_splitSign_parts (hold hletter) hp

end Numeral

/-! ### Tokens -/

namespace Token

/-- The token at another place. -/
def moved (t : Token) (pos : ℕ) : Token := { t with pos := pos }

@[simp] lemma bare_moved (t : Token) (pos : ℕ) : (t.moved pos).bare = t.bare := rfl

/-- The token is all that a scan takes from its text and `rest` behind it. -/
inductive Begins (rest : List Char) : Token → Prop
  | number {x : Numeral} (pos : ℕ) (hx : x.WellFormed Text.digitValue?)
      (hrest : x.Stops Text.digitValue? rest) :
      Begins rest ⟨.number ((x.value Text.digitValue?).toDouble false), String.ofList x.text, pos⟩
  | word {c : Char} {cs : List Char} (pos : ℕ) (hb : Text.isBlank c = false)
      (hd : Text.isDigit c = false) (hc : Text.isWordStart c = true)
      (hcs : ∀ d ∈ cs, Text.isWordChar d = true)
      (hrest : ∀ d ∈ rest.head?, Text.isWordChar d = false) :
      Begins rest ⟨.ident, String.ofList (c :: cs), pos⟩
  | mark {c : Char} {k : Kind} (pos : ℕ) (hk : mark? c = some k) :
      Begins rest ⟨k, String.singleton c, pos⟩

variable {t : Token} {c : Char} {pos : ℕ} {cs rest b old after : List Char}

lemma Begins.parts (h : Begins (b ++ old) t) (hp : Parts after) : Begins (b ++ after) t := by
  cases h with
  | number pos hx hrest => exact .number pos hx (hrest.parts hp)
  | word pos hb hd hc hcs hrest =>
    refine .word pos hb hd hc hcs ?_
    cases b with
    | nil => exact fun d hd => (hp d hd).word
    | cons d b => exact hrest
  | mark pos hk => exact .mark pos hk

lemma begins_of_next (hb : Text.isBlank c = false) (h : next pos c cs = .ok (t, rest)) :
    t.text.toList ++ rest = c :: cs ∧ t.pos = pos ∧ Begins rest t := by
  unfold next at h
  split at h
  · split at h
    · rename_i x tail hx
      obtain ⟨rfl, rfl⟩ := Prod.mk.inj (Except.ok.inj h)
      refine ⟨?_, rfl, .number pos (Numeral.wellFormed_of_split? hx) (Numeral.stops_of_split? hx)⟩
      rw [String.toList_ofList]
      exact Numeral.text_append_of_split? hx
    · simp at h
  · rename_i hn
    split at h
    · rename_i hc
      obtain ⟨rfl, rfl⟩ := Prod.mk.inj (Except.ok.inj h)
      have hd : Text.isDigit c = false := by
        by_contra hd
        simp [startsNumber, hd] at hn
      refine ⟨?_, rfl, .word pos hb hd hc (fun d hd => List.mem_takeWhile_imp hd) fun d hd => ?_⟩
      · rw [String.toList_ofList, List.cons_append, List.takeWhile_append_dropWhile]
      · have := List.head?_dropWhile_not Text.isWordChar cs
        simp_all
    · split at h
      · rename_i k hk
        obtain ⟨rfl, rfl⟩ := Prod.mk.inj (Except.ok.inj h)
        exact ⟨by simp, rfl, .mark pos hk⟩
      · simp at h

lemma startsNumber_text {x : Numeral} (hx : x.WellFormed Text.digitValue?) (ht : x.text = c :: cs)
    (rest : List Char) : startsNumber c (cs ++ rest) = true := by
  obtain ⟨hw, hf, hne, -⟩ := hx
  have hdigit : ∀ d, (Text.digitValue? d).isSome → Text.isDigit d = true :=
    fun d hd => Text.isDigit_of_isDecimal hd
  cases hwhole : x.whole with
  | cons d ds =>
    obtain rfl : d = c := by simp_all [Numeral.text]
    simp [startsNumber, hdigit d (hw d (by simp [hwhole]))]
  | nil =>
    -- a point, and then a digit
    cases hfr : x.fraction with
    | none => simp [hwhole, hfr] at hne
    | some ds =>
      cases ds with
      | nil => simp [hwhole, hfr] at hne
      | cons d ds =>
        have htext : '.' = c ∧ d :: (ds ++ Numeral.powerText x.power) = cs := by
          simpa [Numeral.text, Numeral.fractionText, hwhole, hfr] using ht
        obtain ⟨rfl, rfl⟩ := htext
        simp [startsNumber, hdigit d (hf _ hfr d (by simp))]

lemma next_of_begins (h : Begins rest t) :
    ∃ c cs, t.text.toList = c :: cs ∧ Text.isBlank c = false ∧
      ∀ pos, next pos c (cs ++ rest) = .ok (t.moved pos, rest) := by
  cases h with
  | @number x _ hx hrest =>
    obtain ⟨c, cs, htext, hc⟩ := Numeral.head?_text hx
    refine ⟨c, cs, by rw [String.toList_ofList, htext], ?_, fun pos => ?_⟩
    · rcases hc with hc | rfl
      · exact Conversion.isBlank_of_digit hc
      · decide
    · have hsplit := Numeral.split?_text_append hx Numeral.noMarks_digitValue? hrest
      rw [htext, List.cons_append] at hsplit
      rw [next, startsNumber_text hx htext rest, hsplit]
      rfl
  | @word c cs _ hb hd hc hcs hrest =>
    refine ⟨c, cs, String.toList_ofList, hb, fun pos => ?_⟩
    have hpoint : c ≠ '.' := by
      rintro rfl
      revert hc
      decide +kernel
    have hn : startsNumber c (cs ++ rest) = false := by simp [startsNumber, hd, hpoint]
    have hends : rest.takeWhile Text.isWordChar = [] ∧ rest.dropWhile Text.isWordChar = rest := by
      cases rest with
      | nil => simp
      | cons d rest => simp [hrest d rfl]
    rw [next, hn, hc, List.takeWhile_append_of_pos hcs, List.dropWhile_append_of_pos hcs,
      hends.1, hends.2, List.append_nil]
    rfl
  | @mark c k _ hk => exact ⟨c, [], by simp, (classes_of_mark hk).1, fun pos => next_mark hk rest⟩

/-- **A token that begins there is the next one**, at any place. -/
lemma scanFrom_begins (h : Begins rest t) (pos : ℕ) :
    scanFrom pos (t.text.toList ++ rest) =
      (scanFrom (pos + t.text.length) rest).map (t.moved pos :: ·) := by
  obtain ⟨c, cs, htext, hb, hnext⟩ := next_of_begins h
  rw [htext, List.cons_append]
  exact scanFrom_of_next hb (hnext pos)

lemma of_map_cons {x : Except ScanError (List Token)} {ts : List Token}
    (h : x.map (t :: ·) = .ok ts) : ∃ us, x = .ok us ∧ t :: us = ts := by
  cases x with
  | error e => simp [Except.map] at h
  | ok us => exact ⟨us, rfl, Except.ok.inj h⟩

/-- Where a text stands decides nothing but the places of its tokens. -/
lemma scanFrom_moved {ts : List Token} (h : scanFrom pos cs = .ok ts) (pos' : ℕ) :
    ∃ us, scanFrom pos' cs = .ok us ∧ us.map Token.bare = ts.map Token.bare := by
  induction pos, cs using scanFrom.induct generalizing ts pos' with
  | case1 pos => exact ⟨[], by rw [scanFrom], by simp_all [scanFrom]⟩
  | case2 pos c rest hb ih =>
    rw [scanFrom, if_pos hb] at h ⊢
    exact ih h _
  | case3 pos c rest hb e he =>
    rw [scanFrom, if_neg hb] at h
    split at h <;> simp_all
  | case4 pos c rest hb t tail hn _ ih =>
    have hb' : Text.isBlank c = false := by simpa using hb
    obtain ⟨htext, -, hbegins⟩ := begins_of_next hb' hn
    -- where a token begins does not depend on the place
    obtain ⟨us, hus, rfl⟩ := of_map_cons (scanFrom_of_next hb' hn ▸ h)
    obtain ⟨vs, hvs, hbare⟩ := ih hus (pos' + t.text.length)
    refine ⟨t.moved pos' :: vs, ?_, by simp [hbare]⟩
    rw [← htext, scanFrom_begins hbegins, hvs, Except.map]

/-- A scan ends before a token and goes on with it. The tokens before it are scanned as they were
before any text that goes on with none of them. -/
lemma scanFrom_split {pre post : List Token} (h : scanFrom pos cs = .ok (pre ++ t :: post)) :
    ∃ a b, cs = a ++ (t.text.toList ++ b) ∧ t.pos = pos + a.length ∧ Begins b t ∧
      scanFrom (t.pos + t.text.length) b = .ok post ∧
      ∀ after, Parts after →
        scanFrom pos (a ++ after) = (scanFrom (pos + a.length) after).map (pre ++ ·) := by
  induction pos, cs using scanFrom.induct generalizing pre with
  | case1 pos => simp [scanFrom] at h
  | case2 pos c rest hb ih =>
    rw [scanFrom, if_pos hb] at h
    obtain ⟨a, b, rfl, hpos, hbegins, hpost, hafter⟩ := ih h
    refine ⟨c :: a, b, rfl, by simp only [List.length_cons]; omega, hbegins, hpost, ?_⟩
    intro after hp
    rw [List.cons_append, scanFrom, if_pos hb, hafter after hp, List.length_cons,
      Nat.add_assoc, Nat.add_comm 1]
  | case3 pos c rest hb e he =>
    rw [scanFrom, if_neg hb] at h
    split at h <;> simp_all
  | case4 pos c rest hb u tail hn _ ih =>
    have hb' : Text.isBlank c = false := by simpa using hb
    obtain ⟨htext, hplace, hbegins⟩ := begins_of_next hb' hn
    obtain ⟨us, hus, heq⟩ := of_map_cons (scanFrom_of_next hb' hn ▸ h)
    cases pre with
    | nil =>
      -- the token begins here
      obtain ⟨rfl, rfl⟩ := List.cons.inj heq
      refine ⟨[], tail, htext.symm, by simpa using hplace, hbegins, hplace ▸ hus, ?_⟩
      intro after _
      rw [List.nil_append, List.length_nil, Nat.add_zero]
      cases scanFrom pos after <;> rfl
    | cons v pre =>
      obtain ⟨rfl, rfl⟩ := List.cons.inj heq
      -- it comes after this one, which is scanned alike whatever parts it from the next
      obtain ⟨a, b, rfl, hpos, hbegins', hpost, hafter⟩ := ih hus
      have hlen : pos + (u.text.toList ++ a).length = pos + u.text.length + a.length := by
        rw [List.length_append, String.length_toList, Nat.add_assoc]
      refine ⟨u.text.toList ++ a, b, ?_, ?_, hbegins', hpost, ?_⟩
      · rw [← htext, List.append_assoc]
      · rw [hpos, hlen]
      · intro after hp
        have hmoved : u.moved pos = u := by rw [← hplace]; rfl
        rw [List.append_assoc, scanFrom_begins (hbegins.parts hp), hafter after hp, hlen, hmoved]
        cases scanFrom (pos + u.text.length + a.length) after <;> rfl

end Token

end Abacus
