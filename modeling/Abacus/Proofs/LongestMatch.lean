import Mathlib.Data.List.Infix
import Abacus.Proofs.Respelling
import Abacus.Raising.Cursor

/-!
What a scan finds. Its tokens stand in a source in order, each the longest that its rule finds in
its place, with nothing but white space between them; and that determines them. A scan that fails
has done the same up to a place where no token can begin, and there is none but that one.
-/

namespace Abacus

/-! ### Classes of characters -/

lemma Text.Ranges.has_eq_false {rs bs : Text.Ranges} {c : Char}
    (h : ∀ r ∈ rs, ∀ b ∈ bs, r.2 < b.1 ∨ b.2 < r.1) (hc : rs.has c = true) : bs.has c = false := by
  obtain ⟨r, hr, hlow, hhigh⟩ := Text.Ranges.has_iff.mp hc
  rw [← Bool.not_eq_true, Text.Ranges.has_iff]
  rintro ⟨b, hb, hlow', hhigh'⟩
  have := h r hr b hb
  omega

namespace Text

variable {c : Char}

lemma isBlank_of_isWordChar (h : isWordChar c = true) : isBlank c = false := by
  rw [isWordChar, Bool.or_eq_true, beq_iff_eq] at h
  rcases h with rfl | h
  · decide
  · exact Ranges.has_eq_false (by decide +kernel) h

lemma isBlank_of_isDigit (h : isDigit c = true) : isBlank c = false := by
  rw [isDigit, Bool.or_eq_true] at h
  rcases h with h | h
  · exact Conversion.isBlank_of_digit h
  · exact Ranges.has_eq_false (by decide +kernel) h

end Text

/-! ### Longest numerals -/

namespace Numeral

variable {digit? : Char → Option ℕ} {x : Numeral} {c : Char} {cs ds rest : List Char}

/-- One more digit at the end. -/
def push (x : Numeral) (c : Char) : Numeral :=
  match x.power, x.fraction with
  | some p, _ => { x with power := some { p with digits := p.digits ++ [c] } }
  | none, some ds => { x with fraction := some (ds ++ [c]) }
  | none, none => { x with whole := x.whole ++ [c] }

lemma text_push (x : Numeral) (c : Char) : (x.push c).text = x.text ++ [c] := by
  obtain ⟨whole, fraction, power⟩ := x
  cases power <;> cases fraction <;> simp [push, text, fractionText, powerText]

lemma allDigits_concat (hd : AllDigits digit? ds) (hc : (digit? c).isSome) :
    AllDigits digit? (ds ++ [c]) :=
  List.forall_mem_append.mpr ⟨hd, List.forall_mem_singleton.mpr hc⟩

lemma wellFormed_push (hx : x.WellFormed digit?) (hc : (digit? c).isSome) :
    (x.push c).WellFormed digit? := by
  obtain ⟨whole, fraction, power⟩ := x
  obtain ⟨hw, hf, hne, hp⟩ := hx
  match power, fraction with
  | some p, _ =>
    obtain ⟨hl, hs, hd, -⟩ := hp p rfl
    refine ⟨hw, hf, hne, fun p' hp' => ?_⟩
    obtain rfl := Option.some.inj hp'
    exact ⟨hl, hs, allDigits_concat hd hc, by simp⟩
  | none, some ds =>
    refine ⟨hw, fun ds' hds => ?_, by simp [push], hp⟩
    obtain rfl := Option.some.inj hds
    exact allDigits_concat (hf ds rfl) hc
  | none, none => exact ⟨allDigits_concat hw hc, hf, by simp [push], hp⟩

/-- The text goes on with a longer numeral than `x`. -/
def Continues (digit? : Char → Option ℕ) (x : Numeral) (rest : List Char) : Prop :=
  ∃ y : Numeral, y.WellFormed digit? ∧ x.text.length < y.text.length ∧ y.text <+: x.text ++ rest

lemma continues_digit (hx : x.WellFormed digit?) (hc : (digit? c).isSome) :
    Continues digit? x (c :: rest) :=
  ⟨x.push c, wellFormed_push hx hc, by simp [text_push], rest, by simp [text_push]⟩

lemma continues_point (hx : x.WellFormed digit?) (hf : x.fraction = none) (hp : x.power = none) :
    Continues digit? x ('.' :: rest) := by
  have htext : ({ x with fraction := some [] } : Numeral).text = x.text ++ ['.'] := by
    simp [text, fractionText, powerText, hf, hp]
  refine ⟨{ x with fraction := some [] }, ⟨hx.whole, ?_, ?_, hx.power⟩, by simp [htext],
    rest, by simp [htext]⟩
  · rintro ds hds
    obtain rfl := Option.some.inj hds
    simp [AllDigits]
  · simpa [hf] using hx.ne_nil

lemma continues_power {p : Power} (hx : x.WellFormed digit?) (hnone : x.power = none)
    (hp : (splitPower digit? rest).1 = some p) : Continues digit? x rest := by
  have happend := @splitPower_append digit? rest
  have htext : ({ x with power := some p } : Numeral).text = x.text ++ powerText (some p) := by
    simp [text, hnone, powerText]
  refine ⟨{ x with power := some p }, ⟨hx.whole, hx.fraction, hx.ne_nil, fun p' hp' => ?_⟩, ?_, ?_⟩
  · exact wellFormed_of_splitPower rest p' (hp.trans hp')
  · simp [htext, powerText]
  · rw [hp] at happend
    rw [htext, ← happend, ← List.append_assoc]
    exact List.prefix_append _ _

/-- What does not stop a numeral is the beginning of a longer one. -/
lemma continues_of_not_stops (hx : x.WellFormed digit?) (h : ¬ x.Stops digit? rest) :
    Continues digit? x rest := by
  by_contra hnot
  refine h ⟨fun c hc => ?_, fun hf hp c hc hpoint => ?_, fun hnone => ?_⟩
  · by_contra hsome
    rw [List.eq_cons_of_mem_head? hc] at hnot
    exact hnot (continues_digit hx (Option.isSome_iff_ne_none.mpr hsome))
  · rw [List.eq_cons_of_mem_head? hc, hpoint] at hnot
    exact hnot (continues_point hx hf hp)
  · by_contra hsome
    obtain ⟨p, hp⟩ := Option.ne_none_iff_exists'.mp hsome
    exact hnot (continues_power hx hnone hp)

/-- No numeral goes on where one stops. A numeral that reaches less far than the text allows is made
longer until it stops as well; and then it is the same one, as a text is split in one way only. -/
lemma Stops.longest (hm : NoMarks digit?) (hx : x.WellFormed digit?) (hs : x.Stops digit? rest)
    {y : Numeral} (hy : y.WellFormed digit?) (h : y.text <+: x.text ++ rest) :
    y.text.length ≤ x.text.length := by
  obtain ⟨rest', hrest⟩ := h
  by_cases hs' : y.Stops digit? rest'
  · have hsplit := split?_text_append hx hm hs
    rw [← hrest, split?_text_append hy hm hs'] at hsplit
    obtain ⟨rfl, -⟩ := Prod.mk.inj (Option.some.inj hsplit)
    exact le_rfl
  · obtain ⟨z, hz, hlen, hprefix⟩ := continues_of_not_stops hy hs'
    rw [hrest] at hprefix
    have hshort := hprefix.length_le
    exact hlen.le.trans (Stops.longest hm hx hs hz hprefix)
termination_by x.text.length + rest.length - y.text.length
decreasing_by
  rw [List.length_append] at hshort
  omega

lemma split?_eq_none_iff : split? digit? cs = none ↔ takeDigits digit? cs = [] ∧
    (splitFraction digit? (dropDigits digit? cs)).1.getD [] = [] := by
  unfold split?
  dsimp only
  split <;> simp_all

/-- No numeral begins the text if no digit does, and none behind a point at its beginning. -/
lemma split?_eq_none :
    split? digit? (c :: cs) = none ↔ digit? c = none ∧ (c = '.' → EndsDigits digit? cs) := by
  have hends : EndsDigits digit? (c :: cs) ↔ digit? c = none := by simp [EndsDigits]
  rw [split?_eq_none_iff, takeDigits_eq_nil, hends]
  refine and_congr_right fun hc => ?_
  have hdrop : dropDigits digit? (c :: cs) = c :: cs := by simp [dropDigits, hc]
  rw [hdrop]
  by_cases hpoint : c = '.'
  · simp [hpoint, splitFraction, takeDigits_eq_nil]
  · have hnone : splitFraction digit? (c :: cs) = (none, c :: cs) := by
      unfold splitFraction
      split <;> simp_all
    simp [hpoint, hnone]

end Numeral

namespace Proofs.LongestMatch

open Numeral Token

variable {S cs mid old after rest : List Char} {t : Token} {ts : List Token} {c : Char}
  {k : Kind} {fault : Fault} {pos p q : ℕ}

/-! ### The rules -/

/-- How the tokens of a kind are spelled. -/
inductive Spelling : Kind → List Char → Prop
  | number (v : Double) {x : Numeral} (hx : x.WellFormed Text.digitValue?) :
      Spelling (.number v) x.text
  | word {c : Char} {cs : List Char} (hc : Text.isWordStart c = true)
      (hcs : ∀ d ∈ cs, Text.isWordChar d = true) : Spelling .ident (c :: cs)
  | mark {c : Char} {k : Kind} (hk : mark? c = some k) : Spelling k [c]

/-- No token can begin with the text, and what is said of it. A digit that is no decimal is among
the characters of words, but numbers come first, and so no word begins with it. -/
inductive NoToken : List Char → Fault → Prop
  | digit {c : Char} {cs : List Char} (hd : Text.isDigit c = true)
      (hn : Text.isDecimal c = false) : NoToken (c :: cs) (.malformedNumber c)
  | pointDigit {d : Char} {cs : List Char} (hd : Text.isDigit d = true)
      (hn : Text.isDecimal d = false) : NoToken ('.' :: d :: cs) (.malformedNumber '.')
  | point {cs : List Char} (hcs : ∀ d ∈ cs.head?, Text.isDigit d = false) :
      NoToken ('.' :: cs) (.unexpectedCharacter '.')
  | other {c : Char} {cs : List Char} (hd : Text.isDigit c = false) (hp : c ≠ '.')
      (hb : Text.isBlank c = false) (hw : Text.isWordStart c = false) (hk : mark? c = none) :
      NoToken (c :: cs) (.unexpectedCharacter c)

/-- The token is the longest of its kind with which the text begins, has the number that its
spelling means, and stands where a token can begin. -/
structure Longest (cs : List Char) (t : Token) : Prop where
  spelled : Spelling t.kind t.text.toList
  begins : t.text.toList <+: cs
  longest : ∀ other, Spelling t.kind other → other <+: cs → other.length ≤ t.text.length
  value : ∀ v, t.kind = .number v → convertNumber? t.text = some v
  possible : ∀ fault, ¬ NoToken cs fault

/-- The tokens are those of the source from one place to another: each is the longest in its place,
they are in order and apart from each other, and all that is outside of them is white space. -/
structure Covers (S : List Char) (p q : ℕ) (ts : List Token) : Prop where
  inside : ∀ t ∈ ts, p ≤ t.pos ∧ t.pos + t.text.length ≤ q
  ordered : ts.Pairwise fun t u => t.pos + t.text.length ≤ u.pos
  longest : ∀ t ∈ ts, Longest (S.drop t.pos) t
  blank : ∀ i, p ≤ i → i < q → (∀ t ∈ ts, ¬ (t.pos ≤ i ∧ i < t.pos + t.text.length)) →
    ∃ c, S[i]? = some c ∧ Text.isBlank c = true

/-- What the grammar reads, with the places that it knows: the tokens, and nothing for the end. -/
def places (g : Grammar) (ts : List Token) : List (Option Token × ℕ) :=
  (Cursor.tapeOf ts).map fun t => (t, g.placeOf t.toList)

/-! ### Where no token can begin -/

lemma isDecimal_eq_false : Text.isDecimal c = false ↔ Text.digitValue? c = none := by
  simp [Text.isDecimal]

lemma next_noToken (h : NoToken (c :: cs) fault) (pos : ℕ) :
    Text.isBlank c = false ∧ next pos c cs = .error ⟨fault, pos⟩ := by
  cases h with
  | digit hd hn =>
    have hpoint : c ≠ '.' := by
      rintro rfl
      revert hd
      decide +kernel
    have hsplit : split? Text.digitValue? (c :: cs) = none :=
      split?_eq_none.mpr ⟨isDecimal_eq_false.mp hn, fun h => absurd h hpoint⟩
    refine ⟨Text.isBlank_of_isDigit hd, ?_⟩
    simp [next, startsNumber, hd, hsplit]
  | @pointDigit d cs hd hn =>
    have hsplit : split? Text.digitValue? ('.' :: d :: cs) = none :=
      split?_eq_none.mpr ⟨noMarks_digitValue?.mark '.' (by simp), fun _ => by
        simpa [EndsDigits] using isDecimal_eq_false.mp hn⟩
    refine ⟨by decide, ?_⟩
    simp [next, startsNumber, hd, hsplit]
  | point hcs =>
    have hdot : Text.isDigit '.' = false ∧ Text.isWordStart '.' = false ∧ mark? '.' = none := by
      decide +kernel
    obtain ⟨hd, hw, hk⟩ := hdot
    have hn : startsNumber '.' cs = false := by
      cases cs with
      | nil => simp [startsNumber, hd]
      | cons d cs => simp [startsNumber, hd, hcs d rfl]
    refine ⟨by decide, ?_⟩
    simp [next, hn, hw, hk]
  | other hd hp hb hw hk =>
    refine ⟨hb, ?_⟩
    simp [next, startsNumber, hd, hp, hw, hk]

lemma noToken_of_split? (hn : startsNumber c cs = true)
    (hs : split? Text.digitValue? (c :: cs) = none) : NoToken (c :: cs) (.malformedNumber c) := by
  obtain ⟨hc, hcs⟩ := split?_eq_none.mp hs
  by_cases hd : Text.isDigit c = true
  · exact .digit hd (isDecimal_eq_false.mpr hc)
  · obtain ⟨rfl, hany⟩ : c = '.' ∧ cs.head?.any Text.isDigit = true := by
      simpa [startsNumber, hd] using hn
    cases cs with
    | nil => simp at hany
    | cons d cs => exact .pointDigit (by simpa using hany) (isDecimal_eq_false.mpr (hcs rfl d rfl))

lemma noToken_of_mark? (hb : Text.isBlank c = false) (hn : startsNumber c cs = false)
    (hw : Text.isWordStart c = false) (hk : mark? c = none) :
    NoToken (c :: cs) (.unexpectedCharacter c) := by
  simp only [startsNumber, Bool.or_eq_false_iff, Bool.and_eq_false_imp, beq_iff_eq] at hn
  by_cases hp : c = '.'
  · subst hp
    refine .point fun d hd => ?_
    simpa [show cs.head? = some d from hd] using hn.2 rfl
  · exact .other hn.1 hp hb hw hk

lemma noToken_next (hb : Text.isBlank c = false) (h : next pos c cs = .error ⟨fault, p⟩) :
    NoToken (c :: cs) fault ∧ p = pos := by
  unfold next at h
  split at h
  · rename_i hn
    split at h
    · simp at h
    · rename_i hs
      obtain ⟨rfl, rfl⟩ := ScanError.mk.inj (Except.error.inj h)
      exact ⟨noToken_of_split? hn hs, rfl⟩
  · rename_i hn
    split at h
    · simp at h
    · rename_i hw
      split at h
      · simp at h
      · rename_i hk
        obtain ⟨rfl, rfl⟩ := ScanError.mk.inj (Except.error.inj h)
        exact ⟨noToken_of_mark? hb (by simpa using hn) (by simpa using hw) hk, rfl⟩

/-! ### A token that begins somewhere is the longest there -/

lemma Spelling.ne_nil (h : Spelling k cs) : cs ≠ [] := by
  cases h with
  | number v hx =>
    obtain ⟨c, cs, htext, -⟩ := head?_text hx
    simp [htext]
  | word => simp
  | mark => simp

lemma longest_word {ds : List Char} (hrest : ∀ d ∈ rest.head?, Text.isWordChar d = false)
    (hds : ∀ d ∈ ds, Text.isWordChar d = true) (h : ds <+: cs ++ rest) : ds.length ≤ cs.length := by
  by_contra hlen
  obtain ⟨es, rfl⟩ := List.prefix_of_prefix_length_le (List.prefix_append cs rest) h (by omega)
  cases es with
  | nil => simp at hlen
  | cons e es =>
    obtain ⟨after, rfl⟩ := (List.prefix_append_right_inj cs).mp h
    have := hrest e rfl
    have := hds e (by simp)
    simp_all

lemma not_noToken_of_begins (h : Begins rest t) (fault : Fault) :
    ¬ NoToken (t.text.toList ++ rest) fault := by
  obtain ⟨c, cs, htext, -, hnext⟩ := next_of_begins h
  rw [htext, List.cons_append]
  intro hno
  have herror := (next_noToken hno 0).2
  rw [hnext] at herror
  cases herror

lemma longest_of_begins (h : Begins rest t) : Longest (t.text.toList ++ rest) t := by
  suffices hrule : Spelling t.kind t.text.toList ∧
      (∀ other, Spelling t.kind other → other <+: t.text.toList ++ rest →
        other.length ≤ t.text.toList.length) ∧
      ∀ v, t.kind = .number v → convertNumber? t.text = some v from
    ⟨hrule.1, List.prefix_append _ _, fun other ho hp =>
      (hrule.2.1 other ho hp).trans String.length_toList.le, hrule.2.2, not_noToken_of_begins h⟩
  cases h with
  | @number x pos hx hrest =>
    rw [String.toList_ofList]
    refine ⟨.number _ hx, fun other ho hp => ?_, fun v hv => ?_⟩
    · -- only a numeral is spelled like a number, and it is no longer than this one
      cases ho with
      | number _ hy => exact hrest.longest noMarks_digitValue? hx hy hp
      | mark hk => exact absurd rfl ((ne_of_mark hk).2 _)
    · obtain rfl := Kind.number.inj hv
      exact Conversion.convertNumber?_text hx
  | @word c cs pos hb hd hc hcs hrest =>
    rw [String.toList_ofList]
    refine ⟨.word hc hcs, fun other ho hp => ?_, fun v hv => by cases hv⟩
    cases ho with
    | word _ hds =>
      rw [List.cons_append, List.cons_prefix_cons] at hp
      exact Nat.succ_le_succ (longest_word hrest hds hp.2)
    | mark hk => exact absurd rfl (ne_of_mark hk).1
  | @mark c k pos hk =>
    rw [String.toList_singleton]
    refine ⟨.mark hk, fun other ho _ => ?_, fun v hv => absurd hv ((ne_of_mark hk).2 v)⟩
    cases ho with
    | number v => exact absurd rfl ((ne_of_mark hk).2 v)
    | word => exact absurd rfl (ne_of_mark hk).1
    | mark => exact le_rfl

lemma begins_of_longest (h : Longest (t.text.toList ++ rest) t) : Begins rest t := by
  obtain ⟨kind, text, pos⟩ := t
  obtain ⟨cs, rfl⟩ : ∃ cs, text = String.ofList cs := ⟨text.toList, String.ofList_toList.symm⟩
  obtain ⟨hspelled, -, hlongest, hvalue, hpossible⟩ := h
  simp only [String.toList_ofList, String.length_ofList] at hspelled hlongest hvalue hpossible
  cases hspelled with
  | @number v x hx =>
    obtain rfl : (x.value Text.digitValue?).toDouble false = v :=
      Option.some.inj ((Conversion.convertNumber?_text hx).symm.trans (hvalue v rfl))
    -- a numeral that does not stop here goes on to a longer one
    refine .number pos hx (by_contra fun hstops => ?_)
    obtain ⟨y, hy, hlen, hprefix⟩ := continues_of_not_stops hx hstops
    have := hlongest _ (.number _ hy) hprefix
    omega
  | @word c cs hc hcs =>
    have hchar := Text.isWordChar_of_isWordStart hc
    have hdigit : Text.isDigit c = false := by
      by_contra hd
      refine hpossible _ (.digit (by simpa using hd) ?_)
      simp only [Text.isWordStart, Bool.and_eq_true] at hc
      simpa using hc.2
    refine .word pos (Text.isBlank_of_isWordChar hchar) hdigit hc hcs fun d hd => ?_
    by_contra hword
    obtain ⟨rest, rfl⟩ : ∃ r, rest = d :: r := ⟨rest.tail, List.eq_cons_of_mem_head? hd⟩
    have hchars : ∀ e ∈ cs ++ [d], Text.isWordChar e = true :=
      List.forall_mem_append.mpr ⟨hcs, List.forall_mem_singleton.mpr (by simpa using hword)⟩
    -- with the next character it would be a longer name
    have hlonger : Spelling .ident (c :: (cs ++ [d])) := .word hc hchars
    have := hlongest _ hlonger ⟨rest, by simp⟩
    simp at this
  | mark hk => exact .mark pos hk

/-! ### What a scan has taken -/

/-- From `pos` on, a scan takes the tokens and the white space between them, with `old` behind. -/
inductive Run (old : List Char) : ℕ → List Char → List Token → Prop
  | nil (pos : ℕ) : Run old pos [] []
  | blank {pos : ℕ} {c : Char} {mid : List Char} {ts : List Token} (hb : Text.isBlank c = true)
      (h : Run old (pos + 1) mid ts) : Run old pos (c :: mid) ts
  | token {t : Token} {mid : List Char} {ts : List Token} (ht : Begins (mid ++ old) t)
      (h : Run old (t.pos + t.text.length) mid ts) : Run old t.pos (t.text.toList ++ mid) (t :: ts)

/-- What a scan has taken it takes again before every text that ends the last token as well. -/
lemma Run.scanFrom (h : Run old pos mid ts)
    (hafter : ∀ b t, Begins (b ++ old) t → Begins (b ++ after) t) :
    scanFrom pos (mid ++ after) = (scanFrom (pos + mid.length) after).map (ts ++ ·) := by
  induction h with
  | nil pos =>
    rw [List.nil_append, List.length_nil, Nat.add_zero]
    cases Token.scanFrom pos after <;> rfl
  | @blank pos c mid ts hb _ ih =>
    rw [List.cons_append, Token.scanFrom, if_pos hb, ih, List.length_cons, Nat.add_assoc,
      Nat.add_comm 1]
  | @token t mid ts ht _ ih =>
    have hmoved : t.moved t.pos = t := rfl
    rw [List.append_assoc, scanFrom_begins (hafter _ _ ht), ih, hmoved, List.length_append,
      String.length_toList, Nat.add_assoc]
    cases Token.scanFrom (t.pos + (t.text.length + mid.length)) after <;> rfl

lemma scanFrom_noToken (h : NoToken cs fault) (pos : ℕ) :
    scanFrom pos cs = .error ⟨fault, pos⟩ := by
  obtain ⟨c, cs, rfl⟩ : ∃ c cs', cs = c :: cs' := by cases h <;> exact ⟨_, _, rfl⟩
  obtain ⟨hb, hnext⟩ := next_noToken h pos
  rw [scanFrom, if_neg (by simp [hb])]
  split <;> simp_all

/-- A scan takes all of a text, or it stops where no token can begin. -/
lemma exists_run (pos : ℕ) (cs : List Char) : ∃ mid old ts, mid ++ old = cs ∧ Run old pos mid ts ∧
    (old = [] ∧ scanFrom pos cs = .ok ts ∨
      ∃ fault, NoToken old fault ∧ scanFrom pos cs = .error ⟨fault, pos + mid.length⟩) := by
  induction pos, cs using scanFrom.induct with
  | case1 pos => exact ⟨[], [], [], rfl, .nil pos, .inl ⟨rfl, by rw [scanFrom]⟩⟩
  | case2 pos c rest hb ih =>
    obtain ⟨mid, old, ts, rfl, hrun, hend⟩ := ih
    refine ⟨c :: mid, old, ts, rfl, .blank hb hrun, ?_⟩
    rw [scanFrom, if_pos hb, List.length_cons, Nat.add_comm mid.length, ← Nat.add_assoc]
    exact hend
  | case3 pos c rest hb e he =>
    obtain ⟨fault, p⟩ := e
    obtain ⟨hno, rfl⟩ := noToken_next (by simpa using hb) he
    exact ⟨[], c :: rest, [], rfl, .nil _, .inr ⟨fault, hno, scanFrom_noToken hno _⟩⟩
  | case4 pos c rest hb t tail hn _ ih =>
    obtain ⟨htext, rfl, hbegins⟩ := begins_of_next (by simpa using hb) hn
    obtain ⟨mid, old, ts, rfl, hrun, hend⟩ := ih
    refine ⟨t.text.toList ++ mid, old, t :: ts, by rw [← htext, List.append_assoc],
      .token hbegins hrun, ?_⟩
    rw [scanFrom_of_next (by simpa using hb) hn, List.length_append, String.length_toList,
      ← Nat.add_assoc]
    rcases hend with ⟨hold, hok⟩ | ⟨fault, hno, herror⟩
    · exact .inl ⟨hold, by rw [hok]; rfl⟩
    · exact .inr ⟨fault, hno, by rw [herror]; rfl⟩

/-! ### What the tokens cover -/

lemma Covers.nil (S : List Char) (q : ℕ) : Covers S q q [] := by
  refine ⟨by simp, .nil, by simp, fun i hp hq _ => ?_⟩
  omega

lemma Covers.cons_blank (h : Covers S (p + 1) q ts) (hc : S[p]? = some c)
    (hb : Text.isBlank c = true) : Covers S p q ts := by
  refine ⟨fun t ht => ?_, h.ordered, h.longest, fun i hp hq hout => ?_⟩
  · have := h.inside t ht
    omega
  · rcases hp.eq_or_lt with rfl | hp
    · exact ⟨c, hc, hb⟩
    · exact h.blank i hp hq hout

lemma Covers.cons_token (h : Covers S (t.pos + t.text.length) q ts)
    (hq : t.pos + t.text.length ≤ q) (ht : Longest (S.drop t.pos) t) :
    Covers S t.pos q (t :: ts) := by
  refine ⟨List.forall_mem_cons.mpr ⟨⟨le_rfl, hq⟩, fun u hu => ?_⟩,
    List.pairwise_cons.mpr ⟨fun u hu => (h.inside u hu).1, h.ordered⟩,
    List.forall_mem_cons.mpr ⟨ht, h.longest⟩, fun i hp hq' hout => ?_⟩
  · have := h.inside u hu
    omega
  · obtain ⟨hout, hrest⟩ := List.forall_mem_cons.mp hout
    exact h.blank i (by omega) hq' hrest

lemma Run.covers (h : Run (S.drop q) p mid ts) (hS : S.drop p = mid ++ S.drop q)
    (hq : p + mid.length = q) : Covers S p q ts := by
  induction h with
  | nil p =>
    obtain rfl : p = q := hq
    exact .nil S p
  | @blank p c mid ts hb _ ih =>
    have hc : S[p]? = some c := by
      rw [← List.head?_drop, hS]
      rfl
    have hdrop : S.drop (p + 1) = mid ++ S.drop q := by
      rw [← List.tail_drop, hS]
      rfl
    rw [List.length_cons] at hq
    exact (ih hdrop (by omega)).cons_blank hc hb
  | @token t mid ts ht _ ih =>
    have hdrop : S.drop (t.pos + t.text.length) = mid ++ S.drop q := by
      rw [← List.drop_drop, hS, List.append_assoc, ← String.length_toList, List.drop_left]
    rw [List.length_append, String.length_toList] at hq
    refine (ih hdrop (by omega)).cons_token (by omega) ?_
    rw [hS, List.append_assoc]
    exact longest_of_begins ht

lemma Longest.length_pos (h : Longest cs t) : 0 < t.text.length := by
  rw [← String.length_toList]
  exact List.length_pos_iff.mpr h.spelled.ne_nil

lemma Covers.eq_nil (h : Covers S q q ts) : ts = [] := by
  refine List.eq_nil_iff_forall_not_mem.mpr fun t ht => ?_
  have hlen := (h.longest t ht).length_pos
  have := h.inside t ht
  omega

lemma Covers.tail (h : Covers S p q (t :: ts)) : Covers S (t.pos + t.text.length) q ts := by
  obtain ⟨hfirst, hordered⟩ := List.pairwise_cons.mp h.ordered
  refine ⟨fun u hu => ⟨hfirst u hu, (h.inside u (List.mem_cons_of_mem _ hu)).2⟩, hordered,
    fun u hu => h.longest u (List.mem_cons_of_mem _ hu), fun i hp hq hout => ?_⟩
  have := h.inside t (by simp)
  refine h.blank i (by omega) hq (List.forall_mem_cons.mpr ⟨?_, hout⟩)
  omega

lemma Covers.succ (h : Covers S p q ts) (hafter : ∀ t ∈ ts, p < t.pos) : Covers S (p + 1) q ts :=
  ⟨fun t ht => ⟨hafter t ht, (h.inside t ht).2⟩, h.ordered, h.longest,
    fun i hp hq hout => h.blank i (by omega) hq hout⟩

/-- All tokens stand behind a place where the first one does not stand. -/
lemma Covers.lt_pos (h : Covers S p q ts) (hfirst : ∀ t ∈ ts.head?, t.pos ≠ p) :
    ∀ t ∈ ts, p < t.pos := by
  cases ts with
  | nil => simp
  | cons t ts =>
    have ht := (h.inside t (by simp)).1
    have hne : t.pos ≠ p := hfirst t rfl
    refine List.forall_mem_cons.mpr ⟨by omega, fun u hu => ?_⟩
    have := (List.pairwise_cons.mp h.ordered).1 u hu
    omega

/-- The induction is on the number of characters that are covered: the first one is white space or
begins the first token. -/
lemma Covers.run (h : Covers S p q ts) (hpq : p ≤ q) (hq : q ≤ S.length) :
    ∃ mid, S.drop p = mid ++ S.drop q ∧ Run (S.drop q) p mid ts := by
  obtain ⟨n, hn⟩ : ∃ n, q - p = n := ⟨_, rfl⟩
  induction n using Nat.strong_induction_on generalizing p ts with
  | _ n ih =>
  obtain rfl | hlt := hpq.eq_or_lt
  · obtain rfl := h.eq_nil
    exact ⟨[], rfl, .nil p⟩
  · by_cases hfirst : ∀ t ∈ ts.head?, t.pos ≠ p
    · -- white space
      have hafter := h.lt_pos hfirst
      obtain ⟨c, hc, hb⟩ := h.blank p le_rfl hlt fun t ht => by
        have := hafter t ht
        omega
      obtain ⟨mid, hdrop, hrun⟩ := ih (q - (p + 1)) (by omega) (h.succ hafter) hlt rfl
      refine ⟨c :: mid, ?_, .blank hb hrun⟩
      have hget := List.getElem?_eq_some_iff.mp hc
      rw [List.drop_eq_getElem_cons hget.1, hget.2, hdrop, List.cons_append]
    · -- the first token
      push Not at hfirst
      obtain ⟨t, ht, rfl⟩ := hfirst
      obtain ⟨us, rfl⟩ : ∃ us, ts = t :: us := ⟨ts.tail, List.eq_cons_of_mem_head? ht⟩
      have hlongest := h.longest t (by simp)
      have hpos := hlongest.length_pos
      have hend := (h.inside t (by simp)).2
      obtain ⟨mid, hdrop, hrun⟩ := ih (q - (t.pos + t.text.length)) (by omega) h.tail hend rfl
      have hslice : S.drop t.pos = t.text.toList ++ (mid ++ S.drop q) := by
        obtain ⟨after, hafter⟩ := hlongest.begins
        rw [← hdrop, ← List.drop_drop, ← hafter, ← String.length_toList, List.drop_left]
      refine ⟨t.text.toList ++ mid, by rw [hslice, List.append_assoc], .token ?_ hrun⟩
      rw [hslice] at hlongest
      exact begins_of_longest hlongest

/-- The tokens that cover a text up to some place are those that a scan takes up to there. -/
lemma covers_iff (hpq : p ≤ q) (hq : q ≤ S.length) :
    Covers S p q ts ↔ ∃ mid, S.drop p = mid ++ S.drop q ∧ Run (S.drop q) p mid ts := by
  refine ⟨fun h => h.run hpq hq, ?_⟩
  rintro ⟨mid, hdrop, hrun⟩
  refine hrun.covers hdrop ?_
  have := congrArg List.length hdrop
  simp only [List.length_drop, List.length_append] at this
  omega

/-- A scan goes on behind the tokens that cover a beginning, and the beginning alone has them. -/
lemma Covers.scanFrom (h : Covers S 0 q ts) (hq : q ≤ S.length) :
    scanFrom 0 S = (Token.scanFrom q (S.drop q)).map (ts ++ ·) ∧
      Token.scanFrom 0 (S.take q) = .ok ts := by
  obtain ⟨mid, hdrop, hrun⟩ := (covers_iff (Nat.zero_le q) hq).mp h
  rw [List.drop_zero] at hdrop
  have hlen : mid.length = q := by
    have := congrArg List.length hdrop
    simp only [List.length_append, List.length_drop] at this
    omega
  have htake : S.take q = mid := by rw [hdrop, ← hlen, List.take_left]
  constructor
  · have hscan := hrun.scanFrom fun _ _ hb => hb
    rwa [← hdrop, hlen, Nat.zero_add] at hscan
  · have hscan : Token.scanFrom 0 (mid ++ []) =
        (Token.scanFrom (0 + mid.length) []).map (ts ++ ·) :=
      hrun.scanFrom fun _ _ hb => hb.parts parts_nil
    rw [htake]
    rwa [List.append_nil, Token.scanFrom, Except.map, List.append_nil] at hscan

/-- Tokens cover all of a text, or what is before the first place where none can begin. -/
lemma exists_covers (S : List Char) : ∃ q ts, q ≤ S.length ∧ Covers S 0 q ts ∧
    (q = S.length ∧ scanFrom 0 S = .ok ts ∨
      ∃ fault, NoToken (S.drop q) fault ∧ scanFrom 0 S = .error ⟨fault, q⟩) := by
  obtain ⟨mid, old, ts, rfl, hrun, hend⟩ := exists_run 0 S
  have hlen : mid.length ≤ (mid ++ old).length := by simp
  have hdrop : (mid ++ old).drop mid.length = old := List.drop_left
  refine ⟨mid.length, ts, hlen, (covers_iff (Nat.zero_le _) hlen).mpr ⟨mid, ?_, ?_⟩, ?_⟩
  · rw [hdrop, List.drop_zero]
  · rwa [hdrop]
  · rw [hdrop]
    rcases hend with ⟨rfl, hok⟩ | ⟨fault, hno, herror⟩
    · exact .inl ⟨by simp, hok⟩
    · exact .inr ⟨fault, hno, by rwa [Nat.zero_add] at herror⟩

lemma NoToken.lt_length (h : NoToken (S.drop q) fault) : q < S.length := by
  by_contra hle
  rw [List.drop_eq_nil_of_le (by omega)] at h
  cases h

/-! ### Scans -/

lemma scan_eq_ok_iff (source : String) :
    scan source = .ok ts ↔ Covers source.toList 0 source.length ts := by
  rw [← String.length_toList]
  constructor
  · intro h
    obtain ⟨q, us, -, hcovers, ⟨rfl, hok⟩ | ⟨fault, -, herror⟩⟩ := exists_covers source.toList
    · obtain rfl := Except.ok.inj (hok.symm.trans h)
      exact hcovers
    · exact absurd (herror.symm.trans h) (by simp)
  · intro h
    have hscan := (h.scanFrom le_rfl).2
    rwa [List.take_length] at hscan

lemma scan_eq_error_iff (source : String) :
    scan source = .error ⟨fault, pos⟩ ↔ ∃ ts, Covers source.toList 0 pos ts ∧
      scan (String.ofList (source.toList.take pos)) = .ok ts ∧
      NoToken (source.toList.drop pos) fault := by
  simp only [scan, String.toList_ofList]
  constructor
  · intro h
    obtain ⟨q, us, hq, hcovers, ⟨-, hok⟩ | ⟨fault', hno, herror⟩⟩ := exists_covers source.toList
    · exact absurd (hok.symm.trans h) (by simp)
    · obtain ⟨rfl, rfl⟩ := ScanError.mk.inj (Except.error.inj (herror.symm.trans h))
      exact ⟨us, hcovers, (hcovers.scanFrom hq).2, hno⟩
  · rintro ⟨us, hcovers, -, hno⟩
    rw [(hcovers.scanFrom hno.lt_length.le).1, scanFrom_noToken hno]
    rfl

lemma places_eq (implied : Bool) (limit : ℕ) (ts : List Token) :
    places ⟨implied, limit⟩ ts = ts.map (fun t => (some t, t.pos)) ++ [(none, limit)] := by
  simp [places, Cursor.tapeOf, Grammar.placeOf]

/-- **A scan finds the longest tokens and loses nothing.** The tokens of a source are those that
cover it, each the longest in its place and white space outside of them, and the end that the
grammar reads after them is at the end of the source. A scan fails at a place if, and only if, it
has tokens up to there and no token can begin there. -/
theorem scan_iff_covers (source : String) :
    (∀ ts, scan source = .ok ts ↔ Covers source.toList 0 source.length ts) ∧
    (∀ fault pos, scan source = .error ⟨fault, pos⟩ ↔
      ∃ ts, Covers source.toList 0 pos ts ∧
        scan (String.ofList (source.toList.take pos)) = .ok ts ∧
        NoToken (source.toList.drop pos) fault) ∧
    ∀ implied ts, places ⟨implied, source.length⟩ ts =
      ts.map (fun t => (some t, t.pos)) ++ [(none, source.length)] :=
  ⟨fun _ => scan_eq_ok_iff source, fun _ _ => scan_eq_error_iff source,
    fun implied => places_eq implied source.length⟩

/-- A word goes on with a superscript, a number does not. -/
example : (scan "a²").isOk ∧ scan "2²" = .error ⟨.malformedNumber '²', 1⟩ := by decide +kernel

end Proofs.LongestMatch

end Abacus
