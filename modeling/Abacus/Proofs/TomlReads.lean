import Abacus.Toml.Scalars
import Mathlib.Data.List.Infix
import Mathlib.Tactic.Common

/-!
What the readers of a document find in it. Each of them leaves the end of the text that it was given,
so whatever is read stands in the document. Of the two ways in which reading fails only one is about
a number: a decimal integer with more digits than are allowed, and it too stands there digit by digit.
-/

namespace Abacus.Proofs.TomlReads

open Toml

/-! ### Digits of a document -/

/-- The digits stand in the document in a row, low lines aside. -/
def HasDigits (doc ds : List Char) : Prop := ∃ run, run <:+: doc ∧ run.filter (· != '_') = ds

/-- The document has a decimal integer of so many digits, more than are allowed. -/
def LongDecimal (doc : List Char) (n : ℕ) : Prop :=
  digitLimit < n ∧ ∃ ds, HasDigits doc ds ∧ (∀ c ∈ ds, c.isDigit = true) ∧ ds.length = n

/-- The digits of an integer stand in the document, to a base of at most sixteen. -/
def Written (doc : List Char) (i : ℤ) : Prop :=
  ∃ ds base, HasDigits doc ds ∧ (∀ c ∈ ds, isBaseDigit base c = true) ∧ base ≤ 16 ∧
    i.natAbs = baseValue base ds

/-- An integer that a value holds at any depth. -/
inductive Holds (i : ℤ) : Value → Prop
  | here : Holds i (.integer i)
  | item {items : List Value} {v : Value} : v ∈ items → Holds i v → Holds i (.array items)
  | entry {t : Table} {k : String} {v : Value} : (k, v) ∈ t → Holds i v → Holds i (.table t)

/-- The integers of a value are written in the document. -/
def Traced (doc : List Char) (v : Value) : Prop := ∀ i, Holds i v → Written doc i

variable {α β : Type} {doc : List Char} {P : α → Prop} {Q : β → Prop}

/-! ### Sound readers -/

/-- A result with the property, or a failure that the document gives reason for. -/
def Sound (doc : List Char) (P : α → Prop) : Except Fault α → Prop
  | .ok a => P a
  | .error .invalid => True
  | .error (.tooManyDigits n) => LongDecimal doc n

/-- What is read has the property, and what is left is the end of the document. -/
def Leaves (doc : List Char) (P : α → Prop) (r : α × List Char) : Prop := P r.1 ∧ r.2 <:+ doc

lemma Sound.bind {r : Except Fault α} (h : Sound doc P r) {f : α → Except Fault β}
    (hf : ∀ a, P a → Sound doc Q (f a)) : Sound doc Q (r >>= f) := by
  match r, h with
  | .ok a, ha => exact hf a ha
  | .error .invalid, _ => trivial
  | .error (.tooManyDigits n), hn => exact hn

lemma Sound.map {r : Except Fault α} (h : Sound doc P r) {f : α → β}
    (hf : ∀ a, P a → Q (f a)) : Sound doc Q (r.map f) := by
  match r, h with
  | .ok a, ha => exact hf a ha
  | .error .invalid, _ => trivial
  | .error (.tooManyDigits n), hn => exact hn

lemma Sound.ite_bind {c : Prop} [Decidable c] {r r' : Except Fault α} (h : Sound doc P r)
    (h' : Sound doc P r') {f : α → Except Fault β} (hf : ∀ a, P a → Sound doc Q (f a)) :
    Sound doc Q (if c then r >>= f else r' >>= f) := by
  split
  · exact h.bind hf
  · exact h'.bind hf

lemma suffix_of_cons {c : Char} {rest : List Char} (h : c :: rest <:+ doc) : rest <:+ doc :=
  (List.suffix_cons c rest).trans h

lemma skipSpaces_suffix (cs : List Char) : skipSpaces cs <:+ cs := List.dropWhile_suffix _

lemma sound_skipComment {cs : List Char} (h : cs <:+ doc) :
    Sound doc (· <:+ doc) (skipComment cs) := by
  rw [skipComment.eq_def]
  split
  · dsimp only
    split
    · trivial
    · exact (List.dropWhile_suffix _).trans (suffix_of_cons h)
  · exact h

lemma sound_skipLines (inComment : Bool) {cs : List Char} (h : cs <:+ doc) :
    Sound doc (· <:+ doc) (skipLines inComment cs) := by
  induction cs generalizing inComment with
  | nil => exact List.nil_suffix
  | cons c rest ih =>
    have hrest := suffix_of_cons h
    rw [skipLines]
    split
    · exact ih false hrest
    split
    · split
      · trivial
      · exact ih true hrest
    split
    · exact ih false hrest
    split
    · exact ih true hrest
    · exact h

/-! ### Strings and keys -/

lemma sound_codePoint (width : ℕ) {cs : List Char} (h : cs <:+ doc) :
    Sound doc (·.2 <:+ doc) (codePoint width cs) := by
  rw [codePoint]
  split
  · trivial
  split
  · trivial
  split
  · exact (List.drop_suffix _ _).trans h
  · trivial

lemma sound_escape {cs : List Char} (h : cs <:+ doc) :
    Sound doc (·.2 <:+ doc) (escape cs) := by
  rw [escape.eq_def]
  split <;> first
    | exact suffix_of_cons h
    | exact sound_codePoint _ (suffix_of_cons h)
    | trivial

lemma sound_foldedLine {cs : List Char} (h : cs <:+ doc) :
    Sound doc (· <:+ doc) (foldedLine cs) := by
  have hspaces : skipSpaces cs <:+ doc := (skipSpaces_suffix cs).trans h
  rw [foldedLine]
  split <;> rename_i heq
  · exact List.nil_suffix
  · exact (List.dropWhile_suffix _).trans (suffix_of_cons (heq ▸ hspaces))
  · trivial

lemma sound_basic (fuel : ℕ) {cs : List Char} (h : cs <:+ doc) :
    Sound doc (·.2 <:+ doc) (basic fuel cs) := by
  induction fuel generalizing cs with
  | zero => trivial
  | succ fuel ih =>
    cases cs with
    | nil => trivial
    | cons c rest =>
      have hrest := suffix_of_cons h
      rw [basic]
      split
      · exact hrest
      split
      · exact (sound_escape hrest).bind fun _ htail => (ih htail).bind fun _ hafter => hafter
      split
      · trivial
      · exact (ih hrest).bind fun _ hafter => hafter

lemma extraQuotes_suffix (quote : Char) {cs : List Char} (h : cs <:+ doc) :
    (extraQuotes quote cs).2 <:+ doc := by
  rw [extraQuotes.eq_def]
  split
  · split
    · split
      · exact suffix_of_cons (suffix_of_cons h)
      · exact suffix_of_cons h
    · exact h
  · split
    · exact List.nil_suffix
    · exact h
  · exact List.nil_suffix

lemma threeQuotes_suffix {quote : Char} {cs after : List Char}
    (hafter : threeQuotes quote cs = some after) (h : cs <:+ doc) : after <:+ doc := by
  rw [threeQuotes.eq_def] at hafter
  split at hafter
  · split at hafter
    · exact Option.some.inj hafter ▸ suffix_of_cons (suffix_of_cons (suffix_of_cons h))
    · contradiction
  · contradiction

lemma sound_basicLines (fuel : ℕ) {cs : List Char} (h : cs <:+ doc) :
    Sound doc (·.2 <:+ doc) (basicLines fuel cs) := by
  induction fuel generalizing cs with
  | zero => trivial
  | succ fuel ih =>
    cases cs with
    | nil => trivial
    | cons c rest =>
      have hrest := suffix_of_cons h
      rw [basicLines]
      split
      · rename_i after hafter
        -- three quotes end the text, and up to two more belong to it
        exact extraQuotes_suffix _ (threeQuotes_suffix hafter h)
      split
      · split
        · exact (sound_foldedLine hrest).bind fun _ hline => ih hline
        · exact (sound_escape hrest).bind fun _ htail => (ih htail).bind fun _ hafter => hafter
      split
      · trivial
      · exact (ih hrest).bind fun _ hafter => hafter

lemma sound_literal {cs : List Char} (h : cs <:+ doc) :
    Sound doc (·.2 <:+ doc) (literal cs) := by
  induction cs with
  | nil => trivial
  | cons c rest ih =>
    have hrest := suffix_of_cons h
    rw [literal]
    split
    · exact hrest
    split
    · trivial
    · exact (ih hrest).map fun _ hafter => hafter

lemma sound_literalLines {cs : List Char} (h : cs <:+ doc) :
    Sound doc (·.2 <:+ doc) (literalLines cs) := by
  induction cs with
  | nil => trivial
  | cons c rest ih =>
    have hrest := suffix_of_cons h
    rw [literalLines]
    split
    · rename_i after hafter
      exact extraQuotes_suffix _ (threeQuotes_suffix hafter h)
    split
    · trivial
    · exact (ih hrest).map fun _ hafter => hafter

lemma afterOpening_suffix {cs : List Char} (h : cs <:+ doc) : afterOpening cs <:+ doc := by
  rw [afterOpening.eq_def]
  split
  · exact suffix_of_cons h
  · exact h

lemma sound_toText {r : Except Fault (List Char × List Char)} (h : Sound doc (·.2 <:+ doc) r) :
    Sound doc (·.2 <:+ doc) (toText r) :=
  h.map fun _ hrest => hrest

lemma sound_lineString? {cs : List Char} {r : Except Fault (String × List Char)}
    (hr : lineString? cs = some r) (h : cs <:+ doc) : Sound doc (·.2 <:+ doc) r := by
  rw [lineString?.eq_def] at hr
  split at hr
  · exact Option.some.inj hr ▸ sound_toText (sound_basic _ (suffix_of_cons h))
  · exact Option.some.inj hr ▸ sound_toText (sound_literal (suffix_of_cons h))
  · contradiction

lemma sound_string? {cs : List Char} {r : Except Fault (String × List Char)}
    (hr : string? cs = some r) (h : cs <:+ doc) : Sound doc (·.2 <:+ doc) r := by
  rw [string?] at hr
  split at hr
  · rename_i hq
    exact Option.some.inj hr ▸
      sound_toText (sound_basicLines _ (afterOpening_suffix (threeQuotes_suffix hq h)))
  · rename_i hq
    exact Option.some.inj hr ▸
      sound_toText (sound_literalLines (afterOpening_suffix (threeQuotes_suffix hq h)))
  · exact sound_lineString? hr h

lemma sound_keyPart {cs : List Char} (h : cs <:+ doc) :
    Sound doc (·.2 <:+ doc) (keyPart cs) := by
  rw [keyPart]
  split
  · rename_i hr
    exact sound_lineString? hr h
  split
  · exact (List.dropWhile_suffix _).trans h
  · trivial

lemma sound_key (fuel : ℕ) {cs : List Char} (h : cs <:+ doc) :
    Sound doc (·.2 <:+ doc) (key fuel cs) := by
  induction fuel generalizing cs with
  | zero => trivial
  | succ fuel ih =>
    rw [key]
    refine (sound_keyPart h).bind fun (part, rest) hrest => ?_
    have hspaces := (skipSpaces_suffix rest).trans hrest
    dsimp only
    split
    · rename_i heq
      have hmore := (skipSpaces_suffix _).trans (suffix_of_cons (heq ▸ hspaces))
      exact (ih hmore).bind fun _ hafter => hafter
    · exact hspaces

/-! ### Runs of digits -/

/-- The digits of a run are those of the text it takes up, of which the rest is left. -/
lemma exists_run (ok : Char → Bool) (hok : ok '_' = false) (afterDigit : Bool) (cs : List Char) :
    ∃ run, cs = run ++ (digitRun ok afterDigit cs).2 ∧
      run.filter (· != '_') = (digitRun ok afterDigit cs).1 ∧
      ∀ c ∈ (digitRun ok afterDigit cs).1, ok c = true := by
  induction cs generalizing afterDigit with
  | nil => exact ⟨[], rfl, rfl, by simp [digitRun]⟩
  | cons c rest ih =>
    rw [digitRun]
    split
    · rename_i hc
      obtain ⟨run, hrest, hds, hall⟩ := ih true
      have hne : c ≠ '_' := by
        rintro rfl
        simp [hok] at hc
      exact ⟨c :: run, congrArg (c :: ·) hrest, by simp [hne, hds],
        List.forall_mem_cons.mpr ⟨hc, hall⟩⟩
    split
    · rename_i hc
      obtain ⟨run, hrest, hds, hall⟩ := ih false
      exact ⟨c :: run, congrArg (c :: ·) hrest, by simp [hc.1, hds], hall⟩
    · exact ⟨[], rfl, rfl, by simp⟩

lemma HasDigits.of_append {cs run tail : List Char} (h : cs <:+ doc) (hcs : cs = run ++ tail) :
    HasDigits doc (run.filter (· != '_')) := by
  obtain ⟨before, rfl⟩ := h
  exact ⟨run, ⟨before, tail, by rw [hcs, List.append_assoc]⟩, rfl⟩

lemma suffix_of_append {cs run tail : List Char} (h : cs <:+ doc) (hcs : cs = run ++ tail) :
    tail <:+ doc :=
  ((List.suffix_append run tail).trans (hcs ▸ List.suffix_rfl)).trans h

lemma digitRun_suffix {ok : Char → Bool} (hok : ok '_' = false) {cs : List Char}
    (h : cs <:+ doc) : (digitRun ok false cs).2 <:+ doc := by
  obtain ⟨run, hcs, -, -⟩ := exists_run ok hok false cs
  exact suffix_of_append h hcs

lemma hasDigits_digitRun {ok : Char → Bool} (hok : ok '_' = false) {cs : List Char}
    (h : cs <:+ doc) : HasDigits doc (digitRun ok false cs).1 := by
  obtain ⟨run, hcs, hds, -⟩ := exists_run ok hok false cs
  exact hds ▸ HasDigits.of_append h hcs

lemma digitRun_forall {ok : Char → Bool} (hok : ok '_' = false) (cs : List Char) :
    ∀ c ∈ (digitRun ok false cs).1, ok c = true := by
  obtain ⟨-, -, -, hall⟩ := exists_run ok hok false cs
  exact hall

lemma isDigit_underscore : Char.isDigit '_' = false := rfl

lemma isBaseDigit_underscore (base : ℕ) : isBaseDigit base '_' = false := rfl

lemma isBaseDigit_of_isDigit {c : Char} (h : c.isDigit = true) : isBaseDigit 10 c = true := by
  have hrange : '0' ≤ c ∧ c ≤ '9' := by simpa [Char.isDigit, Char.le_def] using h
  have htoNat : c.toNat ≤ 57 := hrange.2
  simp only [isBaseDigit, hexValue?, if_pos hrange, Option.any_some, decide_eq_true_eq]
  omega

lemma base?_le {c : Char} {base : ℕ} (h : base? c = some base) : base ≤ 16 := by
  rw [base?.eq_def] at h
  split at h <;> simp at h <;> omega

/-! ### Numbers -/

lemma traced_integer {i : ℤ} (h : Written doc i) : Traced doc (.integer i) := by
  rintro _ ⟨⟩
  exact h

lemma traced_string (s : String) : Traced doc (.string s) := by rintro _ ⟨⟩

lemma traced_float (x : Double) : Traced doc (.float x) := by rintro _ ⟨⟩

lemma traced_boolean (b : Bool) : Traced doc (.boolean b) := by rintro _ ⟨⟩

lemma traced_moment (s : String) : Traced doc (.moment s) := by rintro _ ⟨⟩

lemma leaves_based? {cs : List Char} {r : Value × List Char} (hr : based? cs = some r)
    (h : cs <:+ doc) : Leaves doc (Traced doc) r := by
  rw [based?.eq_def] at hr
  split at hr
  · rename_i c rest
    have hrest : rest <:+ doc := suffix_of_cons (suffix_of_cons h)
    split at hr
    · contradiction
    · rename_i b hb
      have hok := isBaseDigit_underscore b
      have hdigits := hasDigits_digitRun hok hrest
      have hall := digitRun_forall hok rest
      have htail := digitRun_suffix hok hrest
      split at hr
      · contradiction
      · rename_i ds tail _ heq
        rw [heq] at hdigits hall htail
        obtain rfl := Option.some.inj hr
        exact ⟨traced_integer ⟨ds, b, hdigits, hall, base?_le hb, rfl⟩, htail⟩
  · contradiction

lemma splitSign_suffix {cs : List Char} (h : cs <:+ doc) :
    (Numeral.splitSign cs).2 <:+ doc :=
  suffix_of_append h (Numeral.splitSign_append cs).symm

lemma wholePart_digits {cs : List Char} (h : cs <:+ doc) :
    HasDigits doc (wholePart cs).1 ∧ (∀ c ∈ (wholePart cs).1, c.isDigit = true) ∧
      (wholePart cs).2 <:+ doc := by
  rw [wholePart.eq_def]
  split
  · rename_i rest
    exact ⟨HasDigits.of_append h (show '0' :: rest = ['0'] ++ rest from rfl), by simp, suffix_of_cons h⟩
  · exact ⟨hasDigits_digitRun isDigit_underscore h, digitRun_forall isDigit_underscore _,
      digitRun_suffix isDigit_underscore h⟩

lemma fractionPart_suffix {cs : List Char} (h : cs <:+ doc) : (fractionPart cs).2 <:+ doc := by
  rw [fractionPart.eq_def]
  split
  · split
    · exact h
    · exact digitRun_suffix isDigit_underscore (suffix_of_cons h)
  · exact h

lemma powerPart_suffix {cs : List Char} (h : cs <:+ doc) : (powerPart cs).2 <:+ doc := by
  rw [powerPart.eq_def]
  split
  · exact List.nil_suffix
  split
  · dsimp only
    have htail := digitRun_suffix isDigit_underscore (splitSign_suffix (suffix_of_cons h))
    split
    · exact h
    · rename_i heq
      rw [heq] at htail
      exact htail
  · exact h

lemma sound_decimal? {cs : List Char} {r : Except Fault (Value × List Char)}
    (hr : decimal? cs = some r) (h : cs <:+ doc) : Sound doc (Leaves doc (Traced doc)) r := by
  rw [decimal?] at hr
  dsimp only at hr
  obtain ⟨hdigits, hall, hwhole⟩ := wholePart_digits (splitSign_suffix h)
  split at hr
  · contradiction
  · rename_i whole rest _ heq
    rw [heq] at hdigits hall hwhole
    have hrest := powerPart_suffix (fractionPart_suffix hwhole)
    split at hr
    · split at hr
      · -- an integer of more digits than are read
        rename_i hlimit
        obtain rfl := Option.some.inj hr
        exact ⟨hlimit, whole, hdigits, hall, rfl⟩
      · obtain rfl := Option.some.inj hr
        refine ⟨traced_integer ⟨whole, 10, hdigits, fun c hc => isBaseDigit_of_isDigit (hall c hc),
          by decide, ?_⟩, hrest⟩
        split <;> simp
    · -- a fraction or a power makes it a float
      obtain rfl := Option.some.inj hr
      exact ⟨traced_float _, hrest⟩

lemma leaves_special? {cs : List Char} {r : Value × List Char} (hr : special? cs = some r)
    (h : cs <:+ doc) : Leaves doc (Traced doc) r := by
  have hbody := splitSign_suffix h
  rw [special?] at hr
  dsimp only at hr
  split at hr <;> rename_i heq <;> first | contradiction | obtain rfl := Option.some.inj hr
  all_goals
    rw [heq] at hbody
    exact ⟨traced_float _, suffix_of_cons (suffix_of_cons (suffix_of_cons hbody))⟩

/-! ### Dates and times -/

lemma twoDigits?_suffix {low high : ℕ} {cs : List Char} {r : ℕ × List Char}
    (hr : twoDigits? low high cs = some r) (h : cs <:+ doc) : r.2 <:+ doc := by
  rw [twoDigits?.eq_def] at hr
  split at hr
  · dsimp only at hr
    split at hr
    · split at hr
      · exact Option.some.inj hr ▸ suffix_of_cons (suffix_of_cons h)
      · contradiction
    · contradiction
  · contradiction

lemma exactly?_suffix {c : Char} {cs rest : List Char} (hr : exactly? c cs = some rest)
    (h : cs <:+ doc) : rest <:+ doc := by
  rw [exactly?.eq_def] at hr
  split at hr
  · split at hr
    · exact Option.some.inj hr ▸ suffix_of_cons h
    · contradiction
  · contradiction

lemma date?_suffix {cs : List Char} {r : (ℕ × ℕ × ℕ) × List Char} (hr : date? cs = some r)
    (h : cs <:+ doc) : r.2 <:+ doc := by
  simp only [date?, Option.bind_eq_bind, Option.bind_eq_some_iff] at hr
  obtain ⟨_, h₁, _, h₂, _, h₃, _, h₄, _, h₅, _, h₆, hr⟩ := hr
  have hyear := twoDigits?_suffix h₂ (twoDigits?_suffix h₁ h)
  have hmonth := twoDigits?_suffix h₄ (exactly?_suffix h₃ hyear)
  exact Option.some.inj hr ▸ twoDigits?_suffix h₆ (exactly?_suffix h₅ hmonth)

lemma skipTime?_suffix {cs rest : List Char} (hr : skipTime? cs = some rest)
    (h : cs <:+ doc) : rest <:+ doc := by
  simp only [skipTime?, Option.bind_eq_bind, Option.bind_eq_some_iff] at hr
  obtain ⟨_, h₁, _, h₂, _, h₃, _, h₄, _, h₅, hr⟩ := hr
  have hminute := twoDigits?_suffix h₃ (exactly?_suffix h₂ (twoDigits?_suffix h₁ h))
  have hsecond := twoDigits?_suffix h₅ (exactly?_suffix h₄ hminute)
  split at hr
  · rename_i heq
    rw [heq] at hsecond
    split at hr
    · exact Option.some.inj hr ▸
        (List.dropWhile_suffix _).trans (suffix_of_cons (suffix_of_cons hsecond))
    · exact Option.some.inj hr ▸ hsecond
  · exact Option.some.inj hr ▸ hsecond

lemma getD_suffix {o : Option (List Char)} (ho : ∀ rest, o = some rest → rest <:+ doc)
    {cs : List Char} (h : cs <:+ doc) : o.getD cs <:+ doc := by
  cases o with
  | none => exact h
  | some rest => exact ho rest rfl

lemma skipOffset_suffix {cs : List Char} (h : cs <:+ doc) : skipOffset cs <:+ doc := by
  rw [skipOffset.eq_def]
  dsimp only
  split
  · exact List.nil_suffix
  split
  · exact suffix_of_cons h
  split
  · refine getD_suffix (fun after hafter => ?_) h
    simp only [Option.bind_eq_bind, Option.bind_eq_some_iff] at hafter
    obtain ⟨_, h₁, _, h₂, _, h₃, hafter⟩ := hafter
    have hminute := exactly?_suffix h₂ (twoDigits?_suffix h₁ (suffix_of_cons h))
    exact Option.some.inj hafter ▸ twoDigits?_suffix h₃ hminute
  · exact h

lemma skipDayTime_suffix {cs : List Char} (h : cs <:+ doc) : skipDayTime cs <:+ doc := by
  rw [skipDayTime.eq_def]
  split
  · exact List.nil_suffix
  split
  · split
    · rename_i hafter
      exact skipOffset_suffix (skipTime?_suffix hafter (suffix_of_cons h))
    · exact h
  · exact h

lemma sound_moment? {cs : List Char} {r : Except Fault (Value × List Char)}
    (hr : moment? cs = some r) (h : cs <:+ doc) : Sound doc (Leaves doc (Traced doc)) r := by
  rw [moment?] at hr
  split at hr
  · rename_i hdate
    split at hr
    · obtain rfl := Option.some.inj hr
      trivial
    · obtain rfl := Option.some.inj hr
      exact ⟨traced_moment _, skipDayTime_suffix (date?_suffix hdate h)⟩
  · obtain ⟨after, hafter, rfl⟩ := Option.map_eq_some_iff.mp hr
    exact ⟨traced_moment _, skipTime?_suffix hafter h⟩

lemma leaves_boolean? {cs : List Char} {r : Value × List Char} (hr : boolean? cs = some r)
    (h : cs <:+ doc) : Leaves doc (Traced doc) r := by
  rw [boolean?.eq_def] at hr
  split at hr
  · obtain rfl := Option.some.inj hr
    exact ⟨traced_boolean _,
      suffix_of_cons (suffix_of_cons (suffix_of_cons (suffix_of_cons h)))⟩
  · obtain rfl := Option.some.inj hr
    exact ⟨traced_boolean _,
      suffix_of_cons (suffix_of_cons (suffix_of_cons (suffix_of_cons (suffix_of_cons h))))⟩
  · contradiction

lemma sound_scalar {cs : List Char} (h : cs <:+ doc) :
    Sound doc (Leaves doc (Traced doc)) (scalar cs) := by
  rw [scalar]
  split
  · rename_i hr
    exact (sound_string? hr h).map fun _ hrest => ⟨traced_string _, hrest⟩
  split
  · rename_i hr
    exact leaves_boolean? hr h
  split
  · rename_i hr
    exact sound_moment? hr h
  split
  · rename_i hr
    exact leaves_based? hr h
  split
  · rename_i hr
    exact sound_decimal? hr h
  split
  · rename_i hr
    exact leaves_special? hr h
  · trivial

end Abacus.Proofs.TomlReads
