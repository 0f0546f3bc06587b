import Abacus.Proofs.RaisingWalk
import Abacus.Proofs.ReadBack
import Abacus.Proofs.Spacing
import Abacus.Proofs.Totality

/-!
Numbers as they are written in a source and as the values of variables. In plain characters the two
ways of writing are one, but for the signs and the words that only a value may have; and a value
that is no word is the same number as a calculation with it as its source. Outside of the plain
characters they differ: a source has the digits of every script, a value those from `0` to `9`.
-/

namespace Abacus.Proofs.NumberSyntax

open Numeral ReadBack

variable {s : String} {v : Double} {c : Char} {cs ds : List Char} {x : Numeral}

/-- The characters that have one byte. -/
def Plain (cs : List Char) : Prop := ∀ c ∈ cs, c.toNat < 128

/-- The sign that a text begins with. -/
def signOf? (cs : List Char) : Option Char := (splitSign cs).1

def afterSign (cs : List Char) : List Char := (splitSign cs).2

/-- A word that means infinity or no number, in any case. -/
def IsWord (cs : List Char) : Prop :=
  cs.map Char.toLower ∈ ["inf".toList, "infinity".toList, "nan".toList]

/-! ### Numerals in plain characters -/

/-- The zeros of all other scripts lie far behind. -/
lemma isSome_asciiDigitValue? (hc : c.toNat < 128) (h : (Text.digitValue? c).isSome) :
    (Text.asciiDigitValue? c).isSome := by
  have hzeros : ∀ z ∈ Text.zeros, z < 128 → z = 48 := by decide
  obtain ⟨k, hk⟩ := Option.isSome_iff_exists.mp h
  obtain ⟨z, hz, -⟩ := Option.map_eq_some_iff.mp hk
  have hmem := List.mem_of_find?_eq_some hz
  have hrange := List.find?_some hz
  simp only [Bool.and_eq_true, decide_eq_true_eq] at hrange
  obtain rfl := hzeros z hmem (by omega)
  have hdigit : '0' ≤ c ∧ c ≤ '9' := hrange
  simp [Text.asciiDigitValue?, hdigit]

lemma allDigits_plain (hp : Plain ds) (hd : AllDigits Text.digitValue? ds) :
    AllDigits Text.asciiDigitValue? ds :=
  fun c hc => isSome_asciiDigitValue? (hp c hc) (hd c hc)

lemma wellFormed_plain (hp : Plain x.text) (hx : x.WellFormed Text.digitValue?) :
    x.WellFormed Text.asciiDigitValue? := by
  obtain ⟨hw, hf, hne, hpow⟩ := hx
  refine ⟨allDigits_plain (fun c hc => hp c (by simp [text, hc])) hw, fun ds hds => ?_, hne,
    fun p hpw => ?_⟩
  · have hfraction : x.fraction = some ds := hds
    exact allDigits_plain (fun c hc => hp c (by simp [text, fractionText, hfraction, hc]))
      (hf ds hds)
  · have hpower : x.power = some p := hpw
    obtain ⟨hl, hs, hd, hnil⟩ := hpow p hpw
    exact ⟨hl, hs, allDigits_plain (fun c hc => hp c (by simp [text, powerText, hpower, hc])) hd,
      hnil⟩

/-! ### Values of variables -/

lemma read?_eq (cs : List Char) :
    NumberText.read? cs = NumberText.unsigned? (signOf? cs == some '-') (afterSign cs) := by
  unfold NumberText.read?
  split
  · rfl
  · rfl
  · rename_i hplus hminus
    have hnone : splitSign cs = (none, cs) := by
      unfold splitSign
      split
      · exact absurd rfl (hplus _)
      · exact absurd rfl (hminus _)
      · rfl
    rw [signOf?, afterSign, hnone]
    rfl

lemma readNumber?_eq (s : String) :
    readNumber? s = NumberText.unsigned? (signOf? s.toList == some '-') (afterSign s.toList) :=
  read?_eq s.toList

lemma read?_eq_some {d : Decimal} :
    Numeral.read? Text.asciiDigitValue? cs = some d ↔
      ∃ x : Numeral, x.WellFormed Text.asciiDigitValue? ∧ x.text = cs ∧
        x.value Text.asciiDigitValue? = d := by
  constructor
  · intro h
    unfold Numeral.read? at h
    split at h
    · rename_i x hx
      refine ⟨x, wellFormed_of_split? hx, ?_, Option.some.inj h⟩
      have htext := text_append_of_split? hx
      rwa [List.append_nil] at htext
    · simp at h
  · rintro ⟨x, hx, rfl, rfl⟩
    rw [Numeral.read?, split?_text hx Conversion.noMarks_asciiDigitValue?]

/-- What is no word is a numeral, if it means anything. -/
lemma unsigned?_eq_some {negative : Bool} (hw : ¬ IsWord cs) :
    NumberText.unsigned? negative cs = some v ↔
      ∃ x : Numeral, x.WellFormed Text.asciiDigitValue? ∧ x.text = cs ∧
        (x.value Text.asciiDigitValue?).toDouble negative = v := by
  have hunsigned : NumberText.unsigned? negative cs =
      (Numeral.read? Text.asciiDigitValue? cs).map (·.toDouble negative) := by
    simp only [IsWord, List.mem_cons, List.not_mem_nil, or_false, not_or] at hw
    simp only [NumberText.unsigned?, hw, or_self, if_false]
  rw [hunsigned, Option.map_eq_some_iff]
  constructor
  · rintro ⟨d, hd, rfl⟩
    obtain ⟨x, hx, htext, rfl⟩ := read?_eq_some.mp hd
    exact ⟨x, hx, htext, rfl⟩
  · rintro ⟨x, hx, htext, rfl⟩
    exact ⟨_, read?_eq_some.mpr ⟨x, hx, htext, rfl⟩, rfl⟩

lemma not_isWord_text (hx : x.WellFormed Text.asciiDigitValue?) : ¬ IsWord x.text := by
  obtain ⟨c, cs, htext, -, -, hi, hn⟩ := Conversion.first_text hx
  rw [htext]
  simp [IsWord, hi, hn]

lemma signOf?_text (hx : x.WellFormed Text.asciiDigitValue?) : signOf? x.text = none := by
  obtain ⟨c, cs, htext, hplus, hminus, -, -⟩ := Conversion.first_text hx
  rw [htext, signOf?]
  unfold splitSign
  split <;> simp_all

lemma afterSign_of_none (h : signOf? cs = none) : afterSign cs = cs := by
  have happend := splitSign_append cs
  rw [signOf?] at h
  rwa [h, Option.toList_none, List.nil_append] at happend

/-! ### Number tokens -/

/-- A text is one number token if it is a numeral, and only then. -/
lemma scan_eq_number (hp : Plain s.toList) :
    Token.scan s = .ok [⟨.number v, s, 0⟩] ↔
      ∃ x : Numeral, x.WellFormed Text.asciiDigitValue? ∧ x.text = s.toList ∧
        (x.value Text.asciiDigitValue?).toDouble false = v := by
  constructor
  · intro h
    have hbegins := Token.begins_of_scanFrom h _ (List.mem_singleton.mpr rfl)
    generalize ht : (⟨.number v, s, 0⟩ : Token) = t at hbegins
    cases hbegins with
    | @number x _ hx _ =>
      simp only [Token.mk.injEq, Token.Kind.number.injEq] at ht
      obtain ⟨hv, hs, -⟩ := ht
      have htext : x.text = s.toList := by rw [hs, String.toList_ofList]
      -- in plain text the digits of a scan are plain, and they have the same values
      have hx' := wellFormed_plain (htext ▸ hp) hx
      exact ⟨x, hx', htext, by rw [hv, value_digitValue? hx']⟩
    | word => simp at ht
    | mark _ hk => exact absurd (Token.mk.inj ht).1.symm ((Token.ne_of_mark hk).2 v)
  · rintro ⟨x, hx, htext, rfl⟩
    have hs : s = String.ofList x.text := by rw [htext, String.ofList_toList]
    rw [Token.scan, ← htext, scanFrom_numeral hx, ← hs]

/-- **In plain characters a text is one number token if it means that number by itself** without a
sign and without a word. -/
theorem scan_eq_number_iff (hp : Plain s.toList) :
    Token.scan s = .ok [⟨.number v, s, 0⟩] ↔
      readNumber? s = some v ∧ signOf? s.toList = none ∧ ¬ IsWord s.toList := by
  rw [scan_eq_number hp]
  constructor
  · rintro ⟨x, hx, htext, rfl⟩
    have hsign := signOf?_text hx
    have hword := not_isWord_text hx
    rw [htext] at hsign hword
    refine ⟨?_, hsign, hword⟩
    rw [readNumber?_eq, hsign, afterSign_of_none hsign]
    exact (unsigned?_eq_some hword).mpr ⟨x, hx, htext, rfl⟩
  · rintro ⟨hread, hsign, hword⟩
    rw [readNumber?_eq, hsign, afterSign_of_none hsign] at hread
    exact (unsigned?_eq_some hword).mp hread

/-! ### Values as sources -/

/-- A number that is rounded with a sign is the one rounded without, under the sign. -/
lemma toDouble_true (d : Decimal) : d.toDouble true = -d.toDouble false := by
  unfold Decimal.toDouble
  split_ifs
  · rfl
  · rfl
  · rfl
  · unfold Double.ofRatio
    split <;> rfl

/-- The sign of a tree for the sign of a text. -/
def signFor : Option Char → Option Sign
  | some '+' => some .plus
  | some '-' => some .minus
  | _ => none

lemma signText_signFor (cs : List Char) :
    signText (signFor (signOf? cs)) ++ afterSign cs = cs := by
  have hsign := sign_of_splitSign cs
  have happend := splitSign_append cs
  rw [signOf?, afterSign]
  cases h : (splitSign cs).1 with
  | none => simpa [h, signFor, signText] using happend
  | some c =>
    rw [h] at happend
    rcases hsign c h with rfl | rfl <;> exact happend

lemma outcome_underSign (scope : Scope) (sign : Option Sign) (v : Double) :
    scope.outcome (underSign sign v) = .value (sign.elim v (·.apply v)) := by
  cases sign <;> rfl

lemma frames_underSign (sign : Option Sign) (v : Double) :
    (underSign sign v).frames < stackLimit := by
  cases sign <;> simp [underSign, Expr.frames, Expr.framesIn, stackLimit]

lemma apply_signFor (cs : List Char) (d : Decimal) :
    (signFor (signOf? cs)).elim (d.toDouble false) (·.apply (d.toDouble false)) =
      d.toDouble (signOf? cs == some '-') := by
  have hsign := sign_of_splitSign cs
  rw [signOf?]
  cases h : (splitSign cs).1 with
  | none => rfl
  | some c =>
    rcases hsign c h with rfl | rfl
    · rfl
    · exact (toDouble_true d).symm

/-- **A value that is no word is the same number as a source**, with its sign, whether it is a zero
or out of range. -/
theorem calculate_of_readNumber? (h : readNumber? s = some v) (hw : ¬ IsWord (afterSign s.toList))
    (lib : Library) (implied : Bool) (vars : Snapshot) :
    lib.calculate implied s vars = .value v ∧
      lib.calculateOnStack implied s vars = .ok (.value v) := by
  rw [readNumber?_eq] at h
  obtain ⟨x, hx, htext, rfl⟩ := (unsigned?_eq_some hw).mp h
  have hs : String.ofList (signText (signFor (signOf? s.toList)) ++ x.text) = s := by
    rw [htext, signText_signFor, String.ofList_toList]
  have hparse := parse_signed_numeral hx (signFor (signOf? s.toList)) implied
  rw [hs] at hparse
  rw [lib.calculateOnStack_of_lt vars hparse (frames_underSign _ _), Except.ok.injEq, and_self]
  simp only [Library.calculate, Compiled.ofSource, hparse, Except.map, Compiled.outcome,
    outcome_underSign, apply_signFor]

/-- **The two ways of writing numbers agree.** In plain characters a text is a single number token
just if it means the number of that token by itself, has no sign and is no word. A text that means a
number, and is no word behind its sign, is calculated to that number, by either rule for neighbours
and whatever the variables are. And what the value of a variable means is found out without anything
being raised, whatever its characters are. -/
theorem number_syntaxes_agree (s : String) :
    (Plain s.toList → ∀ v, Token.scan s = .ok [⟨.number v, s, 0⟩] ↔
      readNumber? s = some v ∧ signOf? s.toList = none ∧ ¬ IsWord s.toList) ∧
    (∀ v, readNumber? s = some v → ¬ IsWord (afterSign s.toList) →
      ∀ (lib : Library) (implied : Bool) (vars : Snapshot),
        lib.calculate implied s vars = .value v ∧
          lib.calculateOnStack implied s vars = .ok (.value v)) ∧
    ∀ name, Raising.number ⟨name, s⟩ = .ok (readNumber? s) :=
  ⟨fun hp _ => scan_eq_number_iff hp, fun _ h hw => calculate_of_readNumber? h hw,
    fun name => Raising.number_eq ⟨name, s⟩⟩

/-- A number out of range, and a zero with its sign. -/
theorem number_syntaxes_agree_limits :
    Plain "1.e999".toList ∧ Token.scan "1.e999" = .ok [⟨.number (.inf false), "1.e999", 0⟩] ∧
    readNumber? "-.0" = some (.zero true) ∧ ¬ IsWord (afterSign "-.0".toList) ∧
    ∀ (lib : Library) (vars : Snapshot), lib.calculate true "-.0" vars = .value (.zero true) := by
  have hp : Plain "1.e999".toList := List.forall_iff_forall_mem.mp (by decide)
  have hword : ¬ IsWord "1.e999".toList := by unfold IsWord; decide
  have hread : readNumber? "1.e999" = some (.inf false) := by decide +kernel
  obtain ⟨htoken, -, -⟩ := number_syntaxes_agree "1.e999"
  obtain ⟨-, hvalue, -⟩ := number_syntaxes_agree "-.0"
  have hread' : readNumber? "-.0" = some (.zero true) := by decide +kernel
  have hword' : ¬ IsWord (afterSign "-.0".toList) := by unfold IsWord; decide
  exact ⟨hp, (htoken hp _).mpr ⟨hread, by decide, hword⟩, hread', hword',
    fun lib vars => (hvalue _ hread' hword' lib true vars).1⟩

end Abacus.Proofs.NumberSyntax
