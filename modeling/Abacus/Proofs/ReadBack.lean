import Abacus.Proofs.DecimalTexts
import Abacus.Proofs.Lookup
import Abacus.Proofs.Respelling

/-!
Numbers that are fed back. The text that a number is shown by means that number again: as the value
of a variable, and, if it is finite, as an expression, whose value is shown by the same text. Only
the sign of zero is lost.
-/

namespace Abacus.Numeral

variable {y : Numeral} {m : Magnitude} {ds rest : List Char}

/-! ### Numerals among the tokens -/

lemma digitValue?_eq {c : Char} (h : (Text.asciiDigitValue? c).isSome) :
    Text.digitValue? c = Text.asciiDigitValue? c := by
  have hall : ∀ c ∈ "0123456789".toList, Text.digitValue? c = Text.asciiDigitValue? c :=
    List.forall_iff_forall_mem.mp (by decide +kernel)
  exact hall c (Conversion.mem_of_asciiDigitValue? h)

lemma allDigits_digitValue? (h : AllDigits Text.asciiDigitValue? ds) :
    AllDigits Text.digitValue? ds := fun c hc => digitValue?_eq (h c hc) ▸ h c hc

lemma valueOf_digitValue? (h : AllDigits Text.asciiDigitValue? ds) :
    valueOf Text.digitValue? ds = valueOf Text.asciiDigitValue? ds :=
  List.foldl_ext _ _ _ fun _ c hc => by rw [digitValue?_eq (h c hc)]

lemma wellFormed_digitValue? (hy : y.WellFormed Text.asciiDigitValue?) :
    y.WellFormed Text.digitValue? := by
  refine ⟨allDigits_digitValue? hy.whole, fun ds hds => allDigits_digitValue? (hy.fraction ds hds),
    hy.ne_nil, fun p hp => ?_⟩
  obtain ⟨hl, hs, hd, hne⟩ := hy.power p hp
  exact ⟨hl, hs, allDigits_digitValue? hd, hne⟩

lemma value_digitValue? (hy : y.WellFormed Text.asciiDigitValue?) :
    y.value Text.digitValue? = y.value Text.asciiDigitValue? := by
  have hall : AllDigits Text.asciiDigitValue? (y.whole ++ y.fraction.getD []) := by
    refine allDigits_append hy.whole ?_
    cases hf : y.fraction with
    | none => simp [AllDigits]
    | some ds => exact hy.fraction ds hf
  have hpower : powerValue Text.digitValue? y.power = powerValue Text.asciiDigitValue? y.power := by
    cases hp : y.power with
    | none => rfl
    | some p => rw [powerValue, powerValue, valueOf_digitValue? (hy.power p hp).digits]
  rw [value, value, valueOf_digitValue? hall, hpower]

/-- A numeral in the digits `0` to `9` is a number token, wherever nothing goes on with it. -/
lemma begins_numeral (hy : y.WellFormed Text.asciiDigitValue?) (hr : Parts rest) (pos : ℕ) :
    Token.Begins rest ⟨.number ((y.value Text.asciiDigitValue?).toDouble false),
      String.ofList y.text, pos⟩ := by
  have hx := wellFormed_digitValue? hy
  have h := Token.Begins.number pos hx (Stops.parts (b := []) Stops.nil hr)
  rwa [value_digitValue? hy] at h

lemma Means.begins (hy : y.Means m) (hr : Parts rest) (pos : ℕ) :
    Token.Begins rest ⟨.number (.finite false m), String.ofList y.text, pos⟩ :=
  hy.reads false ▸ begins_numeral hy.wellFormed hr pos

/-- A numeral is all of a text that is one number token. -/
lemma scanFrom_numeral (hy : y.WellFormed Text.asciiDigitValue?) (pos : ℕ) :
    Token.scanFrom pos y.text = .ok [⟨.number ((y.value Text.asciiDigitValue?).toDouble false),
      String.ofList y.text, pos⟩] := by
  have h := Token.scanFrom_begins (begins_numeral hy parts_nil pos) pos
  rwa [String.toList_ofList, List.append_nil, Token.scanFrom] at h

/-- A numeral means its number, with the sign before it. -/
lemma readNumber?_numeral (hy : y.WellFormed Text.asciiDigitValue?) (negative : Bool) :
    readNumber? (String.ofList (Double.signChars negative y.text)) =
      some ((y.value Text.asciiDigitValue?).toDouble negative) := by
  rw [Abacus.readNumber?, String.toList_ofList]
  cases negative with
  | false => rw [Double.signChars, if_neg Bool.false_ne_true, Conversion.read?_text hy]
  | true => rw [Double.signChars, if_pos rfl, NumberText.read?, Conversion.unsigned?_text hy]

lemma Means.readNumber? (hy : y.Means m) (negative : Bool) :
    readNumber? (String.ofList (Double.signChars negative y.text)) =
      some (.finite negative m) := by
  rw [readNumber?_numeral hy.wellFormed, hy.reads]

end Abacus.Numeral

namespace Abacus.Proofs.ReadBack

open Grammar Numeral

variable {y : Numeral} {m : Magnitude}

/-! ### What a shown number is read as -/

/-- The number of a text that shows it. -/
def shown (v : Double) : Double := if v.isZero then .zero false else v

lemma shown_finite (s : Bool) (m : Magnitude) :
    shown (.finite s m) = .finite (s && m.mantissa != 0) m := by
  by_cases hm : m.mantissa = 0
  · simp [shown, Double.isZero, Double.zero, Magnitude.eq_zero hm, Magnitude.zero]
  · simp [shown, Double.isZero, hm, bne_iff_ne.mpr hm]

lemma display_zero (s : Bool) (hm : m.mantissa = 0) : (Double.finite s m).display = "0" := by
  have hnum : m.num = 0 := by rw [Magnitude.num, hm, Nat.zero_mul]
  have hlimit : 0 < Double.wholeLimit := Decimal.tenPow_pos 16
  simp only [Double.display, hnum, Nat.zero_mod, Nat.zero_div, hlimit, and_self, if_true]
  cases s <;> rfl

lemma display_shown (v : Double) : (shown v).display = v.display := by
  cases v with
  | finite s m =>
    by_cases hm : m.mantissa = 0
    · rw [shown_finite, display_zero _ hm, display_zero _ hm]
    · simp [shown, Double.isZero, hm]
  | _ => rfl

lemma readNumber?_display (v : Double) : readNumber? v.display = some (shown v) := by
  match v with
  | .nan => decide +kernel
  | .inf false => decide +kernel
  | .inf true => decide +kernel
  | .finite s m =>
    obtain ⟨y, hy, htext⟩ := Double.exists_numeral_display s m
    rw [htext, hy.readNumber?, shown_finite]

/-! ### A shown number as an expression -/

/-- The tree of a number with its sign. -/
def signedNumber (negative : Bool) (m : Magnitude) : Expr :=
  if negative then .signed .minus (.number (.finite false m)) else .number (.finite false m)

/-- The tree of a number under a sign, if there is one. -/
def underSign (sign : Option Sign) (v : Double) : Expr :=
  sign.elim (.number v) (.signed · (.number v))

def signText : Option Sign → List Char
  | none => []
  | some s => s.text.toList

/-- **A numeral is read as its number**, and with a sign before it as that number under the sign. -/
theorem parse_signed_numeral (hy : y.WellFormed Text.asciiDigitValue?) (sign : Option Sign)
    (implied : Bool) :
    Expr.parse implied (String.ofList (signText sign ++ y.text)) =
      .ok (underSign sign ((y.value Text.asciiDigitValue?).toDouble false)) := by
  have hreads : ∀ (g : Grammar) (n : ℕ) (t : Token) (v : Double), t.kind = .number v →
      g.Reads n [t] [] .signed (.number v) := by
    intro g n t v ht
    refine reads_signed_of_operand ?_ no_bangs (clear_nil _) (clear_nil _) (reads_number ht)
    rw [ht]
    rfl
  have hsign : ∀ (s : Sign) (k : Token.Kind) (c : Char), s.text.toList = [c] →
      Token.mark? c = some k → sign? k = some s →
      Expr.parse implied (String.ofList (s.text.toList ++ y.text)) =
        .ok (.signed s (.number ((y.value Text.asciiDigitValue?).toDouble false))) := by
    intro s k c hc hk hs
    rw [hc, List.singleton_append, Expr.parse, Token.scan, String.toList_ofList,
      Token.scanFrom_mark hk, scanFrom_numeral hy]
    exact expression_of_reads (reads_sum_of_product (clear_nil _)
      (reads_product_of_signed (clear_nil _)
        (reads_sign hs (by decide) (hreads _ 1 _ _ rfl))))
  match sign with
  | none =>
    rw [signText, List.nil_append, Expr.parse, Token.scan, String.toList_ofList,
      scanFrom_numeral hy]
    exact expression_of_reads (reads_sum_of_product (clear_nil _)
      (reads_product_of_signed (clear_nil _) (hreads _ 0 _ _ rfl)))
  | some .plus => exact hsign .plus .plus '+' rfl rfl rfl
  | some .minus => exact hsign .minus .minus '-' rfl rfl rfl

lemma parse_numeral (hy : y.Means m) (negative implied : Bool) :
    Expr.parse implied (String.ofList (Double.signChars negative y.text)) =
      .ok (signedNumber negative m) := by
  cases negative with
  | false =>
    have h := parse_signed_numeral hy.wellFormed none implied
    rwa [hy.reads] at h
  | true =>
    have h := parse_signed_numeral hy.wellFormed (some .minus) implied
    rwa [hy.reads] at h

lemma outcome_signedNumber (s : Scope) (negative : Bool) (m : Magnitude) :
    s.outcome (signedNumber negative m) = .value (.finite negative m) := by
  cases negative <;> rfl

lemma frames_signedNumber (negative : Bool) (m : Magnitude) :
    (signedNumber negative m).frames < stackLimit := by
  cases negative <;> simp [signedNumber, Expr.frames, Expr.framesIn, stackLimit]

/-- **A shown number can be fed back.** Its text means the number, a zero without its sign; so does a
variable with that text as its value; and where the number is finite, a calculation with that text
as its source shows the same text again, by either rule for neighbours. -/
theorem display_readBack (v : Double) :
    readNumber? v.display = some (if v.isZero then .zero false else v) ∧
    (∀ (vars : Snapshot) (name : String) (x : Variable), vars.find? name = some x →
      x.value = v.display →
      (Resolver.ofSnapshot vars).resolve name = some (if v.isZero then .zero false else v)) ∧
    (∀ s m, v = .finite s m → ∀ (lib : Library) (implied : Bool) (vars : Snapshot),
      lib.answer implied v.display vars = v.display ∧
      (lib.calculateOnStack implied v.display vars).map Outcome.display = .ok v.display) := by
  refine ⟨readNumber?_display v, fun vars name x hfind hx => ?_, ?_⟩
  · rw [Lookup.resolve_ofSnapshot, Snapshot.resolve, hfind, Option.bind_some, Variable.number?, hx]
    exact readNumber?_display v
  · rintro s m rfl lib implied vars
    obtain ⟨y, hy, htext⟩ := Double.exists_numeral_display s m
    have hparse := parse_numeral hy (s && m.mantissa != 0) implied
    -- what is shown has no sign of a zero, and it shows itself again
    have hshown : (Double.finite (s && m.mantissa != 0) m).display =
        (Double.finite s m).display := by
      rw [← shown_finite, display_shown]
    rw [← htext] at hparse
    have hanswer : (lib.calculate implied (Double.finite s m).display vars).display =
        (Double.finite s m).display := by
      simp only [Library.calculate, Compiled.ofSource, hparse, Except.map, Compiled.outcome,
        outcome_signedNumber, Outcome.display, hshown]
    refine ⟨hanswer, ?_⟩
    rw [lib.calculateOnStack_of_lt vars hparse (frames_signedNumber _ _)]
    exact congrArg Except.ok hanswer

/-- The least magnitude but zero. -/
def least : Magnitude := ⟨1, -1074, by decide⟩

lemma display_least : (Double.finite true least).display = "-5e-324" := by decide +kernel

theorem display_readBack_least :
    readNumber? "-5e-324" = some (.finite true least) ∧
    (Resolver.ofSnapshot ⟨[⟨"x", "-5e-324"⟩, ⟨"X", "1"⟩]⟩).resolve "X" = some (.finite true least) ∧
    ∀ (lib : Library) (vars : Snapshot),
      lib.answer false "-5e-324" vars = "-5e-324" ∧
      (lib.calculateOnStack true "-5e-324" vars).map Outcome.display = .ok "-5e-324" := by
  obtain ⟨hread, hresolve, hanswer⟩ := display_readBack (.finite true least)
  have hvalue : (if (Double.finite true least).isZero then .zero false else .finite true least) =
      Double.finite true least := rfl
  rw [display_least] at hread hresolve hanswer
  rw [hvalue] at hread hresolve
  have hfind : (⟨[⟨"x", "-5e-324"⟩, ⟨"X", "1"⟩]⟩ : Snapshot).find? "X" = some ⟨"x", "-5e-324"⟩ := by
    decide +kernel
  exact ⟨hread, hresolve _ "X" _ hfind rfl, fun lib vars =>
    ⟨(hanswer _ _ rfl lib false vars).1, (hanswer _ _ rfl lib true vars).2⟩⟩

end Abacus.Proofs.ReadBack
