import Abacus.Display
import Abacus.Proofs.Exactness
import Abacus.Proofs.NumberTexts

/-!
Texts of doubles. With a point or with a power of ten, the text of a decimal is a numeral of the
same value, so the text of a finite double is a sign and a numeral that reads as its magnitude. The
same is true of the shorter text that whole numbers are shown by.
-/

namespace Abacus.Numeral

variable {n : ℕ} {ds es : List Char}

/-! ### Digits of a number -/

lemma allDigits_append (h : AllDigits Text.asciiDigitValue? ds)
    (h' : AllDigits Text.asciiDigitValue? es) : AllDigits Text.asciiDigitValue? (ds ++ es) :=
  List.forall_mem_append.mpr ⟨h, h'⟩

lemma allDigits_of_subset (h : AllDigits Text.asciiDigitValue? ds) (hs : es ⊆ ds) :
    AllDigits Text.asciiDigitValue? es := fun c hc => h c (hs hc)

lemma allDigits_zero : AllDigits Text.asciiDigitValue? ['0'] :=
  List.forall_mem_singleton.mpr (by decide)

lemma allDigits_zeros (k : ℕ) : AllDigits Text.asciiDigitValue? (List.replicate k '0') :=
  fun c hc => List.eq_of_mem_replicate hc ▸ allDigits_zero '0' (by simp)

lemma allDigits_decimalDigits (n : ℕ) : AllDigits Text.asciiDigitValue? (decimalDigits n) := by
  intro c hc
  have hdigit := Nat.isDigit_of_mem_toDigits (by decide) (by decide) hc
  simp only [Char.isDigit, Bool.and_eq_true, decide_eq_true_eq] at hdigit
  have hrange : '0' ≤ c ∧ c ≤ '9' := hdigit
  simp [Text.asciiDigitValue?, hrange]

lemma valueOf_eq (h : AllDigits Text.asciiDigitValue? ds) :
    valueOf Text.asciiDigitValue? ds = Nat.ofDigitChars 10 ds 0 := by
  unfold valueOf Nat.ofDigitChars
  refine List.foldl_ext _ _ _ fun n c hc => ?_
  have hc' := h c hc
  unfold Text.asciiDigitValue? at hc' ⊢
  split_ifs at hc' ⊢
  · rfl
  · simp at hc'

lemma valueOf_decimalDigits (n : ℕ) : valueOf Text.asciiDigitValue? (decimalDigits n) = n := by
  rw [valueOf_eq (allDigits_decimalDigits n), decimalDigits, Nat.ofDigitChars_ten_toDigits]

lemma valueOf_zeros_append (k : ℕ) (ds : List Char) :
    valueOf Text.asciiDigitValue? (List.replicate k '0' ++ ds) =
      valueOf Text.asciiDigitValue? ds := by
  have hzero : Text.asciiDigitValue? '0' = some 0 := by decide
  induction k with
  | zero => rfl
  | succ k ih =>
    rw [← ih, List.replicate_succ, List.cons_append, valueOf, List.foldl_cons, hzero]
    rfl

lemma valueOf_append_zeros (h : AllDigits Text.asciiDigitValue? ds) (k : ℕ) :
    valueOf Text.asciiDigitValue? (ds ++ List.replicate k '0') =
      valueOf Text.asciiDigitValue? ds * tenPow k := by
  rw [valueOf_eq (allDigits_append h (allDigits_zeros k)), Nat.ofDigitChars_append,
    Nat.ofDigitChars_replicate_zero, valueOf_eq h, Nat.mul_comm]
  rfl

end Abacus.Numeral

namespace Abacus.Decimal

open Numeral

variable {k e : ℤ} {ds : List Char}

/-! ### The text of a decimal -/

/-- The text is a numeral of the value of `x`, perhaps with some zeros of its power written out. -/
def Spells (x : Decimal) (cs : List Char) : Prop :=
  ∃ y : Numeral, y.WellFormed Text.asciiDigitValue? ∧ y.text = cs ∧
    ∃ j : ℕ, y.value Text.asciiDigitValue? = ⟨x.digits * tenPow j, x.exponent - j⟩

/-- A numeral without a power. -/
lemma spells_of_point {n j : ℕ} {whole fraction : List Char}
    (hw : AllDigits Text.asciiDigitValue? whole) (hf : AllDigits Text.asciiDigitValue? fraction)
    (hne : whole ≠ []) (hn : valueOf Text.asciiDigitValue? (whole ++ fraction) = n * tenPow j)
    (he : e = j - fraction.length) : Spells ⟨n, e⟩ (whole ++ '.' :: fraction) := by
  refine ⟨⟨whole, some fraction, none⟩, ⟨hw, ?_, fun h => hne h.1, by simp⟩, ?_, j, ?_⟩
  · intro ds hds
    exact Option.some.inj hds ▸ hf
  · simp [text, fractionText, powerText]
  · simp only [value, Option.getD_some, powerValue, hn, he, Decimal.mk.injEq, true_and]
    omega

lemma spells_withPoint (hd : AllDigits Text.asciiDigitValue? ds) (hne : ds ≠ []) (k : ℤ) :
    Spells ⟨valueOf Text.asciiDigitValue? ds, k - ds.length⟩ (withPoint k ds) := by
  unfold withPoint
  split
  · -- the digits begin behind the point, after zeros
    rename_i hk
    refine spells_of_point (j := 0) allDigits_zero
      (allDigits_append (allDigits_zeros _) hd) (by simp) ?_ ?_
    · have hzeros := valueOf_zeros_append ((-k).toNat + 1) ds
      rw [List.replicate_succ, List.cons_append] at hzeros
      rw [List.singleton_append, hzeros]
      exact (Nat.mul_one _).symm
    · rw [List.length_append, List.length_replicate]
      omega
  · rename_i hk
    have htake : AllDigits Text.asciiDigitValue? (ds.take k.toNat) :=
      allDigits_of_subset hd (List.take_subset _ _)
    have htake_ne : ds.take k.toNat ≠ [] := by
      rw [ne_eq, List.take_eq_nil_iff]
      rintro (h | h)
      · omega
      · exact hne h
    dsimp only
    split
    · -- the digits end before the point, and zeros fill the rest
      rename_i hdrop
      have hlen : ds.length ≤ k.toNat := List.drop_eq_nil_iff.mp hdrop
      rw [List.take_of_length_le hlen]
      refine spells_of_point (j := k.toNat - ds.length + 1) (allDigits_append hd (allDigits_zeros _))
        allDigits_zero (by simp [hne]) ?_ ?_
      · rw [List.append_assoc, ← List.replicate_succ', valueOf_append_zeros hd]
      · rw [List.length_singleton]
        omega
    · -- the point stands between two digits
      rename_i hdrop
      have hlen : k.toNat < ds.length := by
        rwa [imp_false, List.drop_eq_nil_iff, not_le] at hdrop
      rw [Nat.sub_eq_zero_of_le hlen.le, List.replicate_zero, List.append_nil]
      refine spells_of_point (j := 0) htake (allDigits_of_subset hd (List.drop_subset _ _)) htake_ne
        ?_ ?_
      · rw [List.take_append_drop]
        exact (Nat.mul_one _).symm
      · rw [List.length_drop]
        omega

/-- The power of ten of a text. -/
def powerOf (e : ℤ) : Power :=
  ⟨'e', some (if e < 0 then '-' else '+'), (exponentText e).tail⟩

lemma powerText_powerOf (e : ℤ) : powerText (some (powerOf e)) = 'e' :: exponentText e := rfl

lemma digits_powerOf (e : ℤ) :
    AllDigits Text.asciiDigitValue? (powerOf e).digits ∧ (powerOf e).digits ≠ [] ∧
      valueOf Text.asciiDigitValue? (powerOf e).digits = e.natAbs := by
  have hd := allDigits_decimalDigits e.natAbs
  have hne : decimalDigits e.natAbs ≠ [] := Nat.toDigits_ne_nil
  have hvalue := valueOf_decimalDigits e.natAbs
  have hdigits : (powerOf e).digits = if (decimalDigits e.natAbs).length < 2 then
      List.replicate 1 '0' ++ decimalDigits e.natAbs else decimalDigits e.natAbs := rfl
  rw [hdigits]
  split
  · exact ⟨allDigits_append (allDigits_zeros 1) hd, by simp, by rw [valueOf_zeros_append, hvalue]⟩
  · exact ⟨hd, hne, hvalue⟩

lemma wellFormed_powerOf (e : ℤ) : WellFormedPower Text.asciiDigitValue? (powerOf e) := by
  obtain ⟨hd, hne, -⟩ := digits_powerOf e
  refine ⟨.inl rfl, fun s hs => ?_, hd, hne⟩
  obtain rfl := Option.some.inj hs
  split <;> simp

lemma powerValue_powerOf (e : ℤ) : powerValue Text.asciiDigitValue? (some (powerOf e)) = e := by
  rw [powerValue, (digits_powerOf e).2.2]
  by_cases he : e < 0
  · simp only [powerOf, if_pos he, if_true]
    omega
  · have hsign : (powerOf e).sign ≠ some '-' := by simp [powerOf, he]
    rw [if_neg hsign]
    omega

lemma spells_withExponent (hd : AllDigits Text.asciiDigitValue? ds) (hne : ds ≠ []) (e : ℤ) :
    Spells ⟨valueOf Text.asciiDigitValue? ds, e - (ds.length - 1)⟩ (withExponent e ds) := by
  have hpower : ∀ p ∈ some (powerOf e), WellFormedPower Text.asciiDigitValue? p := by
    intro p hp
    exact Option.some.inj hp ▸ wellFormed_powerOf e
  match ds with
  | [] => exact absurd rfl hne
  | [d] =>
    refine ⟨⟨[d], none, some (powerOf e)⟩, ⟨hd, by simp, by simp, hpower⟩, ?_, 0, ?_⟩
    · simp [text, fractionText, powerText_powerOf, withExponent]
    · simp [value, powerValue_powerOf, tenPow]
  | d :: f :: fs =>
    have hwhole : AllDigits Text.asciiDigitValue? [d] := allDigits_of_subset hd (by simp)
    have hfraction : AllDigits Text.asciiDigitValue? (f :: fs) := allDigits_of_subset hd (by simp)
    refine ⟨⟨[d], some (f :: fs), some (powerOf e)⟩, ⟨hwhole, ?_, by simp, hpower⟩, ?_, 0, ?_⟩
    · intro es hes
      exact Option.some.inj hes ▸ hfraction
    · simp [text, fractionText, powerText_powerOf, withExponent]
    · simp [value, powerValue_powerOf, tenPow]

/-- **The text of a decimal is a numeral of its value.** -/
theorem spells_chars (x : Decimal) : Spells x x.chars := by
  have hd := allDigits_decimalDigits x.digits
  have hne : decimalDigits x.digits ≠ [] := Nat.toDigits_ne_nil
  have hplace : x.place = x.exponent + (decimalDigits x.digits).length - 1 := rfl
  unfold chars
  dsimp only
  split
  · have h := spells_withPoint hd hne (x.place + 1)
    have he : x.place + 1 - (decimalDigits x.digits).length = x.exponent := by omega
    rwa [valueOf_decimalDigits, he] at h
  · have h := spells_withExponent hd hne x.place
    have he : x.place - ((decimalDigits x.digits).length - 1) = x.exponent := by omega
    rwa [valueOf_decimalDigits, he] at h

end Abacus.Decimal

namespace Abacus

open Numeral

/-! ### The text of a double -/

/-- A numeral in the digits `0` to `9` that reads as the magnitude. -/
structure Numeral.Means (y : Numeral) (m : Magnitude) : Prop where
  wellFormed : y.WellFormed Text.asciiDigitValue?
  reads : ∀ negative, (y.value Text.asciiDigitValue?).toDouble negative = .finite negative m

namespace Double

variable (s : Bool) (m : Magnitude)

lemma exists_numeral_text :
    ∃ y : Numeral, y.Means m ∧ (finite s m).text = String.ofList (signChars s y.text) := by
  by_cases hm : m.mantissa = 0
  · refine ⟨⟨['0'], some ['0'], none⟩, ⟨⟨allDigits_zero, ?_, by simp, by simp⟩, ?_⟩, ?_⟩
    · intro ds hds
      exact Option.some.inj hds ▸ allDigits_zero
    · intro negative
      rw [Magnitude.eq_zero hm]
      rfl
    · rw [Double.text, chars, if_pos hm]
      rfl
  · obtain ⟨y, hy, htext, j, hvalue⟩ := Decimal.spells_chars m.shortest
    refine ⟨y, ⟨hy, fun negative => ?_⟩, ?_⟩
    · rw [hvalue]
      -- the shortest digits stand for the same number wherever the point is put
      exact Decimal.toDouble_of_reads
        (Decimal.toDouble_shift hm (Decimal.toDouble_shortest hm) j) negative
    · rw [Double.text, chars, if_neg hm, htext]

/-- The text that is shown has no sign if the number is zero. -/
lemma exists_numeral_display :
    ∃ y : Numeral, y.Means m ∧
      (finite s m).display = String.ofList (signChars (s && m.mantissa != 0) y.text) := by
  unfold display
  split
  · rename_i s' m' heq
    obtain ⟨rfl, rfl⟩ := Double.finite.inj heq
    split
    · rename_i h
      -- a whole number below 10 ^ 16, written without a point and without the sign of a zero
      have hnum : m.num / m.den * m.den = m.num := Nat.div_mul_cancel (Nat.dvd_of_mod_eq_zero h.1)
      have hzero : m.num / m.den = 0 ↔ m.mantissa = 0 := by
        constructor
        · intro h0
          by_contra hm
          rw [h0, Nat.zero_mul] at hnum
          exact Magnitude.num_ne_zero hm hnum.symm
        · intro hm
          rw [Magnitude.num, hm, Nat.zero_mul, Nat.zero_div]
      refine ⟨⟨decimalDigits (m.num / m.den), none, none⟩, ⟨⟨allDigits_decimalDigits _, by simp, ?_,
        by simp⟩, ?_⟩, ?_⟩
      · exact fun h => Nat.toDigits_ne_nil h.1
      · intro negative
        have hvalue : value Text.asciiDigitValue? ⟨decimalDigits (m.num / m.den), none, none⟩ =
            ⟨m.num / m.den, 0⟩ := by
          simp [value, powerValue, valueOf_decimalDigits]
        rw [hvalue]
        exact Decimal.toDouble_of_reads (Decimal.toDouble_whole hnum) negative
      · have hsign : (m.num / m.den != 0) = (m.mantissa != 0) := by
          rw [bne, bne, Bool.eq_iff_iff]
          simp [hzero]
        rw [wholeText, hsign]
        simp [Numeral.text, fractionText, powerText]
    · rename_i h
      have hm : m.mantissa ≠ 0 := by
        intro hm
        refine h ⟨?_, ?_⟩ <;> rw [Magnitude.num, hm, Nat.zero_mul]
        · exact Nat.zero_mod _
        · rw [Nat.zero_div]
          exact Decimal.tenPow_pos 16
      obtain ⟨y, hy, htext⟩ := exists_numeral_text s m
      exact ⟨y, hy, by rw [htext, bne_iff_ne.mpr hm, Bool.and_true]⟩
  · rename_i h
    exact absurd rfl (h s m)

end Double

end Abacus
