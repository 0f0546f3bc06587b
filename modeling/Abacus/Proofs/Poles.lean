import Mathlib.Data.EReal.Basic
import Abacus.Elementary.Standard
import Abacus.Proofs.InfinitePowers

/-!
Functions at their poles. Logarithms and the inverse hyperbolic tangent increase, and where they are
infinite they refuse to answer as they do outside of their domain. What stands for such an answer is
NaN, so their values are in order just away from the poles. The logarithm to a base is a quotient of
logarithms whose divisor is neither zero nor infinite, so it is NaN just where its dividend is.
-/

namespace Abacus.Proofs.Poles

open Double hiding neg_neg
open Functions
open InfinitePowers (signedReal)

variable {u v w x y z b : Double} {s t : Bool} {p q : Magnitude}

/-! ### The order of the doubles -/

/-- Both are numbers, and the second is not less than the first. -/
def AtMost (v w : Double) : Prop := v.isNaN = false ∧ w.isNaN = false ∧ w.lt v = false

instance : Decidable (AtMost v w) := inferInstanceAs (Decidable (_ ∧ _ ∧ _))

/-- The number that a double is, among the real numbers and the infinities. -/
noncomputable def toEReal? : Double → Option EReal
  | .nan => none
  | .inf s => some (if s then ⊥ else ⊤)
  | .finite s p => some (signedReal s p : ℝ)

lemma signedReal_eq (s : Bool) (p : Magnitude) : signedReal s p = (signed s p.num : ℝ) / p.den := by
  rw [signedReal, signed, Magnitude.toReal_eq]
  cases s
  · simp
  · simp [neg_div]

lemma signed_mul (s : Bool) (m n : ℕ) : signed s (m * n) = signed s m * n := by
  cases s <;> simp [signed]

lemma lt_finite_iff :
    (Double.finite s p).lt (.finite t q) = true ↔ signedReal s p < signedReal t q := by
  have hp : (0 : ℝ) < p.den := by exact_mod_cast p.den_pos
  have hq : (0 : ℝ) < q.den := by exact_mod_cast q.den_pos
  rw [signedReal_eq, signedReal_eq, div_lt_div_iff₀ hp hq, lt, decide_eq_true_iff, signed_mul,
    signed_mul]
  exact_mod_cast Iff.rfl

/-- **The order is that of the numbers.** -/
theorem lt_iff :
    v.lt w = true ↔ ∃ a c, toEReal? v = some a ∧ toEReal? w = some c ∧ a < c := by
  cases v with
  | nan => simp [lt, toEReal?]
  | inf s => cases w with
    | nan => simp [lt, toEReal?]
    | inf t => cases s <;> cases t <;> simp [lt, toEReal?]
    | finite t q => cases s <;> simp [lt, toEReal?, EReal.bot_lt_coe]
  | finite s p => cases w with
    | nan => simp [lt, toEReal?]
    | inf t => cases t <;> simp [lt, toEReal?, EReal.coe_lt_top]
    | finite t q => simp [lt_finite_iff, toEReal?]

lemma isNaN_eq_false_iff : v.isNaN = false ↔ ∃ a, toEReal? v = some a := by
  cases v <;> simp [toEReal?, isNaN]

lemma atMost_iff : AtMost v w ↔ ∃ a c, toEReal? v = some a ∧ toEReal? w = some c ∧ a ≤ c := by
  constructor
  · rintro ⟨hv, hw, hlt⟩
    obtain ⟨a, ha⟩ := isNaN_eq_false_iff.mp hv
    obtain ⟨c, hc⟩ := isNaN_eq_false_iff.mp hw
    refine ⟨a, c, ha, hc, not_lt.mp fun h => ?_⟩
    rw [lt_iff.mpr ⟨c, a, hc, ha, h⟩] at hlt
    contradiction
  · rintro ⟨a, c, ha, hc, hle⟩
    refine ⟨isNaN_eq_false_iff.mpr ⟨a, ha⟩, isNaN_eq_false_iff.mpr ⟨c, hc⟩, ?_⟩
    rw [Bool.eq_false_iff, Ne, lt_iff]
    rintro ⟨c', a', hc', ha', hlt⟩
    obtain rfl : c = c' := Option.some.inj (hc.symm.trans hc')
    obtain rfl : a = a' := Option.some.inj (ha.symm.trans ha')
    exact absurd hle (not_le.mpr hlt)

lemma AtMost.ne_nan (h : AtMost v w) : v ≠ .nan ∧ w ≠ .nan := by
  constructor <;> rintro rfl <;> simp [AtMost, isNaN] at h

lemma AtMost.refl (hv : v.isNaN = false) : AtMost v v := by
  obtain ⟨a, ha⟩ := isNaN_eq_false_iff.mp hv
  exact atMost_iff.mpr ⟨a, a, ha, ha, le_rfl⟩

lemma lt_of_lt_of_atMost (h : u.lt v = true) (h' : AtMost v w) : u.lt w = true := by
  obtain ⟨a, b, ha, hb, hab⟩ := lt_iff.mp h
  obtain ⟨b', c, hb', hc, hbc⟩ := atMost_iff.mp h'
  obtain rfl : b = b' := Option.some.inj (hb.symm.trans hb')
  exact lt_iff.mpr ⟨a, c, ha, hc, hab.trans_le hbc⟩

lemma lt_of_atMost_of_lt (h : AtMost u v) (h' : v.lt w = true) : u.lt w = true := by
  obtain ⟨a, b, ha, hb, hab⟩ := atMost_iff.mp h
  obtain ⟨b', c, hb', hc, hbc⟩ := lt_iff.mp h'
  obtain rfl : b = b' := Option.some.inj (hb.symm.trans hb')
  exact lt_iff.mpr ⟨a, c, ha, hc, hab.trans_lt hbc⟩

lemma signedReal_eq_iff :
    signedReal s p = signedReal t q ↔ s = t ∧ p = q ∨ p.mantissa = 0 ∧ q.mantissa = 0 := by
  have hp := p.toReal_nonneg
  have hq := q.toReal_nonneg
  rw [← Magnitude.toReal_eq_zero_iff, ← Magnitude.toReal_eq_zero_iff]
  constructor
  · intro h
    cases s <;> cases t <;> simp only [signedReal, if_true, Bool.false_eq_true, if_false] at h
    · exact .inl ⟨rfl, Magnitude.toReal_injective h⟩
    · exact .inr ⟨by linarith, by linarith⟩
    · exact .inr ⟨by linarith, by linarith⟩
    · exact .inl ⟨rfl, Magnitude.toReal_injective (neg_injective h)⟩
  · rintro (⟨rfl, rfl⟩ | ⟨hp, hq⟩)
    · rfl
    · simp [signedReal, hp, hq]

/-- Of the doubles only the zeros are one number. -/
lemma toEReal?_eq_iff :
    toEReal? v = toEReal? w ↔ v = w ∨ v.isZero = true ∧ w.isZero = true := by
  cases v with
  | nan => cases w <;> simp [toEReal?, isZero]
  | inf s => cases w with
    | nan => simp [toEReal?, isZero]
    | inf t => cases s <;> cases t <;> simp [toEReal?, isZero]
    | finite t q => cases s <;> simp [toEReal?, isZero]
  | finite s p => cases w with
    | nan => simp [toEReal?, isZero]
    | inf t => cases t <;> simp [toEReal?, isZero]
    | finite t q => simp [toEReal?, isZero, signedReal_eq_iff]

lemma lt_iff_of_atMost (h : AtMost v w) :
    v.lt w = true ↔ v ≠ w ∧ ¬ (v.isZero = true ∧ w.isZero = true) := by
  obtain ⟨a, c, ha, hc, hle⟩ := atMost_iff.mp h
  rw [← not_or, ← toEReal?_eq_iff, lt_iff]
  simp [ha, hc, hle.lt_iff_ne]

/-! ### Functions that increase between poles -/

/-- What is documented of an increasing function at some arguments: it refuses to answer outside of
its domain and at its poles, and what it answers inside is in order. -/
structure Increasing (g : Double → Answer) (Inside : Double → Prop) (zs : List Double) : Prop where
  outside : ∀ z ∈ zs, z.isNaN = false → ¬ Inside z → g z = .error .domain
  inside : ∀ z ∈ zs, Inside z → (g z).isOk = true
  ordered : ∀ z ∈ zs, ∀ w ∈ zs, AtMost z w → (g z).isOk = true → (g w).isOk = true →
    AtMost (g z).value (g w).value

section

variable {g : Double → Answer} {Inside : Double → Prop} {zs : List Double}

instance [DecidablePred Inside] : Decidable (Increasing g Inside zs) :=
  decidable_of_iff (_ ∧ _ ∧ _) ⟨fun h => ⟨h.1, h.2.1, h.2.2⟩, fun h => ⟨h.1, h.2, h.3⟩⟩

lemma Increasing.value_eq_nan_iff (h : Increasing g Inside zs) (hz : z ∈ zs)
    (hnan : z.isNaN = false) : (g z).value = .nan ↔ ¬ Inside z := by
  constructor
  · intro hvalue hinside
    have hok := h.inside z hz hinside
    have hself := h.ordered z hz z hz (.refl hnan) hok hok
    rw [hvalue] at hself
    exact absurd hself (by decide)
  · intro hnot
    rw [h.outside z hz hnan hnot]
    rfl

lemma Increasing.atMost_value_iff (h : Increasing g Inside zs) (hx : x ∈ zs) (hy : y ∈ zs)
    (hxy : AtMost x y) : AtMost (g x).value (g y).value ↔ Inside x ∧ Inside y := by
  constructor
  · intro hvalue
    obtain ⟨hx', hy'⟩ := hvalue.ne_nan
    rw [Ne, h.value_eq_nan_iff hx hxy.1, not_not] at hx'
    rw [Ne, h.value_eq_nan_iff hy hxy.2.1, not_not] at hy'
    exact ⟨hx', hy'⟩
  · rintro ⟨hx', hy'⟩
    exact h.ordered x hx y hy hxy (h.inside x hx hx') (h.inside y hy hy')

end

/-! ### The domains -/

/-- Where logarithms are numbers. -/
def Positive (z : Double) : Prop := Double.lt (.zero false) z = true

/-- Where the inverse hyperbolic tangent is a number. -/
def BetweenOnes (z : Double) : Prop := (-one).lt z = true ∧ z.lt one = true

instance : DecidablePred Positive := fun _ => inferInstanceAs (Decidable (_ = _))

instance : DecidablePred BetweenOnes := fun _ => inferInstanceAs (Decidable (_ ∧ _))

lemma positive_iff (hz : AtMost (.zero false) z) : Positive z ↔ z.isZero = false := by
  rw [Positive, lt_iff_of_atMost hz, Bool.eq_false_iff]
  refine ⟨fun h hzero => h.2 ⟨rfl, hzero⟩, fun h => ⟨?_, fun hzero => h hzero.2⟩⟩
  rintro rfl
  exact h rfl

lemma positive_and_iff (hx : AtMost (.zero false) x) (hxy : AtMost x y) :
    Positive x ∧ Positive y ↔ x.isZero = false := by
  rw [← positive_iff hx]
  exact ⟨fun h => h.1, fun h => ⟨h, lt_of_lt_of_atMost h hxy⟩⟩

lemma betweenOnes_and_iff (hx : AtMost (-one) x) (hxy : AtMost x y) (hy : AtMost y one) :
    BetweenOnes x ∧ BetweenOnes y ↔ x ≠ -one ∧ y ≠ one := by
  have hlow : (-one).lt x = true ↔ x ≠ -one := by
    have hone : (-one).isZero = false := by decide
    rw [lt_iff_of_atMost hx, hone, ne_comm]
    simp
  have hhigh : y.lt one = true ↔ y ≠ one := by
    have hone : one.isZero = false := by decide
    rw [lt_iff_of_atMost hy, hone]
    simp
  rw [← hlow, ← hhigh]
  constructor
  · rintro ⟨hx', hy'⟩
    exact ⟨hx'.1, hy'.2⟩
  · rintro ⟨hx', hy'⟩
    exact ⟨⟨hx', lt_of_atMost_of_lt hxy hy'⟩, lt_of_lt_of_atMost hx' hxy, hy'⟩

/-! ### Logarithms and the inverse hyperbolic tangent -/

lemma ofRatio_ne_nan (s : Bool) (n d : ℕ) : ofRatio s n d ≠ .nan := by
  rw [ofRatio]
  split <;> simp

/-- A quotient by a finite number that is not zero is NaN only if the dividend is. -/
lemma div_eq_nan_iff (hnan : w.isNaN = false) (hinf : w.isInfinite = false)
    (hzero : w.isZero = false) : v / w = .nan ↔ v = .nan := by
  cases w with
  | nan => contradiction
  | inf t => contradiction
  | finite t q =>
    have hq : q.mantissa ≠ 0 := by simpa [isZero] using hzero
    change v.div (.finite t q) = .nan ↔ _
    cases v with
    | nan => simp [div]
    | inf s => simp [div]
    | finite s p => simp [div, hq, ofRatio_ne_nan]

variable (m : Elementary)

/-- The logarithms among the functions of one argument, each with the function that it relies on. -/
def logarithms : List (String × (Double → Answer)) :=
  [("log", m.log), ("ln", m.log), ("log10", m.log10), ("log2", m.log2)]

lemma builtinUnary_logarithms : ∀ p ∈ logarithms m,
    builtinUnary m p.1 = some fun x => (p.2 x).value := by
  simp only [logarithms, List.forall_mem_cons, List.not_mem_nil, false_implies, implies_true,
    and_true]
  exact ⟨rfl, rfl, rfl, rfl⟩

/-- What is documented of the elementary functions at two arguments and a base: they increase, and
the logarithm of a finite base other than one is a finite number other than zero. -/
structure Documented (b x y : Double) : Prop where
  logarithms : ∀ p ∈ logarithms m, Increasing p.2 Positive [x, y]
  atanh : Increasing m.atanh BetweenOnes [x, y]
  base : Positive b → b.isInfinite = false → b ≠ one → (m.log b).isOk = true ∧
    (m.log b).value.isNaN = false ∧ (m.log b).value.isInfinite = false ∧
    (m.log b).value.isZero = false

instance : Decidable (Documented m b x y) :=
  decidable_of_iff (_ ∧ _ ∧ _) ⟨fun h => ⟨h.1, h.2.1, h.2.2⟩, fun h => ⟨h.1, h.2, h.3⟩⟩

variable {m}

/-- **Values are in order away from the poles.** The logarithms of two numbers from zero to infinity
are numbers in the same order unless the lesser one is zero, whose logarithm is NaN; so it is with
the inverse hyperbolic tangent from minus one to one, both of which are poles. A logarithm to a base
other than one is NaN just for zero. -/
theorem builtins_increasing (hm : Documented m b x y) (hxy : AtMost x y) :
    (AtMost (.zero false) x → ∀ name g, (name, g) ∈ logarithms m →
        ∃ f, builtinUnary m name = some f ∧ (AtMost (f x) (f y) ↔ x.isZero = false) ∧
          (x.isZero = true → f x = .nan)) ∧
      (AtMost (-one) x → AtMost y one →
        ∃ f, builtinUnary m "atanh" = some f ∧ (AtMost (f x) (f y) ↔ x ≠ -one ∧ y ≠ one) ∧
          (x = -one → f x = .nan) ∧ (y = one → f y = .nan)) ∧
      (Positive b → b.isInfinite = false → b ≠ one → AtMost (.zero false) x →
        ∃ f, builtinBinary m "log" = some f ∧ (f b x = .nan ↔ x.isZero = true)) := by
  have hxs : x ∈ [x, y] := by simp
  have hys : y ∈ [x, y] := by simp
  refine ⟨fun hx name g hg => ?_, fun hx hy => ?_, fun hb hinf hne hx => ?_⟩
  · have hlog := hm.logarithms _ hg
    refine ⟨_, builtinUnary_logarithms m _ hg, ?_, fun hzero => ?_⟩
    · exact (hlog.atMost_value_iff hxs hys hxy).trans (positive_and_iff hx hxy)
    · refine (hlog.value_eq_nan_iff hxs hxy.1).mpr ?_
      simp [positive_iff hx, hzero]
  · refine ⟨_, rfl, ?_, ?_, ?_⟩
    · exact (hm.atanh.atMost_value_iff hxs hys hxy).trans (betweenOnes_and_iff hx hxy hy)
    · rintro rfl
      exact (hm.atanh.value_eq_nan_iff hxs hxy.1).mpr (by decide)
    · rintro rfl
      exact (hm.atanh.value_eq_nan_iff hys hxy.2.1).mpr (by decide)
  · -- a quotient of finite numbers with a base that is not one is nan only at the pole
    have hlog := hm.logarithms ("log", m.log) (by simp [logarithms])
    obtain ⟨-, hnan, hfinite, hzero⟩ := hm.base hb hinf hne
    refine ⟨m.logBase, rfl, ?_⟩
    rw [Elementary.logBase, div_eq_nan_iff hnan hfinite hzero, hlog.value_eq_nan_iff hxs hxy.1,
      positive_iff hx, Bool.not_eq_false]

theorem builtins_increasing_half :
    Documented .standard half half one ∧ AtMost half one ∧
      (∃ f, builtinUnary .standard "log2" = some f ∧ AtMost (f half) (f one)) ∧
      (∃ f, builtinUnary .standard "atanh" = some f ∧ f one = .nan) ∧
      ∃ f, builtinBinary .standard "log" = some f ∧ f half half ≠ .nan := by
  have hm : Documented .standard half half one := by decide +kernel
  have hle : AtMost half one := by decide +kernel
  have hzero : half.isZero = false := by decide
  obtain ⟨hlogs, hatanh, hbase⟩ := builtins_increasing hm hle
  have hpositive : AtMost (.zero false) half := by decide +kernel
  obtain ⟨log2, hlog2, hiff, -⟩ :=
    hlogs hpositive "log2" Exponential.log2 (by simp [logarithms]; rfl)
  obtain ⟨atanh, hatanh, -, -, hpole⟩ := hatanh (by decide +kernel) (.refl rfl)
  obtain ⟨log, hlog, hnan⟩ := hbase (by decide +kernel) rfl (by decide +kernel) hpositive
  exact ⟨hm, hle, ⟨log2, hlog2, hiff.mpr hzero⟩, ⟨atanh, hatanh, hpole rfl⟩,
    log, hlog, by simp [hnan, hzero]⟩

/-- The logarithm of zero is NaN, and so is a logarithm of zero to a base. -/
theorem not_forall_builtins_increasing :
    ¬ ∀ (m : Elementary) (b x y : Double), Documented m b x y → AtMost x y →
      (AtMost (.zero false) x → ∀ name g, (name, g) ∈ logarithms m →
          ∃ f, builtinUnary m name = some f ∧ AtMost (f x) (f y)) ∧
        (AtMost (-one) x → AtMost y one →
          ∃ f, builtinUnary m "atanh" = some f ∧ AtMost (f x) (f y)) ∧
        (Positive b → b.isInfinite = false → b ≠ one → AtMost (.zero false) x →
          ∃ f, builtinBinary m "log" = some f ∧ f b x ≠ .nan) := by
  intro h
  obtain ⟨hlogs, -⟩ := h .standard half (.zero false) one (by decide +kernel)
    (by decide +kernel)
  obtain ⟨f, hf, hle⟩ := hlogs (.refl rfl) "log" Exponential.log (by simp [logarithms]; rfl)
  cases hf
  exact absurd hle (by decide +kernel)

end Abacus.Proofs.Poles
