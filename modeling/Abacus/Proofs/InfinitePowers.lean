import Mathlib.Analysis.SpecialFunctions.Pow.Real
import Abacus.Elementary.Standard
import Abacus.Proofs.Report
import Abacus.Proofs.Rounding

/-!
Powers that are infinite. A power overflows, or zero is raised to a negative exponent; the exponential
function that powers rely on refuses to answer then, and what stands for its answer is an infinity
with a sign of its own. An odd power of a base with a negative sign is negative: so it is for a base
that overflows, but not for negative zero, the powers of which all are positive.
-/

namespace Abacus.Proofs.InfinitePowers

open Double Report Uses

variable {m : Elementary} {x y : Double} {b : Magnitude} {s t : Bool} {k : ℕ}

/-! ### Odd exponents -/

/-- An odd whole number of either sign. -/
def IsOdd (y : Double) : Prop := ∃ t b, ∃ k : ℕ, y = .finite t b ∧ b.toReal = k ∧ Odd k

lemma toReal_eq_natCast_iff : b.toReal = k ↔ b.num = k * b.den := by
  have hden : (b.den : ℝ) ≠ 0 := by exact_mod_cast b.den_pos.ne'
  rw [Magnitude.toReal_eq, div_eq_iff hden]
  exact_mod_cast Iff.rfl

lemma signed_emod_two : signed t k % 2 = 1 ↔ Odd k := by
  rw [Nat.odd_iff, signed]
  split <;> omega

lemma isOddExponent_iff : Elementary.isOddExponent y = true ↔ IsOdd y := by
  constructor
  · intro h
    cases y with
    | nan => contradiction
    | inf s => contradiction
    | finite t b =>
      rw [Elementary.isOddExponent, toInt?] at h
      split at h
      · rename_i i hi
        split at hi
        · rename_i hmod
          cases hi
          refine ⟨t, b, b.num / b.den, rfl, ?_, signed_emod_two.mp (by simpa using h)⟩
          exact toReal_eq_natCast_iff.mpr (Nat.div_mul_cancel (Nat.dvd_of_mod_eq_zero hmod)).symm
        · contradiction
      · contradiction
  · rintro ⟨t, b, k, rfl, hk, hodd⟩
    rw [toReal_eq_natCast_iff] at hk
    have hmod : b.num % b.den = 0 := by rw [hk, Nat.mul_mod_left]
    have hdiv : b.num / b.den = k := by rw [hk, Nat.mul_div_cancel _ b.den_pos]
    rw [Elementary.isOddExponent, toInt?, if_pos hmod, hdiv]
    simpa using signed_emod_two.mpr hodd

/-- Below zero is what has a negative sign and is not a zero. -/
lemma lt_zero_iff : x.lt (.zero false) = true ↔ x.isNegative = true ∧ x.isZero = false := by
  cases x with
  | nan => simp [lt, isNegative]
  | inf s => simp [lt, zero, isNegative, isZero]
  | finite s a =>
    have hnum : a.num = 0 ↔ a.mantissa = 0 :=
      ⟨fun h => by_contra fun hm => Magnitude.num_ne_zero hm h,
        fun h => by rw [Magnitude.num, h, Nat.zero_mul]⟩
    have hzero : Magnitude.zero.num = 0 := Nat.zero_mul _
    have hden := Magnitude.zero.den_pos
    rw [zero, lt, hzero]
    generalize Magnitude.zero.den = d at hden
    cases s <;> simp [isNegative, isZero, signed, hden, Nat.pos_iff_ne_zero, hnum]

/-! ### Powers without a finite value -/

/-- The number that a sign and a magnitude are. -/
noncomputable def signedReal (t : Bool) (b : Magnitude) : ℝ := if t then -b.toReal else b.toReal

/-- The power of finite numbers is beyond the largest double. A negative base has whole powers
only. -/
inductive Overflows : Double → Double → Prop
  | finite {s t : Bool} {a b : Magnitude} (hwhole : s = true → ∃ k : ℕ, b.toReal = k)
      (hpower : Magnitude.overflow ≤ a.toReal ^ signedReal t b) :
      Overflows (.finite s a) (.finite t b)

/-- A zero has no negative power, and a negative number only whole ones. -/
inductive Undefined : Double → Double → Prop
  | zero (s : Bool) {b : Magnitude} (hb : b.mantissa ≠ 0) : Undefined (.zero s) (.finite true b)
  | negative {t : Bool} {a b : Magnitude} (ha : a.mantissa ≠ 0) (hb : ∀ k : ℕ, b.toReal ≠ k) :
      Undefined (.finite true a) (.finite t b)

/-- What is documented of the powers at two arguments: when they refuse to answer, and what a zero to
the exponent of negative infinity is. -/
structure Documented (m : Elementary) (x y : Double) : Prop where
  range : m.pow x y = .error .range ↔ Overflows x y
  domain : m.pow x y = .error .domain ↔ Undefined x y
  zero : x.isZero = true → y = .inf true → m.pow x y = .ok (.inf false)

lemma one_lt_overflow : (1 : ℝ) < Magnitude.overflow := by
  have hone : (1 : ℝ) ≤ 2 ^ (971 : ℤ) := one_le_zpow₀ one_le_two (by decide)
  rw [Magnitude.cast_overflow]
  generalize (2 : ℝ) ^ (971 : ℤ) = p at *
  linarith

lemma not_overflows_zero : ¬ Overflows (.zero s) y := by
  rintro ⟨-, hpower⟩
  rw [Magnitude.toReal_zero] at hpower
  exact absurd (hpower.trans (Real.zero_rpow_le_one _)) (not_le.mpr one_lt_overflow)

lemma eq_zero_of_isZero (hx : x.isZero = true) : x = .zero x.isNegative := by
  cases x with
  | nan => contradiction
  | inf s => contradiction
  | finite s a =>
    obtain rfl := Magnitude.eq_zero (x := a) (by simpa [isZero] using hx)
    rfl

lemma Overflows.isZero_eq_false (h : Overflows x y) : x.isZero = false := by
  by_contra hx
  rw [Bool.not_eq_false] at hx
  exact not_overflows_zero (eq_zero_of_isZero hx ▸ h)

/-! ### The sign -/

/-- The infinity that a power is: negative just for an odd power of a base with a negative sign. -/
def IsInfinity (x y v : Double) : Prop :=
  ∃ s, v = .inf s ∧ (s = true ↔ x.isNegative = true ∧ IsOdd y)

lemma isInfinity_inf : IsInfinity x y (.inf s) ↔ (s = true ↔ x.isNegative = true ∧ IsOdd y) := by
  simp [IsInfinity]

lemma power_of_overflows (hm : Documented m x y) (h : Overflows x y) :
    IsInfinity x y (m.power x y) := by
  have hsign : x.lt (.zero false) = true ↔ x.isNegative = true := by
    simp [lt_zero_iff, h.isZero_eq_false]
  rw [Elementary.power, hm.range.mpr h]
  dsimp only
  split
  · rename_i hodd
    rw [Bool.and_eq_true, hsign, isOddExponent_iff] at hodd
    exact ⟨true, rfl, by simp [hodd]⟩
  · rename_i hodd
    rw [Bool.and_eq_true, hsign, isOddExponent_iff] at hodd
    exact ⟨false, rfl, by simp [hodd]⟩

lemma power_of_isZero (hm : Documented m x y) (hx : x.isZero = true) (hneg : y.isNegative = true)
    (hy : y.isZero = false) : m.power x y = .inf false := by
  cases y with
  | nan => contradiction
  | inf t =>
    obtain rfl : t = true := hneg
    rw [Elementary.power, hm.zero hx rfl]
  | finite t b =>
    obtain rfl : t = true := hneg
    have hundefined : Undefined x (.finite true b) := by
      rw [eq_zero_of_isZero hx]
      exact .zero _ (by simpa [isZero] using hy)
    have hlt := lt_zero_iff.mpr ⟨rfl, hy⟩
    rw [Elementary.power, hm.domain.mpr hundefined]
    simp [hx, hlt]

/-! ### Operator and function -/

section Operands

variable {sc : Scope} {l r : Expr} {v : Double}

lemma outcome_eq_value_iff {e : Expr} :
    sc.outcome e = .value v ↔ (report sc (uses e)).isEmpty = true ∧ value sc e = v := by
  rw [outcome_eq]
  split <;> simp [*]

lemma isEmpty_report_append {us vs : List Use} (hus : (report sc us).isEmpty = true)
    (hvs : (report sc vs).isEmpty = true) : (report sc (us ++ vs)).isEmpty = true := by
  rw [isEmpty_report] at hus hvs ⊢
  rw [references_append, calls_append, List.forall_mem_append, List.forall_mem_append]
  exact ⟨⟨hus.1, hvs.1⟩, hus.2, hvs.2⟩

lemma outcome_binary (hl : sc.outcome l = .value x) (hr : sc.outcome r = .value y) (op : Operator) :
    sc.outcome (.binary op l r) = .value (sc.apply op x y) := by
  obtain ⟨hsl, rfl⟩ := outcome_eq_value_iff.mp hl
  obtain ⟨hsr, rfl⟩ := outcome_eq_value_iff.mp hr
  exact outcome_eq_value_iff.mpr ⟨isEmpty_report_append hsl hsr, rfl⟩

lemma outcome_call_pair {name : String} {f : Double → Double → Double}
    (hf : sc.functions.binary name = some f) (hl : sc.outcome l = .value x)
    (hr : sc.outcome r = .value y) (pos : ℕ) :
    sc.outcome (.call name pos [l, r]) = .value (f x y) := by
  obtain ⟨hsl, rfl⟩ := outcome_eq_value_iff.mp hl
  obtain ⟨hsr, rfl⟩ := outcome_eq_value_iff.mp hr
  have hcall : (report sc [.call name 2]).isEmpty = true :=
    (isEmpty_report _ _).mpr ⟨by simp [references], by simp [calls, callable, hf]⟩
  have hargs : usesAll [l, r] = uses l ++ uses r := by simp [usesAll]
  refine outcome_eq_value_iff.mpr ⟨?_, ?_⟩
  · exact isEmpty_report_append (hargs ▸ isEmpty_report_append hsl hsr) hcall
  · simp [value, values, callValue, Scope.call, hf]
    rfl

end Operands

/-- The operator and the function both give the double for operands with these values. -/
def BothGive (m : Elementary) (x y v : Double) : Prop :=
  ∀ (vars : Snapshot) (implied : Bool) (l r : Expr),
    (scope (.builtin m) implied vars).outcome l = .value x →
    (scope (.builtin m) implied vars).outcome r = .value y →
    (scope (.builtin m) implied vars).outcome (.binary .pow l r) = .value v ∧
      ∀ pos, (scope (.builtin m) implied vars).outcome (.call "pow" pos [l, r]) = .value v

lemma bothGive_power : BothGive m x y (m.power x y) :=
  fun _ _ _ _ hl hr => ⟨outcome_binary hl hr .pow, outcome_call_pair rfl hl hr⟩

/-- **An infinite power has the right sign, unless it is one of negative zero.** If a power overflows,
or zero is raised to a negative exponent, then it is negative just for an odd power of a base with a
negative sign; only the odd powers of negative zero are positive. The operator and the function both
give this power. -/
theorem power_infinite (hm : Documented m x y)
    (h : Overflows x y ∨ x.isZero = true ∧ y.isNegative = true ∧ y.isZero = false) :
    (IsInfinity x y (m.power x y) ↔ ¬ (x = .zero true ∧ IsOdd y)) ∧
      (x = .zero true → IsOdd y → m.power x y = .inf false) ∧ BothGive m x y (m.power x y) := by
  rcases h with h | ⟨hx, hneg, hy⟩
  · have hne : x ≠ .zero true := by
      rintro rfl
      exact not_overflows_zero h
    exact ⟨by simp [power_of_overflows hm h, hne], fun hx => absurd hx hne, bothGive_power⟩
  · have hpower := power_of_isZero hm hx hneg hy
    refine ⟨?_, fun _ _ => hpower, bothGive_power⟩
    rw [hpower, isInfinity_inf, eq_zero_of_isZero hx]
    simp [zero, isNegative]

def three : Magnitude := ⟨3 * twoPow 51, -51, by decide⟩

lemma toReal_three : three.toReal = (3 : ℕ) := toReal_eq_natCast_iff.mpr (by decide +kernel)

/-- The largest power of two among the doubles. -/
def highest : Magnitude := ⟨twoPow 52, 971, by decide⟩

theorem power_infinite_cube :
    Documented .standard (.finite true highest) (.finite false three) ∧
      Overflows (.finite true highest) (.finite false three) ∧
      Elementary.standard.power (.finite true highest) (.finite false three) = .inf true ∧
      (scope (.builtin .standard) false ⟨[]⟩).outcome
        (.binary .pow (.number (.finite true highest)) (.number (.finite false three))) =
          .value (.inf true) := by
  have hpower : Magnitude.overflow ≤ highest.toReal ^ signedReal false three := by
    have hone : (1 : ℝ) ≤ 2 ^ (971 : ℤ) := one_le_zpow₀ one_le_two (by decide)
    have hexponent : signedReal false three = (3 : ℕ) := toReal_three
    have hhighest : highest.toReal = 2 ^ 52 * 2 ^ (971 : ℤ) := by
      rw [Magnitude.toReal, highest, Magnitude.cast_twoPow_real]
    rw [hexponent, Real.rpow_natCast, hhighest, Magnitude.cast_overflow]
    generalize (2 : ℝ) ^ (971 : ℤ) = p at *
    -- with p for the unit, the cube of 2 ^ 52 * p is beyond 2 ^ 53 * p
    nlinarith [pow_le_pow_right₀ hone (by decide : 1 ≤ 3)]
  have hover : Overflows (.finite true highest) (.finite false three) :=
    .finite (fun _ => ⟨3, toReal_three⟩) hpower
  have hdoc : Documented .standard (.finite true highest) (.finite false three) := by
    refine ⟨iff_of_true (by decide +kernel) hover, iff_of_false (by decide +kernel) ?_,
      fun h => absurd h (by decide)⟩
    rintro (- | ⟨-, hwhole⟩)
    exact hwhole 3 toReal_three
  obtain ⟨hinfinity, -, hboth⟩ := power_infinite hdoc (.inl hover)
  obtain ⟨s, hs, hsign⟩ := hinfinity.mpr fun h => absurd h.1 (by decide)
  obtain rfl : s = true := hsign.mpr ⟨rfl, false, three, 3, rfl, toReal_three, by decide⟩
  rw [hs] at hboth
  exact ⟨hdoc, hover, hs, (hboth ⟨[]⟩ false _ _ rfl rfl).1⟩

/-- Odd powers of negative zero are positive. -/
theorem not_forall_isInfinity_power :
    ¬ ∀ (m : Elementary) (x y : Double), Documented m x y →
      Overflows x y ∨ x.isZero = true ∧ y.isNegative = true ∧ y.isZero = false →
      IsInfinity x y (m.power x y) := by
  intro h
  have hdoc : Documented .standard (.zero true) (.finite true three) :=
    ⟨iff_of_false (by decide +kernel) not_overflows_zero,
      iff_of_true (by decide +kernel) (.zero true (by decide)), fun _ h => by cases h⟩
  obtain ⟨s, hs, hsign⟩ := h _ _ _ hdoc (.inr ⟨rfl, rfl, rfl⟩)
  obtain rfl : s = true := hsign.mpr ⟨rfl, true, three, 3, rfl, toReal_three, by decide⟩
  exact absurd hs (by decide +kernel)

end Abacus.Proofs.InfinitePowers
