import Mathlib.Algebra.Order.Floor.Semifield
import Abacus.Functions
import Abacus.Proofs.InfinitePowers

/-!
Rounding to whole numbers. One half is added to a number, and the sum is rounded itself before what
stands after its point is dropped. Between one half and the numbers without places after the point
the sum has a place for everything, or ends up between the same whole numbers. Two kinds of numbers
go astray: the last one below one half, whose sum is rounded up to one, and the odd whole numbers
that have no halves above them, whose sum goes up to the even neighbour.
-/

namespace Abacus.Magnitude

variable {a x y : Magnitude} {k : ℕ} {q : ℤ} {r : ℝ}

/-! ### Numbers that have a place -/

/-- What has 53 bits at a last place in the range is a magnitude, if not with that last place. -/
lemma exists_toReal (hk : k < twoPow 53) (hq : -1074 ≤ q) (hq' : q ≤ 971) :
    ∃ x : Magnitude, x.toReal = k * 2 ^ q := by
  obtain ⟨n, hn⟩ : ∃ n : ℕ, q = n - 1074 := ⟨(q + 1074).toNat, by omega⟩
  induction n generalizing k q with
  | zero => exact ⟨⟨k, q, hk, hq, hq', .inr (by omega)⟩, rfl⟩
  | succ n ih =>
    by_cases hfull : twoPow 52 ≤ k
    · exact ⟨⟨k, q, hk, hq, hq', .inl hfull⟩, rfl⟩
    · have htwice : twoPow 53 = 2 * twoPow 52 := rfl
      obtain ⟨x, hx⟩ := ih (k := 2 * k) (q := q - 1) (by omega) (by omega) (by omega) (by omega)
      refine ⟨x, hx.trans ?_⟩
      rw [zpow_sub_one₀ two_ne_zero]
      push_cast
      ring

lemma exists_toReal_natCast (hk : k < twoPow 53) : ∃ x : Magnitude, x.toReal = k := by
  simpa using exists_toReal (q := 0) hk (by decide) (by decide)

lemma toReal_lt (x : Magnitude) : x.toReal < 2 ^ 53 * 2 ^ x.exponent := by
  have hm : (x.mantissa : ℝ) < 2 ^ 53 := by
    rw [← cast_twoPow_real]
    exact_mod_cast x.canonical.1
  unfold toReal
  gcongr

lemma le_exponent (h : 2 ^ 52 * 2 ^ q ≤ x.toReal) : q ≤ x.exponent :=
  not_lt.mp fun hlt => absurd h (not_le.mpr (toReal_lt_of_lt hlt))

lemma exponent_lt (hq : -1074 < q) (h : x.toReal < 2 ^ 52 * 2 ^ q) : x.exponent < q := by
  by_contra hle
  have hle := not_lt.mp hle
  have hm : (2 ^ 52 : ℝ) ≤ x.mantissa := by
    rw [← cast_twoPow_real]
    exact_mod_cast x.canonical.2.2.2.resolve_right (by omega)
  refine absurd h (not_lt.mpr ?_)
  calc (2 : ℝ) ^ 52 * 2 ^ q ≤ 2 ^ 52 * 2 ^ x.exponent := by
        gcongr
        norm_num
    _ ≤ x.toReal := by
        unfold toReal
        gcongr

/-- Past the halves there are whole numbers only. -/
lemma exists_natCast_of_le (h : 2 ^ 52 ≤ x.toReal) : ∃ k : ℕ, x.toReal = k := by
  have hq : 0 ≤ x.exponent := le_exponent (q := 0) (by simpa using h)
  simpa using exists_mul_of_le hq

/-! ### Rounding keeps the order -/

lemma IsNearest.toReal_eq (h : IsNearest r y) (hx : x.toReal = r) : y.toReal = r := by
  have hle := h.le x
  rw [hx, sub_self, abs_zero] at hle
  exact (sub_eq_zero.mp (abs_nonpos_iff.mp hle)).symm

lemma IsNearest.le_toReal (h : IsNearest r y) (hx : x.toReal ≤ r) : x.toReal ≤ y.toReal := by
  by_contra hlt
  have hle := h.le x
  rw [abs_of_nonneg (by linarith), abs_of_nonneg (by linarith)] at hle
  linarith

lemma IsNearest.toReal_le (h : IsNearest r y) (hx : r ≤ x.toReal) : y.toReal ≤ x.toReal := by
  by_contra hlt
  have hle := h.le x
  rw [abs_of_nonpos (by linarith), abs_of_nonpos (by linarith)] at hle
  linarith

/-! ### One half more -/

/-- The last number below one half. -/
def belowHalf : Magnitude := ⟨twoPow 53 - 1, -54, by decide⟩

lemma toReal_belowHalf : belowHalf.toReal = 1 / 2 - 2 ^ (-54 : ℤ) := by
  have hm : (belowHalf.mantissa : ℝ) = 2 ^ 53 - 1 := by
    rw [← cast_twoPow_real, belowHalf, Nat.cast_sub (twoPow_pos 53), Nat.cast_one]
  have hq : (2 : ℝ) ^ 53 * 2 ^ (-54 : ℤ) = 1 / 2 := by norm_num
  rw [toReal, hm, show belowHalf.exponent = -54 from rfl, sub_mul, hq, one_mul]

lemma lt_belowHalf (ha : a.toReal < 1 / 2) (hne : a ≠ belowHalf) :
    a.toReal < 1 / 2 - 2 ^ (-54 : ℤ) := by
  have hq : a.exponent < -53 := exponent_lt (by decide) (ha.trans_eq (by norm_num))
  rw [← toReal_belowHalf]
  refine lt_of_le_of_ne ?_ fun h => hne (toReal_injective h)
  have hm : a.mantissa ≤ belowHalf.mantissa := Nat.le_pred_of_lt a.canonical.1
  unfold toReal
  gcongr
  · norm_num
  · exact Int.le_of_lt_add_one hq

lemma le_exponent_of_half (h : 1 / 2 ≤ x.toReal) : -53 ≤ x.exponent :=
  le_exponent ((by norm_num : (2 : ℝ) ^ 52 * 2 ^ (-53 : ℤ) = 1 / 2).trans_le h)

/-- Between one half and the numbers without halves the sum has a place, if it has no more bits than
the number. -/
lemma exists_toReal_add_half (hlow : 1 / 2 ≤ a.toReal) (hhigh : a.toReal < 2 ^ 52)
    (hbits : a.toReal + 1 / 2 < 2 ^ 53 * 2 ^ a.exponent) :
    ∃ x : Magnitude, x.toReal = a.toReal + 1 / 2 := by
  have hq := le_exponent_of_half hlow
  have hq' : a.exponent < 0 := exponent_lt (by decide) (hhigh.trans_eq (by norm_num))
  obtain ⟨j, hj⟩ : ∃ j : ℕ, -1 - a.exponent = j := ⟨(-1 - a.exponent).toNat, by omega⟩
  -- a half is a whole number of units in the last place
  have hhalf : (2 : ℝ) ^ j * 2 ^ a.exponent = 1 / 2 := by
    rw [← zpow_natCast, ← zpow_add₀ two_ne_zero, ← hj, sub_add_cancel]
    norm_num
  have hsum : a.toReal + 1 / 2 = (a.mantissa + twoPow j : ℕ) * 2 ^ a.exponent := by
    rw [toReal, ← hhalf, Nat.cast_add, cast_twoPow_real, add_mul]
  have hpos : (0 : ℝ) < 2 ^ a.exponent := by positivity
  have hk : a.mantissa + twoPow j < twoPow 53 := by
    rw [hsum, mul_lt_mul_iff_left₀ hpos, ← cast_twoPow_real] at hbits
    exact_mod_cast hbits
  obtain ⟨x, hx⟩ := exists_toReal (q := a.exponent) hk (by omega) (by omega)
  exact ⟨x, hx.trans hsum.symm⟩

/-- A whole number that is not above a number of at least one half has no more bits than it. -/
lemma natCast_succ_le {n : ℕ} (hlow : 1 / 2 ≤ a.toReal) (hn : n ≤ a.toReal) :
    (n : ℝ) + 1 ≤ 2 ^ 53 * 2 ^ a.exponent := by
  have hq := le_exponent_of_half hlow
  obtain ⟨j, hj⟩ : ∃ j : ℕ, a.exponent + 53 = j := ⟨(a.exponent + 53).toNat, by omega⟩
  have hpower : (2 : ℝ) ^ 53 * 2 ^ a.exponent = (2 ^ j : ℕ) := by
    calc (2 : ℝ) ^ 53 * 2 ^ a.exponent = 2 ^ (a.exponent + 53) := by
          rw [zpow_add₀ two_ne_zero, mul_comm, zpow_ofNat]
      _ = (2 ^ j : ℕ) := by rw [hj, zpow_natCast, Nat.cast_pow, Nat.cast_ofNat]
  have hlt := hn.trans_lt (toReal_lt a)
  rw [hpower] at hlt ⊢
  exact_mod_cast hlt

/-! ### The sum, rounded -/

/-- Other numbers below one half are not rounded up to one, as the number before one is nearer. -/
lemma toReal_ne_one (ha : a.toReal < 1 / 2) (hne : a ≠ belowHalf)
    (hy : IsNearest (a.toReal + 1 / 2) y) : y.toReal ≠ 1 := by
  intro hup
  have hlast := lt_belowHalf ha hne
  obtain ⟨z, hz⟩ : ∃ z : Magnitude, z.toReal = (twoPow 53 - 1 : ℕ) * 2 ^ (-53 : ℤ) :=
    exists_toReal (by decide) (by decide) (by decide)
  have hz' : z.toReal = 1 - 2 ^ (-53 : ℤ) := by
    rw [hz, Nat.cast_sub (twoPow_pos 53), cast_twoPow_real]
    norm_num
  have hnear := hy.le z
  have hhalf : (2 : ℝ) * 2 ^ (-54 : ℤ) = 2 ^ (-53 : ℤ) := by norm_num
  rw [hup, hz', abs_of_neg (by linarith)] at hnear
  rcases le_abs.mp hnear with h | h <;> linarith

/-- From one half on a sum is not rounded up to the next whole number, as it has a place of its own
where it is as near to that. -/
lemma toReal_ne_succ {n : ℕ} (hlow : 1 / 2 ≤ a.toReal) (hhigh : a.toReal < 2 ^ 52)
    (hy : IsNearest (a.toReal + 1 / 2) y) (hx : x.toReal = n) (hn : n ≤ a.toReal + 1 / 2)
    (hn' : a.toReal + 1 / 2 < n + 1) : y.toReal ≠ n + 1 := by
  intro hup
  have hnear := hy.le x
  rw [hup, hx, abs_of_neg (by linarith), abs_of_nonneg (by linarith)] at hnear
  have hbits := natCast_succ_le hlow (n := n) (by linarith)
  obtain ⟨z, hz⟩ := exists_toReal_add_half hlow hhigh (hn'.trans_le hbits)
  linarith [hy.toReal_eq hz]

/-- **The rounded sum lies between the same whole numbers**, where there are halves. -/
theorem floor_toReal (ha : a.toReal < 2 ^ 52) (hne : a ≠ belowHalf)
    (hy : IsNearest (a.toReal + 1 / 2) y) : ⌊y.toReal⌋₊ = ⌊a.toReal + 1 / 2⌋₊ := by
  have hpos := a.toReal_nonneg
  have hn := Nat.floor_le (by linarith : 0 ≤ a.toReal + 1 / 2)
  have hn' := Nat.lt_floor_add_one (a.toReal + 1 / 2)
  set n := ⌊a.toReal + 1 / 2⌋₊
  have hbound : n + 1 < twoPow 53 := by
    have : (n : ℝ) + 1 < twoPow 53 := by
      rw [cast_twoPow_real]
      linarith
    exact_mod_cast this
  obtain ⟨x, hx⟩ := exists_toReal_natCast (Nat.lt_of_succ_lt hbound)
  obtain ⟨x', hx'⟩ := exists_toReal_natCast hbound
  rw [Nat.cast_add_one] at hx'
  -- the nearest number is between the whole numbers around, which are doubles
  have hle := hy.le_toReal (x := x) (by linarith)
  have hle' := hy.toReal_le (x := x') (by linarith)
  have hne' : y.toReal ≠ n + 1 := by
    rcases lt_or_ge a.toReal (1 / 2) with hlow | hlow
    · have hzero : n = 0 := Nat.floor_eq_zero.mpr (by linarith)
      simpa [hzero] using toReal_ne_one hlow hne hy
    · exact toReal_ne_succ hlow ha hy hx hn hn'
  exact (Nat.floor_eq_iff y.toReal_nonneg).mpr ⟨by linarith, lt_of_le_of_ne (by linarith) hne'⟩

lemma exists_eq_mul (hk : x.toReal = k) (hle : 2 ^ 52 ≤ x.toReal) :
    ∃ i : ℕ, k = x.mantissa * 2 ^ i := by
  have hq : 0 ≤ x.exponent := le_exponent (q := 0) (by simpa using hle)
  obtain ⟨i, hi⟩ := Int.eq_ofNat_of_zero_le hq
  rw [toReal, hi, zpow_natCast] at hk
  exact ⟨i, by exact_mod_cast hk.symm⟩

lemma even_of_even_mantissa (hk : x.toReal = k) (hle : 2 ^ 52 ≤ x.toReal) (h : Even x.mantissa) :
    Even k := by
  obtain ⟨i, rfl⟩ := exists_eq_mul hk hle
  exact h.mul_right _

/-- An odd number past the halves has no more than 53 bits, and so has the next one. -/
lemma exists_succ_of_odd (hk : x.toReal = k) (hle : 2 ^ 52 ≤ x.toReal) (hodd : Odd k) :
    ∃ z : Magnitude, z.toReal = k + 1 := by
  have hbits : k < twoPow 53 := by
    obtain ⟨i, rfl⟩ := exists_eq_mul hk hle
    obtain rfl : i = 0 := by
      by_contra hi
      exact Nat.not_odd_iff_even.mpr (((Nat.even_pow' hi).mpr even_two).mul_left _) hodd
    simpa using x.canonical.1
  obtain ⟨n, rfl⟩ := hodd
  obtain ⟨z, hz⟩ := exists_toReal (k := n + 1) (q := 1) (by omega) (by decide) (by decide)
  refine ⟨z, hz.trans ?_⟩
  push_cast
  ring

lemma eq_or_eq_succ (hk : a.toReal = k) (hle : 2 ^ 52 ≤ a.toReal)
    (hy : IsNearest (a.toReal + 1 / 2) y) : y.toReal = k ∨ y.toReal = k + 1 := by
  have hlow := hy.le_toReal (x := a) (by linarith)
  have hclose := hy.le a
  rw [add_sub_cancel_left, abs_of_pos (by norm_num : (0 : ℝ) < 1 / 2)] at hclose
  have hhigh := (abs_le.mp hclose).1
  obtain ⟨j, hj⟩ := exists_natCast_of_le (hle.trans hlow)
  rw [hk, hj] at hlow hhigh
  have hlow' : k ≤ j := by exact_mod_cast hlow
  have hhigh' : j < k + 2 := by
    have : (j : ℝ) < k + 2 := by linarith
    exact_mod_cast this
  obtain rfl | rfl : j = k ∨ j = k + 1 := by omega
  · exact .inl hj
  · exact .inr (hj.trans (Nat.cast_add_one k))

/-- **Past the halves an even number stays and an odd one goes up**: the sum lies between it and the
next, and the even one of the two is taken. -/
theorem toReal_of_whole (hk : a.toReal = k) (hle : 2 ^ 52 ≤ a.toReal)
    (hy : IsNearest (a.toReal + 1 / 2) y) :
    (Even k → y.toReal = k) ∧ (Odd k → y.toReal = k + 1) := by
  have hle' := hle.trans (hy.le_toReal (x := a) (by linarith))
  rcases eq_or_eq_succ hk hle hy with hj | hj
  · -- rounded down: for an odd number that would be the odd side of a tie
    refine ⟨fun _ => hj, fun hodd => ?_⟩
    obtain ⟨z, hz⟩ := exists_succ_of_odd hk hle hodd
    have htie : |a.toReal + 1 / 2 - z.toReal| = |a.toReal + 1 / 2 - y.toReal| := by
      rw [hk, hz, hj, abs_of_neg, abs_of_pos] <;> linarith
    have heven := hy.even z (by rintro rfl; linarith) htie
    exact absurd hodd (Nat.not_odd_iff_even.mpr (even_of_even_mantissa hj hle' heven))
  · -- rounded up
    refine ⟨fun heven => ?_, fun _ => hj⟩
    have htie : |a.toReal + 1 / 2 - a.toReal| = |a.toReal + 1 / 2 - y.toReal| := by
      rw [hk, hj, abs_of_pos, abs_of_neg] <;> linarith
    have hmantissa := hy.even a (by rintro rfl; linarith) htie
    have hnext : Even (k + 1) :=
      even_of_even_mantissa (hj.trans (Nat.cast_add_one k).symm) hle' hmantissa
    exact absurd heven (Nat.even_add_one.mp hnext)

end Abacus.Magnitude

namespace Abacus.Proofs.HalfAway

open Double hiding neg_neg
open Functions Magnitude
open InfinitePowers (signedReal toReal_eq_natCast_iff)

variable {s t : Bool} {a b y : Magnitude} {k : ℕ}

/-! ### The steps of rounding -/

lemma addFinite_positive (x y : Magnitude) :
    addFinite false x false y = ofRatio false (x.num * y.den + y.num * x.den) (x.den * y.den) := by
  have hsum : signed false (x.num * y.den) + signed false (y.num * x.den) =
      ((x.num * y.den + y.num * x.den : ℕ) : ℤ) := by simp [signed]
  rw [addFinite, hsum]
  generalize x.num * y.den + y.num * x.den = n
  by_cases hn : n = 0
  · simp [hn, ofRatio, nearest?, Double.zero]
  · simp [hn, not_lt.mpr (Int.natCast_nonneg n)]

/-- Adding one half rounds the exact sum. -/
lemma add_half (a : Magnitude) :
    ∃ y, (.finite false a) + half = .finite false y ∧ IsNearest (a.toReal + 1 / 2) y := by
  obtain ⟨y, hy⟩ := exists_add_half a
  obtain ⟨h, hhalf, hh⟩ : ∃ h : Magnitude, half = .finite false h ∧ h.toReal = 1 / 2 := by
    refine ⟨⟨twoPow 52, -53, by decide⟩, rfl, ?_⟩
    rw [toReal, cast_twoPow_real]
    norm_num
  have hratio : ((a.num * h.den + h.num * a.den : ℕ) : ℝ) / (a.den * h.den : ℕ) =
      a.toReal + 1 / 2 := by
    have := a.den_pos
    have := h.den_pos
    rw [← hh, toReal_eq, toReal_eq]
    push_cast
    field_simp
  have hsum : (.finite false a) + half =
      ofRatio false (a.num * h.den + h.num * a.den) (a.den * h.den) := by
    rw [hhalf]
    exact addFinite_positive a h
  have hrounds := rounds_ofRatio false (a.num * h.den + h.num * a.den)
    (Nat.mul_pos a.den_pos h.den_pos)
  rw [← hsum, hy, hratio] at hrounds
  cases hrounds with
  | finite _ hnearest => exact ⟨y, hy, hnearest⟩

/-- What is left of a number without what stands after its point has a place. -/
lemma exists_toReal_floor (y : Magnitude) : ∃ b : Magnitude, b.toReal = ⌊y.toReal⌋₊ := by
  rcases lt_or_ge y.toReal (2 ^ 52) with hlt | hle
  · refine exists_toReal_natCast ?_
    have : (⌊y.toReal⌋₊ : ℝ) < twoPow 53 := by
      rw [cast_twoPow_real]
      linarith [Nat.floor_le y.toReal_nonneg]
    exact_mod_cast this
  · obtain ⟨k, hk⟩ := exists_natCast_of_le hle
    exact ⟨y, by rw [hk, Nat.floor_natCast]⟩

lemma floor_finite (y : Magnitude) :
    ∃ b, floor (.finite false y) = .finite false b ∧ b.toReal = ⌊y.toReal⌋₊ := by
  obtain ⟨b, hb⟩ := exists_toReal_floor y
  refine ⟨b, ?_, hb⟩
  rw [toReal_eq y, Nat.floor_div_eq_div, toReal_eq_natCast_iff] at hb
  have hfloor : floorRatio false y.num y.den = (y.num / y.den : ℕ) := by
    rw [floorRatio, Int.fdiv_eq_ediv_of_nonneg _ (Int.natCast_nonneg _)]
    rfl
  have hsign : ¬ ((y.num / y.den : ℕ) : ℤ) < 0 := not_lt.mpr (Int.natCast_nonneg _)
  rw [floor, hfloor, ofInt, Int.natAbs_natCast, decide_eq_false hsign, ofRatio,
    nearest?_of_ratio Nat.one_pos (hb.symm.trans (Nat.mul_one _).symm)]

lemma round_finite (s : Bool) (a : Magnitude) :
    ∃ y b, IsNearest (a.toReal + 1 / 2) y ∧ Magnitude.toReal b = ⌊y.toReal⌋₊ ∧
      Double.round (.finite s a) = .finite s b := by
  obtain ⟨y, hy, hnearest⟩ := add_half a
  obtain ⟨b, hb, hfloor⟩ := floor_finite y
  refine ⟨y, b, hnearest, hfloor, ?_⟩
  rw [Double.round, show add (.finite false a) half = .finite false y from hy, hb]
  rfl

/-! ### The law -/

/-- The whole number is nearest to the number, and of two as near it is that of larger magnitude. -/
structure IsHalfAway (r : ℝ) (i : ℤ) : Prop where
  nearest : ∀ j : ℤ, |r - i| ≤ |r - j|
  away : ∀ j : ℤ, |r - j| = |r - i| → |j| ≤ |i|

/-- The second double is the first one, which is finite, rounded half away from zero. It has the
sign of the first, also if it is zero. -/
inductive RoundsHalfAway : Double → Double → Prop
  | finite {s : Bool} {a b : Magnitude} {i : ℤ} (hwhole : signedReal s b = i)
      (hi : IsHalfAway (signedReal s a) i) : RoundsHalfAway (.finite s a) (.finite s b)

lemma IsHalfAway.neg {r : ℝ} {i : ℤ} (h : IsHalfAway r i) : IsHalfAway (-r) (-i) := by
  have hdist : ∀ j : ℤ, |-r - j| = |r - (-j : ℤ)| := by
    intro j
    rw [Int.cast_neg, ← abs_neg]
    congr 1
    ring
  have hself : |-r - (-i : ℤ)| = |r - i| := by rw [hdist, Int.neg_neg]
  refine ⟨fun j => ?_, fun j hj => ?_⟩
  · rw [hself, hdist]
    exact h.nearest (-j)
  · rw [hself, hdist] at hj
    simpa using h.away (-j) hj

/-- It is the whole part of one half more. -/
lemma isHalfAway_iff {r : ℝ} (hr : 0 ≤ r) {i : ℤ} : IsHalfAway r i ↔ i = ⌊r + 1 / 2⌋ := by
  have hle := Int.floor_le (r + 1 / 2)
  have hlt := Int.lt_floor_add_one (r + 1 / 2)
  have hnonneg : 0 ≤ ⌊r + 1 / 2⌋ := Int.floor_nonneg.mpr (by linarith)
  set k := ⌊r + 1 / 2⌋
  have hk : |r - k| ≤ 1 / 2 := abs_le.mpr ⟨by linarith, by linarith⟩
  -- other whole numbers are further away, but for the one below if it is as near
  have hfar : ∀ j : ℤ, j ≠ k → |r - k| < |r - j| ∨ |r - k| = |r - j| ∧ |j| < |k| := by
    intro j hj
    rcases lt_or_gt_of_ne hj with hlow | hhigh
    · have hstep : (j : ℝ) + 1 ≤ k := by exact_mod_cast hlow
      have hdist : |r - j| = r - j := abs_of_nonneg (by linarith)
      rcases (hk.trans (by linarith : 1 / 2 ≤ |r - j|)).lt_or_eq with h | h
      · exact .inl h
      · have hj' : (-1 : ℝ) < j := by linarith
        have hj' : -1 < j := by exact_mod_cast hj'
        refine .inr ⟨h, ?_⟩
        rwa [abs_of_nonneg (by omega), abs_of_nonneg hnonneg]
    · have hstep : (k : ℝ) + 1 ≤ j := by exact_mod_cast hhigh
      left
      rw [abs_of_neg (by linarith : r - j < 0)]
      linarith
  constructor
  · intro h
    by_contra hne
    rcases hfar i hne with hi | ⟨heq, hi⟩
    · exact absurd (h.nearest k) (not_le.mpr hi)
    · exact absurd (h.away k heq) (not_le.mpr hi)
  · rintro rfl
    refine ⟨fun j => ?_, fun j hj => ?_⟩
    · by_cases h : j = k
      · rw [h]
      · exact (hfar j h).elim le_of_lt fun h => h.1.le
    · by_cases h : j = k
      · rw [h]
      · exact ((hfar j h).resolve_left hj.not_gt).2.le

/-- The sign stands aside. -/
lemma roundsHalfAway_iff :
    RoundsHalfAway (.finite s a) (.finite s b) ↔ b.toReal = ⌊a.toReal + 1 / 2⌋₊ := by
  have hpos := a.toReal_nonneg
  have hcast : (⌊a.toReal + 1 / 2⌋₊ : ℝ) = ⌊a.toReal + 1 / 2⌋ :=
    natCast_floor_eq_intCast_floor (by linarith)
  rw [hcast]
  constructor
  · rintro ⟨hwhole, hi⟩
    rename_i i
    cases s with
    | false => rwa [(isHalfAway_iff hpos).mp hi] at hwhole
    | true =>
      simp only [signedReal, if_true] at hwhole hi
      have hneg := hi.neg
      rw [neg_neg, isHalfAway_iff hpos] at hneg
      rw [← hneg, Int.cast_neg, ← hwhole, neg_neg]
  · intro hb
    have hi := (isHalfAway_iff hpos).mpr rfl
    cases s with
    | false => exact .finite hb hi
    | true => exact .finite (i := -⌊a.toReal + 1 / 2⌋) (by simp [signedReal, hb]) hi.neg

/-! ### Rounding -/

/-- An odd whole number past the halves. -/
def OddPastHalves (a : Magnitude) : Prop := ∃ k : ℕ, Odd k ∧ 2 ^ 52 ≤ k ∧ a.toReal = k

lemma floor_add_half (k : ℕ) : ⌊(k : ℝ) + 1 / 2⌋₊ = k :=
  (Nat.floor_eq_iff (by positivity)).mpr ⟨by linarith, by linarith⟩

lemma round_of_lt (s : Bool) (ha : a.toReal < 2 ^ 52) (hne : a ≠ belowHalf) :
    ∃ b, Double.round (.finite s a) = .finite s b ∧ b.toReal = ⌊a.toReal + 1 / 2⌋₊ := by
  obtain ⟨y, b, hy, hb, hround⟩ := round_finite s a
  exact ⟨b, hround, by rw [hb, floor_toReal ha hne hy]⟩

lemma round_of_whole (s : Bool) (hk : a.toReal = k) (hle : 2 ^ 52 ≤ a.toReal) :
    ∃ b, Double.round (.finite s a) = .finite s b ∧
      (Even k → b.toReal = k) ∧ (Odd k → b.toReal = k + 1) := by
  obtain ⟨y, b, hy, hb, hround⟩ := round_finite s a
  obtain ⟨heven, hodd⟩ := toReal_of_whole hk hle hy
  refine ⟨b, hround, fun h => ?_, fun h => ?_⟩
  · rw [hb, heven h, Nat.floor_natCast]
  · rw [hb, hodd h, ← Nat.cast_add_one, Nat.floor_natCast]

lemma round_belowHalf (s : Bool) : Double.round (.finite s belowHalf) = one.withSign s := by
  cases s <;> decide +kernel

lemma not_roundsHalfAway_belowHalf (s : Bool) :
    ¬ RoundsHalfAway (.finite s belowHalf) (Double.round (.finite s belowHalf)) := by
  have hfloor : ⌊belowHalf.toReal + 1 / 2⌋₊ = 0 := by
    rw [Nat.floor_eq_zero, toReal_belowHalf]
    norm_num
  rw [round_belowHalf, one, withSign, roundsHalfAway_iff, hfloor, toReal, cast_twoPow_real]
  norm_num

lemma oddPastHalves_iff (hk : a.toReal = k) (hle : 2 ^ 52 ≤ a.toReal) :
    OddPastHalves a ↔ Odd k := by
  refine ⟨fun ⟨j, hj, _, hjk⟩ => ?_, fun h => ⟨k, h, ?_, hk⟩⟩
  · rw [hk] at hjk
    rwa [Nat.cast_injective hjk]
  · rw [hk] at hle
    exact_mod_cast hle

lemma not_oddPastHalves (ha : a.toReal < 2 ^ 52) : ¬ OddPastHalves a := by
  rintro ⟨k, -, hk, hak⟩
  rw [hak] at ha
  exact absurd hk (not_le.mpr (by exact_mod_cast ha))

lemma roundsHalfAway_round_iff (s : Bool) (a : Magnitude) :
    RoundsHalfAway (.finite s a) (Double.round (.finite s a)) ↔
      a ≠ belowHalf ∧ ¬ OddPastHalves a := by
  by_cases hhalf : a = belowHalf
  · subst hhalf
    exact iff_of_false (not_roundsHalfAway_belowHalf s) (by simp)
  rcases lt_or_ge a.toReal (2 ^ 52) with hlt | hle
  · obtain ⟨b, hround, hb⟩ := round_of_lt s hlt hhalf
    rw [hround, roundsHalfAway_iff]
    exact iff_of_true hb ⟨hhalf, not_oddPastHalves hlt⟩
  · obtain ⟨k, hk⟩ := exists_natCast_of_le hle
    obtain ⟨b, hround, heven, hodd⟩ := round_of_whole s hk hle
    rw [hround, roundsHalfAway_iff, hk, floor_add_half, oddPastHalves_iff hk hle]
    rcases Nat.even_or_odd k with h | h
    · exact iff_of_true (heven h) ⟨hhalf, Nat.not_odd_iff_even.mpr h⟩
    · exact iff_of_false (by rw [hodd h]; linarith) (by simp [h])

/-- A whole number is nearest to itself. -/
lemma RoundsHalfAway.eq_self {v : Double} (h : RoundsHalfAway (.finite s a) v) (hk : a.toReal = k) :
    v = .finite s a := by
  obtain ⟨t, b, hv⟩ : ∃ t b, v = .finite t b := by cases h with | finite => exact ⟨_, _, rfl⟩
  subst hv
  obtain rfl : t = s := by cases h; rfl
  rw [roundsHalfAway_iff, hk, floor_add_half, ← hk] at h
  rw [toReal_injective h]

lemma belowHalf_ne_natCast (k : ℕ) : belowHalf.toReal ≠ k := by
  intro h
  have hbounds : 0 < belowHalf.toReal ∧ belowHalf.toReal < 1 := by
    rw [toReal_belowHalf]
    constructor <;> norm_num
  rw [h] at hbounds
  obtain ⟨hpos, hlt⟩ := hbounds
  have hpos : 0 < k := by exact_mod_cast hpos
  have hlt : k < 1 := by exact_mod_cast hlt
  omega

/-- **Rounding is half away from zero, with two exceptions.** The last number below one half is
rounded to one, and an odd whole number past the halves to the next one. All other numbers are
rounded to the nearest whole number, and of two as near to that of larger magnitude; all other whole
numbers stay what they are. -/
theorem builtinUnary_round (m : Elementary) (s : Bool) (a : Magnitude) :
    ∃ f, builtinUnary m "round" = some f ∧
      (RoundsHalfAway (.finite s a) (f (.finite s a)) ↔ a ≠ belowHalf ∧ ¬ OddPastHalves a) ∧
      (a = belowHalf → f (.finite s a) = one.withSign s) ∧
      (OddPastHalves a → ∃ b, f (.finite s a) = .finite s b ∧ b.toReal = a.toReal + 1) ∧
      ((∃ k : ℕ, a.toReal = k) → ¬ OddPastHalves a → f (.finite s a) = .finite s a) := by
  have hiff := roundsHalfAway_round_iff s a
  refine ⟨Double.round, rfl, hiff, ?_, ?_, ?_⟩
  · rintro rfl
    exact round_belowHalf s
  · rintro ⟨k, hodd, hle, hk⟩
    obtain ⟨b, hround, -, hb⟩ := round_of_whole s hk (by rw [hk]; exact_mod_cast hle)
    exact ⟨b, hround, by rw [hb hodd, hk]⟩
  · rintro ⟨k, hk⟩ hnot
    refine (hiff.mpr ⟨?_, hnot⟩).eq_self hk
    rintro rfl
    exact belowHalf_ne_natCast k hk

/-- An odd whole number with all its bits. -/
def oddWhole : Magnitude := ⟨twoPow 52 + 1, 0, by decide⟩

lemma toReal_oddWhole : oddWhole.toReal = (twoPow 52 + 1 : ℕ) := by
  rw [toReal, show oddWhole.exponent = 0 from rfl, zpow_zero, mul_one]
  rfl

theorem builtinUnary_round_odd :
    OddPastHalves oddWhole ∧
      ∃ b, Double.round (.finite true oddWhole) = .finite true b ∧
        b.toReal = oddWhole.toReal + 1 := by
  have hodd : OddPastHalves oddWhole := ⟨twoPow 52 + 1, by decide, by decide, toReal_oddWhole⟩
  obtain ⟨f, hf, -, -, hnext, -⟩ := builtinUnary_round .standard true oddWhole
  obtain rfl : Double.round = f := Option.some.inj hf
  exact ⟨hodd, hnext hodd⟩

/-- The last number below one half is rounded to one. -/
theorem not_forall_roundsHalfAway :
    ¬ ∀ (s : Bool) (a : Magnitude),
      RoundsHalfAway (.finite s a) (Double.round (.finite s a)) := by
  intro h
  exact not_roundsHalfAway_belowHalf false (h false belowHalf)

end Abacus.Proofs.HalfAway
