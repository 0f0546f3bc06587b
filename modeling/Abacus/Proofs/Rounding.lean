import Mathlib.Data.Real.Basic
import Abacus.Proofs.Exactness

/-!
Rounding to the nearest double. A ratio is rounded to a double that no other is nearer to, and to one
with an even mantissa if another is as near; it is out of range just if it is at least half a place
above the largest double. In the places of the result this is rounding to the nearest whole number;
doubles with finer places lie below a power of two that the ratio is not below.
-/

namespace Abacus.Magnitude

variable {n d k j : ℕ} {q : ℤ} {r u : ℝ} {x y : Magnitude}

/-! ### Nearest magnitudes -/

/-- The number that a magnitude is. -/
noncomputable def toReal (x : Magnitude) : ℝ := x.mantissa * 2 ^ x.exponent

/-- No magnitude is nearer to the number, and if another one is as near, this one is even. -/
structure IsNearest (r : ℝ) (x : Magnitude) : Prop where
  le : ∀ y : Magnitude, |r - x.toReal| ≤ |r - y.toReal|
  even : ∀ y : Magnitude, y ≠ x → |r - y.toReal| = |r - x.toReal| → Even x.mantissa

lemma cast_twoPow_real (n : ℕ) : (twoPow n : ℝ) = 2 ^ n := by exact_mod_cast cast_twoPow n

lemma toReal_zero : zero.toReal = 0 := by simp [toReal, zero]

lemma toReal_nonneg (x : Magnitude) : 0 ≤ x.toReal := by
  unfold toReal
  positivity

lemma toReal_eq_zero_iff : x.toReal = 0 ↔ x.mantissa = 0 := by
  simp [toReal, zpow_ne_zero]

lemma toReal_eq (x : Magnitude) : x.toReal = x.num / x.den := by
  have h := congrArg ((↑) : ℚ → ℝ) (ratio_eq x)
  push_cast at h
  exact h.symm

lemma toReal_injective (h : x.toReal = y.toReal) : x = y := by
  have hx : (x.den : ℝ) ≠ 0 := by exact_mod_cast x.den_pos.ne'
  have hy : (y.den : ℝ) ≠ 0 := by exact_mod_cast y.den_pos.ne'
  rw [toReal_eq, toReal_eq, div_eq_div_iff hx hy] at h
  have hself := nearest?_self x
  rw [nearest?_of_ratio x.den_pos (by exact_mod_cast h)] at hself
  exact (Option.some.inj hself).symm

/-! ### Rounding to a whole number of places -/

/-- The whole number of places is less than half a place off, or half a place and even. -/
def Near (r u : ℝ) (k : ℕ) : Prop := |r - k * u| < u / 2 ∨ |r - k * u| = u / 2 ∧ Even k

lemma Near.le (h : Near r u k) : |r - k * u| ≤ u / 2 := h.elim (·.le) (·.1.le)

/-- Two numbers of places are a place apart. -/
lemma le_abs_sub (hu : 0 < u) (hne : j ≠ k) : u ≤ |r - j * u| + |r - k * u| := by
  have hone : (1 : ℝ) ≤ |(j : ℝ) - k| := by
    have : (1 : ℤ) ≤ |(j : ℤ) - k| := Int.one_le_abs (by omega)
    exact_mod_cast this
  calc u ≤ |(j : ℝ) - k| * u := le_mul_of_one_le_left hu.le hone
    _ = |j * u - k * u| := by rw [← sub_mul, abs_mul, abs_of_pos hu]
    _ = |(r - k * u) - (r - j * u)| := by congr 1; ring
    _ ≤ |r - k * u| + |r - j * u| := abs_sub _ _
    _ = |r - j * u| + |r - k * u| := add_comm _ _

lemma Near.le_abs_sub (h : Near r u k) (hu : 0 < u) (j : ℕ) :
    |r - k * u| ≤ |r - j * u| ∧ (j ≠ k → |r - j * u| = |r - k * u| → Even k) := by
  by_cases hne : j = k
  · exact ⟨by rw [hne], fun hj => absurd hne hj⟩
  · have hapart := Magnitude.le_abs_sub (r := r) hu hne
    have hle := h.le
    refine ⟨by linarith, fun _ heq => ?_⟩
    rcases h with h | h
    · linarith
    · exact h.2

/-- What is over a whole number decides how it is rounded. -/
lemma near_roundEven (n : ℕ) (hd : 0 < d) : Near ((n : ℝ) / d) 1 (roundEven n d) := by
  have hd' : (0 : ℝ) < d := by exact_mod_cast hd
  have hdiv : (n : ℝ) / d = (n / d : ℕ) + (n % d : ℕ) / d := by
    rw [eq_comm, ← eq_sub_iff_add_eq', div_eq_iff hd'.ne', sub_mul, div_mul_cancel₀ _ hd'.ne',
      eq_sub_iff_add_eq]
    exact_mod_cast Nat.mod_add_div' n d
  have hover : (0 : ℝ) ≤ (n % d : ℕ) / d := by positivity
  rw [Near, hdiv, mul_one, roundEven]
  set k := n / d
  set f : ℝ := (n % d : ℕ) / d with hf
  split
  · rename_i hlt
    -- less than a half is left over
    have hlt' : (2 * (n % d : ℕ) : ℝ) < d := by exact_mod_cast hlt
    left
    rw [add_sub_cancel_left, abs_of_nonneg hover, hf, div_lt_div_iff₀ hd' two_pos]
    linarith
  split
  · rename_i hlt
    have hlt' : (d : ℝ) < 2 * (n % d : ℕ) := by exact_mod_cast hlt
    -- more than a half is left over
    have hmod : ((n % d : ℕ) : ℝ) < d := by exact_mod_cast Nat.mod_lt n hd
    have hone : f < 1 := (div_lt_one hd').mpr hmod
    have hhalf : 1 / 2 < f := by
      rw [hf, div_lt_div_iff₀ two_pos hd']
      linarith
    left
    rw [abs_lt]
    push_cast
    constructor <;> linarith
  · rename_i hge hle
    -- a tie, and the even neighbour is taken
    have htwice : 2 * (n % d) = d := by omega
    have hhalf : f = 1 / 2 := by
      rw [hf, div_eq_div_iff hd'.ne' two_ne_zero]
      have : (2 * (n % d : ℕ) : ℝ) = d := by exact_mod_cast htwice
      linarith
    right
    rcases Nat.mod_two_eq_zero_or_one k with h | h
    · refine ⟨?_, by rwa [h, Nat.add_zero, Nat.even_iff]⟩
      rw [h, Nat.add_zero, add_sub_cancel_left, hhalf]
      norm_num
    · refine ⟨?_, by rw [h, Nat.even_iff]; omega⟩
      rw [h, hhalf]
      push_cast
      rw [add_sub_add_left_eq_sub]
      norm_num

lemma near_roundAt (n : ℕ) (hd : 0 < d) (q : ℤ) :
    Near ((n : ℝ) / d) (2 ^ q) (roundAt n d q) := by
  have hu : (0 : ℝ) < 2 ^ q := by positivity
  have hd' : (d : ℝ) ≠ 0 := by exact_mod_cast hd.ne'
  have hscale : ((n * twoPow (-q).toNat : ℕ) : ℝ) / (d * twoPow q.toNat : ℕ) * 2 ^ q = n / d := by
    have hpow := congrArg ((↑) : ℚ → ℝ) (two_zpow_mul q)
    push_cast at hpow
    have hne : (2 : ℝ) ^ q.toNat ≠ 0 := by positivity
    push_cast
    rw [cast_twoPow_real, cast_twoPow_real, div_mul_eq_mul_div,
      div_eq_div_iff (mul_ne_zero hd' hne) hd', ← hpow]
    ring
  have hnear := near_roundEven (n * twoPow (-q).toNat) (Nat.mul_pos hd (twoPow_pos q.toNat))
  have hdist : |(n : ℝ) / d - roundAt n d q * 2 ^ q| =
      |((n * twoPow (-q).toNat : ℕ) : ℝ) / (d * twoPow q.toNat : ℕ) - roundAt n d q * 1| *
        2 ^ q := by
    rw [mul_one, ← abs_of_pos hu, ← abs_mul, abs_of_pos hu, sub_mul, hscale]
  rw [Near, hdist]
  rcases hnear with h | ⟨h, heven⟩
  · left
    calc _ < 1 / 2 * 2 ^ q := mul_lt_mul_of_pos_right h hu
      _ = 2 ^ q / 2 := by ring
  · right
    refine ⟨?_, heven⟩
    rw [roundAt, h]
    ring

/-! ### Rounding to a magnitude -/

lemma of?_eq_some {m : ℕ} (h : of? m q = some x) : x.mantissa = m ∧ x.exponent = q := by
  rw [of?] at h
  split at h
  · exact Option.some.inj h ▸ ⟨rfl, rfl⟩
  · contradiction

/-- What is rounded up to one more bit is a power of two. -/
lemma parts_of_nearest? (hn : n ≠ 0) (h : nearest? n d = some x) :
    roundAt n d (lastPlace n d) = twoPow 53 ∧ x.mantissa = twoPow 52 ∧
        x.exponent = lastPlace n d + 1 ∨
      x.mantissa = roundAt n d (lastPlace n d) ∧ x.exponent = lastPlace n d := by
  rw [nearest?, if_neg hn] at h
  dsimp only at h
  split at h
  · rename_i hm
    exact .inl ⟨hm, of?_eq_some h⟩
  · exact .inr (of?_eq_some h)

lemma toReal_of_nearest? (hn : n ≠ 0) (h : nearest? n d = some x) :
    x.toReal = roundAt n d (lastPlace n d) * 2 ^ lastPlace n d ∧
      (Even (roundAt n d (lastPlace n d)) → Even x.mantissa) := by
  rcases parts_of_nearest? hn h with ⟨hk, hm, hq⟩ | ⟨hm, hq⟩
  · refine ⟨?_, fun _ => hm ▸ ⟨twoPow 51, rfl⟩⟩
    rw [toReal, hm, hq, hk, cast_twoPow_real, cast_twoPow_real, zpow_add_one₀ two_ne_zero]
    ring
  · exact ⟨by rw [toReal, hm, hq], fun heven => hm ▸ heven⟩

/-- A magnitude whose last place is not below a place is a whole number of those. -/
lemma exists_mul_of_le (h : q ≤ x.exponent) : ∃ j : ℕ, x.toReal = j * 2 ^ q := by
  refine ⟨x.mantissa * 2 ^ (x.exponent - q).toNat, ?_⟩
  have hsplit : x.exponent = ((x.exponent - q).toNat : ℤ) + q := by omega
  rw [toReal]
  nth_rewrite 1 [hsplit]
  rw [zpow_add₀ two_ne_zero, zpow_natCast]
  push_cast
  ring

lemma toReal_lt_of_lt (h : x.exponent < q) : x.toReal < 2 ^ 52 * 2 ^ q := by
  have hm : (x.mantissa : ℝ) < 2 ^ 53 := by
    rw [← cast_twoPow_real]
    exact_mod_cast x.canonical.1
  calc x.toReal < 2 ^ 53 * 2 ^ x.exponent := by
        rw [toReal]
        gcongr
    _ ≤ 2 ^ 53 * 2 ^ (q - 1) := by
        gcongr
        · norm_num
        · omega
    _ = 2 ^ 52 * 2 ^ q := by
        rw [zpow_sub_one₀ two_ne_zero]
        ring

lemma lastPlace_bounds_real (hn : n ≠ 0) (hd : 0 < d) :
    (n : ℝ) / d < 2 ^ 53 * 2 ^ lastPlace n d ∧
      (lastPlace n d = -1074 ∨ 2 ^ 52 * 2 ^ lastPlace n d ≤ (n : ℝ) / d) := by
  obtain ⟨hhigh, hlow⟩ := lastPlace_bounds hn hd
  have hhigh' := (Rat.cast_lt (K := ℝ)).mpr hhigh
  push_cast at hhigh'
  refine ⟨hhigh', hlow.imp_right fun hlow => ?_⟩
  have hlow' := (Rat.cast_le (K := ℝ)).mpr hlow
  push_cast at hlow'
  exact hlow'

/-- **What a ratio is rounded to is nearest to it.** -/
theorem isNearest_of_nearest? (hd : 0 < d) (h : nearest? n d = some x) :
    IsNearest ((n : ℝ) / d) x := by
  by_cases hn : n = 0
  · obtain rfl : x = zero := by simpa [nearest?, hn, eq_comm] using h
    rw [hn, Nat.cast_zero, zero_div]
    refine ⟨fun y => ?_, fun _ _ _ => Even.zero⟩
    rw [toReal_zero, sub_zero, abs_zero]
    exact abs_nonneg _
  · obtain ⟨hx, heven⟩ := toReal_of_nearest? hn h
    have hnear := near_roundAt n hd (lastPlace n d)
    obtain ⟨-, hlow⟩ := lastPlace_bounds_real hn hd
    set q := lastPlace n d
    set r := (n : ℝ) / d
    have hu : (0 : ℝ) < 2 ^ q := by positivity
    have hfine : ∀ y : Magnitude, y.exponent < q → |r - x.toReal| < |r - y.toReal| := by
      -- such a number lies below a power of two that the ratio is not below
      intro y hy
      have hbound := toReal_lt_of_lt hy
      have hlow := hlow.resolve_left fun hq => absurd y.canonical.2.1 (by omega)
      have hpower := (hnear.le_abs_sub hu (twoPow 52)).1
      rw [cast_twoPow_real] at hpower
      rw [hx]
      rw [abs_of_nonneg (sub_nonneg.mpr hlow)] at hpower
      calc _ ≤ r - 2 ^ 52 * 2 ^ q := hpower
        _ < r - y.toReal := by linarith
        _ ≤ |r - y.toReal| := le_abs_self _
    -- a number on the grid is a whole number of units, and so is the result
    have hgrid : ∀ y : Magnitude, q ≤ y.exponent → |r - x.toReal| ≤ |r - y.toReal| ∧
        (y ≠ x → |r - y.toReal| = |r - x.toReal| → Even x.mantissa) := by
      intro y hy
      obtain ⟨j, hj⟩ := exists_mul_of_le hy
      obtain ⟨hle, htie⟩ := hnear.le_abs_sub hu j
      rw [hx, hj]
      refine ⟨hle, fun hne heq => heven (htie ?_ heq)⟩
      rintro rfl
      exact hne (toReal_injective (hj.trans hx.symm))
    refine ⟨fun y => ?_, fun y hne heq => ?_⟩
    · rcases lt_or_ge y.exponent q with hy | hy
      · exact (hfine y hy).le
      · exact (hgrid y hy).1
    · rcases lt_or_ge y.exponent q with hy | hy
      · exact absurd heq (hfine y hy).ne'
      · exact (hgrid y hy).2 hne heq

/-! ### The range -/

/-- The largest number of 53 bits is odd, so half a place above it is rounded up. -/
lemma Near.lt_of_lt (h : Near r u k) (hu : 0 < u) (hk : k < twoPow 53) :
    r < (2 ^ 53 - 1 / 2) * u := by
  have hbound : ∀ i : ℕ, k + i ≤ twoPow 53 → (k : ℝ) * u ≤ (2 ^ 53 - i) * u := by
    intro i hi
    have hcast : ((k + i : ℕ) : ℝ) ≤ twoPow 53 := by exact_mod_cast hi
    rw [cast_twoPow_real, Nat.cast_add] at hcast
    gcongr
    linarith
  rcases h with h | ⟨h, heven⟩
  · have hone := hbound 1 hk
    have := (abs_lt.mp h).2
    push_cast at hone
    linarith
  · -- a tie is even, and 2 ^ 53 - 1 is not
    have htwo : k + 2 ≤ twoPow 53 := by
      have hne : k + 1 ≠ twoPow 53 := by
        intro hk
        have hpower : Even (twoPow 53) := ⟨twoPow 52, rfl⟩
        rw [← hk, Nat.even_add_one] at hpower
        exact hpower heven
      omega
    have htwo := hbound 2 htwo
    have := (abs_le.mp h.le).2
    push_cast at htwo
    linarith

lemma cast_overflow : ((overflow : ℚ) : ℝ) = (2 ^ 53 - 1 / 2) * 2 ^ (971 : ℤ) := by
  simp only [overflow, Rat.cast_mul, Rat.cast_sub, Rat.cast_pow, Rat.cast_zpow, Rat.cast_div,
    Rat.cast_one, Rat.cast_ofNat]

/-- Half a place above the largest double and beyond there is no nearest one. -/
lemma lt_overflow_of_nearest? (hd : 0 < d) (h : nearest? n d = some x) :
    (n : ℝ) / d < overflow := by
  have hpos : (0 : ℝ) < 2 ^ (971 : ℤ) := by positivity
  rw [cast_overflow]
  by_cases hn : n = 0
  · rw [hn, Nat.cast_zero, zero_div]
    generalize (2 : ℝ) ^ (971 : ℤ) = p at *
    linarith
  · have hbelow : lastPlace n d < 971 → (n : ℝ) / d < (2 ^ 53 - 1 / 2) * 2 ^ (971 : ℤ) := by
      intro hq
      have hhigh := (lastPlace_bounds_real hn hd).1
      have hpow : (2 : ℝ) * 2 ^ lastPlace n d ≤ 2 ^ (971 : ℤ) := by
        rw [← zpow_one_add₀ two_ne_zero]
        exact zpow_le_zpow_right₀ (by norm_num) (by omega)
      generalize (2 : ℝ) ^ (971 : ℤ) = p at *
      linarith
    -- in the last place of all the mantissa was not rounded up to 2 ^ 53
    obtain ⟨hm, -, hlast, -⟩ := x.canonical
    rcases parts_of_nearest? hn h with ⟨-, -, hq⟩ | ⟨hk, hq⟩
    · exact hbelow (by omega)
    · rcases lt_or_ge (lastPlace n d) 971 with hlt | hge
      · exact hbelow hlt
      · obtain hplace : lastPlace n d = 971 := by omega
        have hnear := near_roundAt n hd (lastPlace n d)
        rw [← hk, hplace] at hnear
        exact hnear.lt_of_lt hpos hm

end Abacus.Magnitude

namespace Abacus.Double

open Magnitude

variable {n d : ℕ}

/-- The double is a number rounded to nearest, with a sign: one that is nearest to it, or beyond the
largest double infinity. -/
inductive Rounds (negative : Bool) (r : ℝ) : Double → Prop
  | finite {x : Magnitude} (hr : r < overflow) (hx : IsNearest r x) :
      Rounds negative r (.finite negative x)
  | infinite (hr : overflow ≤ r) : Rounds negative r (.inf negative)

/-- **A ratio is rounded to nearest**, a half to even, and is infinite just if it overflows. -/
theorem rounds_ofRatio (negative : Bool) (n : ℕ) (hd : 0 < d) :
    Rounds negative ((n : ℝ) / d) (ofRatio negative n d) := by
  rw [ofRatio]
  split
  · rename_i x hx
    exact .finite (lt_overflow_of_nearest? hd hx) (isNearest_of_nearest? hd hx)
  · rename_i hnone
    refine .infinite (not_lt.mp fun hlt => ?_)
    have hsome := isSome_nearest? hd (n := n) ((Rat.cast_lt (K := ℝ)).mp (by push_cast; exact hlt))
    rw [hnone] at hsome
    contradiction

end Abacus.Double
