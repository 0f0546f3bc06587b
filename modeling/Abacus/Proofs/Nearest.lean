import Mathlib.Algebra.Order.Field.Power
import Mathlib.Tactic.Linarith
import Mathlib.Tactic.Positivity
import Mathlib.Tactic.Ring
import Mathlib.Tactic.FieldSimp
import Mathlib.Tactic.NormNum
import Abacus.Double.Integral

/-!
The range of the doubles. The last place of a ratio is chosen so that 53 binary places are kept, and
a ratio that is less than half a place above the largest double has a nearest one. Every double is
within that range, and so are the whole numbers next to it.
-/

namespace Abacus.Magnitude

variable {n d k : ℕ} {q : ℤ}

/-! ### Ratios in units of the last place -/

lemma two_zpow_mul (q : ℤ) : (2 : ℚ) ^ q * 2 ^ (-q).toNat = 2 ^ q.toNat := by
  rw [← zpow_natCast, ← zpow_natCast, ← zpow_add₀ two_ne_zero]
  congr 1
  omega

lemma cast_twoPow (n : ℕ) : (twoPow n : ℚ) = 2 ^ n := by
  show ((2 ^ n : ℕ) : ℚ) = 2 ^ n
  push_cast
  rfl

lemma scaled_lt_iff (hd : 0 < d) :
    n * twoPow (-q).toNat < k * (d * twoPow q.toNat) ↔ (n : ℚ) / d < k * 2 ^ q := by
  have hd' : (0 : ℚ) < d := by exact_mod_cast hd
  have hp : (0 : ℚ) < 2 ^ (-q).toNat := by positivity
  have hscale : (k : ℚ) * 2 ^ q * d * 2 ^ (-q).toNat = k * (d * 2 ^ q.toNat) := by
    rw [← two_zpow_mul q]
    ring
  rw [div_lt_iff₀ hd', ← mul_lt_mul_iff_left₀ hp, hscale, ← Nat.cast_lt (α := ℚ)]
  push_cast
  rw [cast_twoPow, cast_twoPow]

lemma scaled_le_iff (hd : 0 < d) :
    k * (d * twoPow q.toNat) ≤ n * twoPow (-q).toNat ↔ k * 2 ^ q ≤ (n : ℚ) / d := by
  rw [← not_lt, scaled_lt_iff hd, not_lt]

/-- A ratio lies between the powers of two that the lengths of its terms give. -/
lemma log2_bounds (hn : n ≠ 0) (hd : d ≠ 0) :
    (2 : ℚ) ^ ((n.log2 : ℤ) - d.log2 - 1) ≤ n / d ∧
      (n : ℚ) / d < 2 ^ ((n.log2 : ℤ) - d.log2 + 1) := by
  have hd' : (0 : ℚ) < d := by exact_mod_cast Nat.pos_of_ne_zero hd
  have hn₁ : (2 : ℚ) ^ (n.log2 : ℤ) ≤ n := by exact_mod_cast Nat.log2_self_le hn
  have hn₂ : (n : ℚ) < 2 ^ ((n.log2 : ℤ) + 1) := by exact_mod_cast Nat.lt_log2_self
  have hd₁ : (2 : ℚ) ^ (d.log2 : ℤ) ≤ d := by exact_mod_cast Nat.log2_self_le hd
  have hd₂ : (d : ℚ) < 2 ^ ((d.log2 : ℤ) + 1) := by exact_mod_cast Nat.lt_log2_self
  constructor
  · rw [le_div_iff₀ hd']
    calc (2 : ℚ) ^ ((n.log2 : ℤ) - d.log2 - 1) * d
        ≤ 2 ^ ((n.log2 : ℤ) - d.log2 - 1) * 2 ^ ((d.log2 : ℤ) + 1) := by gcongr
      _ = 2 ^ (n.log2 : ℤ) := by rw [← zpow_add₀ two_ne_zero]; congr 1; ring
      _ ≤ n := hn₁
  · rw [div_lt_iff₀ hd']
    calc (n : ℚ) < 2 ^ ((n.log2 : ℤ) + 1) := hn₂
      _ = 2 ^ ((n.log2 : ℤ) - d.log2 + 1) * 2 ^ (d.log2 : ℤ) := by
        rw [← zpow_add₀ two_ne_zero]; congr 1; ring
      _ ≤ 2 ^ ((n.log2 : ℤ) - d.log2 + 1) * d := by gcongr

lemma neg_le_lastPlace (n d : ℕ) : -1074 ≤ lastPlace n d := le_max_left _ _

/-- No more than 53 places are kept, and no fewer but at the least last place. -/
lemma lastPlace_bounds (hn : n ≠ 0) (hd : 0 < d) :
    (n : ℚ) / d < 2 ^ 53 * 2 ^ lastPlace n d ∧
      (lastPlace n d = -1074 ∨ 2 ^ 52 * 2 ^ lastPlace n d ≤ (n : ℚ) / d) := by
  obtain ⟨hlow, hhigh⟩ := log2_bounds hn hd.ne'
  set q₀ : ℤ := (n.log2 : ℤ) - d.log2 - 53 with hq₀
  have hlow' : (2 : ℚ) ^ 52 * 2 ^ q₀ ≤ n / d := by
    rw [← zpow_natCast, ← zpow_add₀ two_ne_zero]
    convert hlow using 2
    push_cast
    omega
  have hhigh' : (n : ℚ) / d < 2 ^ 53 * 2 ^ (q₀ + 1) := by
    rw [← zpow_natCast, ← zpow_add₀ two_ne_zero]
    convert hhigh using 2
    push_cast
    omega
  -- the place before it is cut off below
  obtain ⟨q₁, hq₁, hlow₁, hhigh₁⟩ : ∃ q₁, lastPlace n d = max (-1074) q₁ ∧
      (2 : ℚ) ^ 52 * 2 ^ q₁ ≤ n / d ∧ (n : ℚ) / d < 2 ^ 53 * 2 ^ q₁ := by
    by_cases h : n * twoPow (-q₀).toNat < twoPow 53 * (d * twoPow q₀.toNat)
    · refine ⟨q₀, ?_, hlow', ?_⟩
      · rw [lastPlace, if_pos h]
      · simpa [cast_twoPow] using (scaled_lt_iff hd).mp h
    · -- the quotient has one more bit than the logarithms say
      refine ⟨q₀ + 1, ?_, ?_, hhigh'⟩
      · rw [lastPlace, if_neg h]
      · have := (scaled_le_iff hd).mp (not_lt.mp h)
        rw [cast_twoPow] at this
        rw [zpow_add_one₀ two_ne_zero]
        linarith
  rw [hq₁]
  constructor
  · calc (n : ℚ) / d < 2 ^ 53 * 2 ^ q₁ := hhigh₁
      _ ≤ 2 ^ 53 * 2 ^ max (-1074) q₁ := by
        gcongr
        · norm_num
        · exact le_max_right _ _
  · rcases le_total q₁ (-1074) with hq | hq
    · exact .inl (max_eq_left hq)
    · exact .inr (by rwa [max_eq_right hq])

/-! ### Whole numbers next to a ratio -/

lemma le_roundEven (h : k * d ≤ n) (hd : 0 < d) : k ≤ roundEven n d := by
  have hk : k ≤ n / d := (Nat.le_div_iff_mul_le hd).mpr h
  unfold roundEven
  dsimp only
  split
  · exact hk
  · split <;> omega

lemma roundEven_le (h : n < k * d) : roundEven n d ≤ k := by
  have hk : n / d < k := Nat.div_lt_of_lt_mul (by rwa [mul_comm])
  unfold roundEven
  dsimp only
  split
  · omega
  · split <;> omega

/-- Rounding goes up by half a unit at most. -/
lemma two_mul_roundEven_le (n d : ℕ) : 2 * roundEven n d * d ≤ 2 * n + d := by
  have hdiv := Nat.div_add_mod n d
  have hup : 2 * (n / d + 1) * d = 2 * (d * (n / d)) + 2 * d := by ring
  have hdown : 2 * (n / d) * d = 2 * (d * (n / d)) := by ring
  unfold roundEven
  dsimp only
  split
  · omega
  · rename_i hlt
    split
    · omega
    · -- a tie goes to the even neighbour
      rcases Nat.mod_two_eq_zero_or_one (n / d) with h | h
      · rw [h, Nat.add_zero]
        omega
      · rw [h]
        omega

/-! ### The range -/

/-- Half a place above the largest double. -/
def overflow : ℚ := (2 ^ 53 - 1 / 2) * 2 ^ (971 : ℤ)

lemma of?_isSome {m : ℕ} (h : Canonical m q) : (of? m q).isSome := by simp [of?, h]

lemma lastPlace_le (hn : n ≠ 0) (hd : 0 < d) (h : (n : ℚ) / d < overflow) :
    lastPlace n d ≤ 971 := by
  rcases (lastPlace_bounds hn hd).2 with hq | hq
  · omega
  · by_contra hlt
    have hpow : (2 : ℚ) * 2 ^ (971 : ℤ) ≤ 2 ^ lastPlace n d := by
      rw [← zpow_one_add₀ two_ne_zero]
      exact zpow_le_zpow_right₀ (by norm_num) (by omega)
    have hpos : (0 : ℚ) < 2 ^ (971 : ℤ) := by positivity
    rw [overflow] at h
    generalize (2 : ℚ) ^ (971 : ℤ) = p at *
    linarith

/-- A ratio is no more than half a unit below what it is rounded to. -/
lemma roundAt_sub_half_le (hd : 0 < d) (q : ℤ) :
    ((roundAt n d q : ℚ) - 1 / 2) * 2 ^ q ≤ n / d := by
  have hle : (2 * roundAt n d q * (d * twoPow q.toNat) : ℚ) ≤
      2 * (n * twoPow (-q).toNat) + d * twoPow q.toNat := by
    exact_mod_cast two_mul_roundEven_le (n * twoPow (-q).toNat) (d * twoPow q.toNat)
  have hd' : (0 : ℚ) < d := by exact_mod_cast hd
  have hp : (0 : ℚ) < 2 ^ (-q).toNat := by positivity
  rw [le_div_iff₀ hd', ← mul_le_mul_iff_left₀ hp]
  rw [cast_twoPow, cast_twoPow, ← two_zpow_mul q] at hle
  linarith

/-- At the greatest last place a ratio within the range is not rounded up to one more bit. -/
lemma roundAt_ne (hd : 0 < d) (h : (n : ℚ) / d < overflow) : roundAt n d 971 ≠ twoPow 53 := by
  intro hm
  have hle := roundAt_sub_half_le (n := n) hd 971
  rw [hm, cast_twoPow] at hle
  exact absurd h (not_lt.mpr hle)

/-- **A ratio below the overflow has a nearest double.** -/
theorem isSome_nearest? (hd : 0 < d) (h : (n : ℚ) / d < overflow) : (nearest? n d).isSome := by
  by_cases hn : n = 0
  · simp [nearest?, hn]
  · obtain ⟨hhigh, hlow⟩ := lastPlace_bounds hn hd
    have hq₁ := neg_le_lastPlace n d
    have hq₂ := lastPlace_le hn hd h
    have hm₁ : roundAt n d (lastPlace n d) ≤ twoPow 53 := by
      apply roundEven_le
      rw [scaled_lt_iff hd, cast_twoPow]
      exact hhigh
    have hm₂ : lastPlace n d = -1074 ∨ twoPow 52 ≤ roundAt n d (lastPlace n d) := by
      refine hlow.imp_right fun hlow => le_roundEven ?_ (Nat.mul_pos hd (twoPow_pos _))
      rw [scaled_le_iff hd, cast_twoPow]
      exact hlow
    rw [nearest?, if_neg hn]
    dsimp only
    split
    · rename_i hm
      -- the mantissa was rounded up to 2 ^ 53, and the next place is still in range
      refine of?_isSome ⟨by decide, by omega, ?_, .inl le_rfl⟩
      have hne : lastPlace n d ≠ 971 := fun hq => roundAt_ne hd h (hq ▸ hm)
      omega
    · exact of?_isSome ⟨by omega, hq₁, hq₂, hm₂.symm⟩

/-! ### Doubles within the range -/

/-- The largest double, a whole number. -/
def largest : ℕ := (twoPow 53 - 1) * twoPow 971

lemma twoPow_le_twoPow {a b : ℕ} (h : a ≤ b) : twoPow a ≤ twoPow b :=
  Nat.pow_le_pow_right (by decide) h

lemma num_le (x : Magnitude) : x.num ≤ largest * x.den := by
  obtain ⟨hm, -, he, -⟩ := x.canonical
  calc x.num = x.mantissa * twoPow x.exponent.toNat := rfl
    _ ≤ (twoPow 53 - 1) * twoPow 971 :=
      Nat.mul_le_mul (by omega) (twoPow_le_twoPow (by omega))
    _ ≤ largest * x.den := Nat.le_mul_of_pos_right _ x.den_pos

lemma cast_largest : (largest : ℚ) = (2 ^ 53 - 1) * 2 ^ (971 : ℤ) := by
  have hone : 1 ≤ twoPow 53 := twoPow_pos 53
  rw [largest, Nat.cast_mul, Nat.cast_sub hone, cast_twoPow, cast_twoPow, zpow_ofNat, Nat.cast_one]

lemma largest_add_half_lt : (largest : ℚ) + 1 / 2 < overflow := by
  have hpow : (1 : ℚ) < 2 ^ (971 : ℤ) := one_lt_zpow₀ (by norm_num) (by norm_num)
  rw [cast_largest, overflow]
  generalize (2 : ℚ) ^ (971 : ℤ) = p at *
  linarith

lemma ratio_le (x : Magnitude) : (x.num : ℚ) / x.den ≤ largest := by
  have hd : (0 : ℚ) < x.den := by exact_mod_cast x.den_pos
  rw [div_le_iff₀ hd]
  exact_mod_cast num_le x

end Abacus.Magnitude

namespace Abacus.Double

open Magnitude

lemma neg_le_signed (s : Bool) (n : ℕ) : -(n : ℤ) ≤ signed s n := by
  cases s <;> simp only [signed, if_true, Bool.false_eq_true, if_false] <;> omega

lemma signed_le (s : Bool) (n : ℕ) : signed s n ≤ n := by
  cases s <;> simp only [signed, if_true, Bool.false_eq_true, if_false] <;> omega

/-- The whole numbers next to a double have a nearest double. -/
lemma natAbs_floorRatio_le (s : Bool) (x : Magnitude) :
    (floorRatio s x.num x.den).natAbs ≤ largest := by
  have hd : (0 : ℤ) < x.den := by exact_mod_cast x.den_pos
  have hn : (x.num : ℤ) ≤ largest * x.den := by exact_mod_cast num_le x
  have hlow : -(largest * x.den : ℤ) ≤ signed s x.num := by
    have := neg_le_signed s x.num
    omega
  have hhigh : signed s x.num ≤ (largest * x.den : ℤ) := (signed_le s x.num).trans hn
  rw [floorRatio, Int.fdiv_eq_ediv_of_nonneg _ hd.le]
  have h₁ : -(largest : ℤ) ≤ signed s x.num / x.den := by
    rw [Int.le_ediv_iff_mul_le hd]
    linarith
  have h₂ : signed s x.num / (x.den : ℤ) ≤ largest := Int.ediv_le_of_le_mul hd hhigh
  omega

lemma isSome_of_le {i : ℤ} (h : i.natAbs ≤ largest) : (nearest? i.natAbs 1).isSome := by
  apply isSome_nearest? Nat.one_pos
  have hle : (i.natAbs : ℚ) ≤ largest := by exact_mod_cast h
  have := largest_add_half_lt
  rw [Nat.cast_one, div_one]
  linarith

/-- The sum of a magnitude and one half as a ratio. -/
lemma ratio_add_half_lt {x h : Magnitude} (hh : (h.num : ℚ) / h.den = 1 / 2) :
    ((x.num * h.den + h.num * x.den : ℕ) : ℚ) / ((x.den * h.den : ℕ) : ℚ) < overflow := by
  have hxd : (0 : ℚ) < x.den := by exact_mod_cast x.den_pos
  have hhd : (0 : ℚ) < h.den := by exact_mod_cast h.den_pos
  have hsplit : ((x.num * h.den + h.num * x.den : ℕ) : ℚ) / ((x.den * h.den : ℕ) : ℚ) =
      x.num / x.den + h.num / h.den := by
    push_cast
    field_simp
  have hle := ratio_le x
  have hlt := largest_add_half_lt
  rw [hsplit, hh]
  linarith

/-- One half more than a magnitude is still within the range. -/
lemma exists_add_half (x : Magnitude) :
    ∃ y, (Double.finite false x) + half = .finite false y := by
  obtain ⟨h, hhalf, hnum, hden⟩ : ∃ h : Magnitude,
      half = .finite false h ∧ h.num = twoPow 52 ∧ h.den = twoPow 53 :=
    ⟨⟨twoPow 52, -53, by decide⟩, rfl, Nat.mul_one _, rfl⟩
  have hh : (h.num : ℚ) / h.den = 1 / 2 := by
    rw [hnum, hden, cast_twoPow, cast_twoPow]
    norm_num
  have hsum : signed false (x.num * h.den) + signed false (h.num * x.den) =
      ((x.num * h.den + h.num * x.den : ℕ) : ℤ) := by
    simp [signed]
  have hpos : 0 < x.num * h.den + h.num * x.den :=
    Nat.add_pos_right _ (Nat.mul_pos (hnum ▸ twoPow_pos 52) x.den_pos)
  obtain ⟨y, hy⟩ := Option.isSome_iff_exists.mp
    (isSome_nearest? (Nat.mul_pos x.den_pos h.den_pos) (ratio_add_half_lt hh))
  refine ⟨y, ?_⟩
  have hne : ((x.num * h.den + h.num * x.den : ℕ) : ℤ) ≠ 0 := by omega
  have hnonneg : ¬ ((x.num * h.den + h.num * x.den : ℕ) : ℤ) < 0 := by omega
  rw [hhalf]
  show addFinite false x false h = .finite false y
  rw [addFinite, hsum]
  simp only [if_neg hne, ofRatio, Int.natAbs_natCast, hy, hnonneg, decide_false]

end Abacus.Double
