import Abacus.Decimal.Shortest
import Abacus.Proofs.Nearest

/-!
What is a double already is rounded to itself. Rounding depends on a ratio and not on its terms, so
decimals of one value are one double however their zeros are written, and the shortest digits of a
double, which are tried before they are taken, read as that double.
-/

namespace Abacus.Magnitude

variable {n d n' d' k : ℕ} {q : ℤ}

/-! ### Ratios of one value -/

lemma roundEven_mul (n d : ℕ) (hk : 0 < k) : roundEven (n * k) (d * k) = roundEven n d := by
  have htwice : 2 * (n % d * k) = 2 * (n % d) * k := by ring
  unfold roundEven
  rw [Nat.mul_div_mul_right _ _ hk, Nat.mul_mod_mul_right]
  simp only [htwice, Nat.mul_lt_mul_right hk]

lemma roundEven_congr (hd : 0 < d) (hd' : 0 < d') (h : n * d' = n' * d) :
    roundEven n d = roundEven n' d' := by
  rw [← roundEven_mul n d hd', h, ← roundEven_mul n' d' hd, Nat.mul_comm d d']

lemma roundEven_self (k : ℕ) (hd : 0 < d) : roundEven (k * d) d = k := by
  simp [roundEven, hd]

lemma roundEven_cases (n d : ℕ) : roundEven n d = n / d ∨ roundEven n d = n / d + 1 := by
  unfold roundEven
  dsimp only
  split
  · exact .inl rfl
  · split <;> omega

lemma cast_div_congr (hd : 0 < d) (hd' : 0 < d') (h : n * d' = n' * d) :
    (n : ℚ) / d = n' / d' := by
  rw [div_eq_div_iff (by positivity) (by positivity)]
  exact_mod_cast h

/-- Only one place keeps 53 bits. -/
lemma lastPlace_eq (hn : n ≠ 0) (hd : 0 < d) (hq : -1074 ≤ q) (hhigh : (n : ℚ) / d < 2 ^ 53 * 2 ^ q)
    (hlow : q = -1074 ∨ 2 ^ 52 * 2 ^ q ≤ (n : ℚ) / d) : lastPlace n d = q := by
  have hapart : ∀ {a b : ℤ} {r : ℚ}, a < b → r < 2 ^ 53 * 2 ^ a → 2 ^ 52 * 2 ^ b ≤ r → False := by
    intro a b r hab hr hb
    have hpow : (2 : ℚ) * 2 ^ a ≤ 2 ^ b := by
      rw [← zpow_one_add₀ two_ne_zero]
      exact zpow_le_zpow_right₀ (by norm_num) (by omega)
    linarith
  -- two places with the number in range of both are not apart
  obtain ⟨hhigh', hlow'⟩ := lastPlace_bounds hn hd
  have hq' := neg_le_lastPlace n d
  rcases lt_trichotomy (lastPlace n d) q with hlt | heq | hgt
  · rcases hlow with hlow | hlow
    · omega
    · exact (hapart hlt hhigh' hlow).elim
  · exact heq
  · rcases hlow' with hlow' | hlow'
    · omega
    · exact (hapart hgt hhigh hlow').elim

/-- **Rounding depends on the ratio alone.** -/
theorem nearest?_congr (hd : 0 < d) (hd' : 0 < d') (h : n * d' = n' * d) :
    nearest? n d = nearest? n' d' := by
  by_cases hn : n = 0
  · obtain rfl : n' = 0 := by
      rw [hn, Nat.zero_mul] at h
      exact (Nat.mul_eq_zero.mp h.symm).resolve_right hd.ne'
    simp [nearest?, hn]
  · have hn' : n' ≠ 0 := by
      rintro rfl
      rw [Nat.zero_mul] at h
      exact (Nat.mul_eq_zero.mp h).elim hn hd'.ne'
    have hplace : lastPlace n d = lastPlace n' d' := by
      obtain ⟨hhigh, hlow⟩ := lastPlace_bounds hn' hd'
      rw [← cast_div_congr hd hd' h] at hhigh hlow
      exact lastPlace_eq hn hd (neg_le_lastPlace _ _) hhigh hlow
    have hround : ∀ q, roundAt n d q = roundAt n' d' q := by
      intro q
      refine roundEven_congr (Nat.mul_pos hd (twoPow_pos _)) (Nat.mul_pos hd' (twoPow_pos _)) ?_
      calc n * twoPow (-q).toNat * (d' * twoPow q.toNat)
          = n * d' * (twoPow (-q).toNat * twoPow q.toNat) := by ring
        _ = n' * d * (twoPow (-q).toNat * twoPow q.toNat) := by rw [h]
        _ = n' * twoPow (-q).toNat * (d * twoPow q.toNat) := by ring
    rw [nearest?, nearest?, if_neg hn, if_neg hn', hplace]
    simp only [hround]

/-! ### The ratio of a magnitude -/

lemma num_ne_zero {x : Magnitude} (hx : x.mantissa ≠ 0) : x.num ≠ 0 :=
  Nat.mul_ne_zero hx (twoPow_pos _).ne'

lemma eq_zero {x : Magnitude} (hx : x.mantissa = 0) : x = zero := by
  have hq : x.exponent = -1074 := by
    refine x.canonical.2.2.2.resolve_left ?_
    rw [hx]
    exact Nat.not_le.mpr (twoPow_pos 52)
  cases x
  simp_all [zero]

lemma ratio_eq (x : Magnitude) : (x.num : ℚ) / x.den = x.mantissa * 2 ^ x.exponent := by
  have hd : (0 : ℚ) < 2 ^ (-x.exponent).toNat := by positivity
  rw [num, den, Nat.cast_mul, cast_twoPow, cast_twoPow, div_eq_iff hd.ne', mul_assoc,
    two_zpow_mul]

/-- **A magnitude is nearest to its own ratio.** -/
theorem nearest?_self (x : Magnitude) : nearest? x.num x.den = some x := by
  by_cases hx : x.mantissa = 0
  · rw [eq_zero hx]
    rfl
  · obtain ⟨hm, hq, hq', hfull⟩ := x.canonical
    have hplace : lastPlace x.num x.den = x.exponent := by
      have hpos : (0 : ℚ) < 2 ^ x.exponent := by positivity
      refine lastPlace_eq (num_ne_zero hx) x.den_pos hq ?_ ?_
      · rw [ratio_eq, mul_lt_mul_iff_left₀ hpos, ← cast_twoPow]
        exact_mod_cast hm
      · refine hfull.symm.imp_right fun hfull => ?_
        rw [ratio_eq, mul_le_mul_iff_left₀ hpos, ← cast_twoPow]
        exact_mod_cast hfull
    have hround : roundAt x.num x.den x.exponent = x.mantissa := by
      rw [roundAt, num, den, Nat.mul_assoc, Nat.mul_comm (twoPow x.exponent.toNat)]
      exact roundEven_self _ (Nat.mul_pos (twoPow_pos _) (twoPow_pos _))
    have hof : of? x.mantissa x.exponent = some x := by
      rw [of?, dif_pos x.canonical]
    rw [nearest?, if_neg (num_ne_zero hx)]
    simp only [hplace, hround, if_neg hm.ne, hof]

lemma nearest?_of_ratio {x : Magnitude} (hd : 0 < d) (h : n * x.den = x.num * d) :
    nearest? n d = some x := by
  rw [nearest?_congr hd x.den_pos h, nearest?_self]

end Abacus.Magnitude

namespace Abacus.Decimal

open Magnitude

variable {x : Decimal} {m : Magnitude}

lemma tenPow_pos (n : ℕ) : 0 < tenPow n := Nat.pow_pos (by decide)

lemma tenPow_add (a b : ℕ) : tenPow (a + b) = tenPow a * tenPow b := Nat.pow_add _ _ _

lemma le_log2 {n k : ℕ} (hn : n ≠ 0) (h : twoPow k ≤ n) : k ≤ n.log2 := (Nat.le_log2 hn).mpr h

/-! ### Decimals of one value -/

/-- The sign is put before what has been read. -/
lemma toDouble_of_reads (h : x.toDouble false = .finite false m) (negative : Bool) :
    x.toDouble negative = .finite negative m := by
  have hzero : Double.zero false = .finite false m → Double.zero negative = .finite negative m := by
    intro h
    rw [Double.zero, (Double.finite.inj h).2]
  unfold toDouble at h ⊢
  split_ifs at h ⊢
  · exact hzero h
  · exact hzero h
  · unfold Double.ofRatio at h ⊢
    split at h
    · rw [(Double.finite.inj h).2]
    · simp at h

lemma toDouble_of_ratio (hx : x.digits ≠ 0) (hhigh : x.exponent ≤ 400)
    (hlow : -400 ≤ x.exponent + x.digits.log2)
    (h : x.digits * tenPow x.exponent.toNat * m.den = m.num * tenPow (-x.exponent).toNat) :
    x.toDouble false = .finite false m := by
  rw [toDouble, if_neg hx, if_neg (by omega), if_neg (by omega), Double.ofRatio,
    nearest?_of_ratio (tenPow_pos _) h]

/-- What a decimal that reads as a double other than zero amounts to. -/
lemma exists_ratio (hm : m.mantissa ≠ 0) (h : x.toDouble false = .finite false m) :
    x.digits ≠ 0 ∧ x.exponent ≤ 400 ∧ -400 ≤ x.exponent + x.digits.log2 ∧
      nearest? (x.digits * tenPow x.exponent.toNat) (tenPow (-x.exponent).toNat) = some m := by
  have hzero : Double.zero false ≠ .finite false m := by
    intro h
    rw [← (Double.finite.inj h).2] at hm
    exact hm rfl
  unfold toDouble at h
  split_ifs at h with hx hhigh hlow
  · exact absurd h hzero
  · exact absurd h hzero
  · refine ⟨hx, by omega, by omega, ?_⟩
    unfold Double.ofRatio at h
    split at h
    · rename_i y hy
      rw [hy, (Double.finite.inj h).2]
    · simp at h

/-- **Zeros may be written out**: the value does not change, and the double neither. -/
theorem toDouble_shift (hm : m.mantissa ≠ 0) (h : x.toDouble false = .finite false m) (j : ℕ) :
    toDouble false ⟨x.digits * tenPow j, x.exponent - j⟩ = .finite false m := by
  obtain ⟨hx, hhigh, hlow, hnear⟩ := exists_ratio hm h
  have hx' : x.digits * tenPow j ≠ 0 := Nat.mul_ne_zero hx (tenPow_pos j).ne'
  have hlog : x.digits.log2 + j ≤ (x.digits * tenPow j).log2 := by
    refine le_log2 hx' ?_
    calc twoPow (x.digits.log2 + j) = twoPow x.digits.log2 * twoPow j := Nat.pow_add _ _ _
      _ ≤ x.digits * tenPow j :=
        Nat.mul_le_mul (Nat.log2_self_le hx) (Nat.pow_le_pow_left (by decide) j)
  have hpow : tenPow j * tenPow (x.exponent - j).toNat * tenPow (-x.exponent).toNat =
      tenPow x.exponent.toNat * tenPow (-(x.exponent - j)).toNat := by
    rw [← tenPow_add, ← tenPow_add, ← tenPow_add]
    congr 1
    omega
  have hsame : nearest? (x.digits * tenPow j * tenPow (x.exponent - j).toNat)
      (tenPow (-(x.exponent - j)).toNat) = some m := by
    rw [← hnear]
    refine nearest?_congr (tenPow_pos _) (tenPow_pos _) ?_
    rw [Nat.mul_assoc x.digits, Nat.mul_assoc x.digits, hpow, Nat.mul_assoc]
  -- the guards on the size still pass, as they look at the sum of both
  rw [toDouble, if_neg hx', if_neg (by dsimp only; omega), if_neg (by dsimp only; omega)]
  dsimp only
  rw [Double.ofRatio, hsame]

/-! ### The digits of a double -/

lemma toDouble_exactly (hm : m.mantissa ≠ 0) : m.exactly.toDouble false = .finite false m := by
  have hfive : ∀ k, Nat.pow 5 k * twoPow k = tenPow k := fun k => (Nat.mul_pow 5 2 k).symm
  have hle : twoPow (-m.exponent).toNat ≤ m.exactly.digits := by
    calc twoPow (-m.exponent).toNat ≤ Nat.pow 5 (-m.exponent).toNat :=
        Nat.pow_le_pow_left (by decide) _
      _ ≤ m.num * Nat.pow 5 (-m.exponent).toNat :=
        Nat.le_mul_of_pos_left _ (Nat.pos_of_ne_zero (num_ne_zero hm))
  have hx : m.exactly.digits ≠ 0 := (Nat.lt_of_lt_of_le (twoPow_pos _) hle).ne'
  have hlog := le_log2 hx hle
  have hexp : m.exactly.exponent = min m.exponent 0 := rfl
  -- the exponent is never positive here, so no power of ten stands above the line
  have hup : m.exactly.exponent.toNat = 0 := by omega
  have hdown : (-m.exactly.exponent).toNat = (-m.exponent).toNat := by omega
  refine toDouble_of_ratio hx (by omega) (by omega) ?_
  calc m.exactly.digits * tenPow m.exactly.exponent.toNat * m.den
      = m.num * Nat.pow 5 (-m.exponent).toNat * 1 * twoPow (-m.exponent).toNat := by
        rw [hup]
        rfl
    _ = m.num * (Nat.pow 5 (-m.exponent).toNat * twoPow (-m.exponent).toNat) := by ring
    _ = m.num * tenPow (-m.exactly.exponent).toNat := by rw [hfive, hdown]

lemma reads_onGrid {e : ℤ} {k : ℕ} (h : m.onGrid? e = some k) :
    toDouble false ⟨k, e⟩ = .finite false m := by
  have hreads : ∀ {k}, m.reads k e = true → toDouble false ⟨k, e⟩ = .finite false m := by
    intro k hk
    exact beq_iff_eq.mp hk
  unfold onGrid? at h
  dsimp only at h
  split at h
  · rename_i hk hk'
    obtain rfl := Option.some.inj h
    rcases roundEven_cases (m.num * tenPow (-e).toNat) (m.den * tenPow e.toNat) with h | h <;>
      rw [h]
    · exact hreads hk
    · exact hreads hk'
  · rename_i hk _
    exact Option.some.inj h ▸ hreads hk
  · rename_i _ hk'
    exact Option.some.inj h ▸ hreads hk'
  · simp at h

/-- **The shortest digits of a double read as that double.** -/
theorem toDouble_shortest (hm : m.mantissa ≠ 0) :
    m.shortest.toDouble false = .finite false m := by
  have hgrids : ∀ fuel e, (m.searchGrids fuel e).toDouble false = .finite false m := by
    intro fuel
    induction fuel with
    | zero => exact fun _ => toDouble_exactly hm
    | succ fuel ih =>
      intro e
      rw [searchGrids]
      split
      · rename_i k hk
        exact reads_onGrid hk
      · exact ih _
  exact hgrids _ _

/-- The digits of a whole number read as it. -/
lemma toDouble_whole {n : ℕ} (h : n * m.den = m.num) :
    toDouble false ⟨n, 0⟩ = .finite false m := by
  by_cases hn : n = 0
  · have hm : m.mantissa = 0 := by
      by_contra hm
      rw [hn, Nat.zero_mul] at h
      exact num_ne_zero hm h.symm
    rw [toDouble, if_pos hn, eq_zero hm, Double.zero]
  · exact toDouble_of_ratio hn (by dsimp only; omega) (by dsimp only; omega)
      (by simpa [tenPow] using h)

end Abacus.Decimal
