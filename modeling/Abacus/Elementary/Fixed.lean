import Abacus.Double.Roots

/-!
Series for the elementary functions in fixed point: a whole number `a` at precision `p` stands for
`a / 2^p`. Every series has terms of one sign or of alternating signs that shrink to nothing, and
stops at the first term that vanishes.
-/

namespace Abacus.Fixed

/-- One. -/
def unit (p : Nat) : Nat := twoPow p

def ofRatio (p n d : Nat) : Nat := n * twoPow p / d

def mul (p a b : Nat) : Nat := a * b / twoPow p

def div (p a b : Nat) : Nat := a * twoPow p / b

def sqrt (p a : Nat) : Nat := Double.sqrtNat (a * twoPow p)

/-- `∑ (± 1)^j t · x^j / (2j + 1)` from the term `j`, with the sign `minus` first. -/
def oddTerms (alternate : Bool) (p x : Nat) : Nat → Nat → Nat → Bool → Int → Int
  | 0, _, _, _, sum => sum
  | fuel + 1, j, t, minus, sum =>
    if t = 0 then sum
    else
      let term : Int := t / (2 * j + 1)
      oddTerms alternate p x fuel (j + 1) (mul p t x) (alternate && !minus)
        (if minus then sum - term else sum + term)

/-- The inverse tangent of a small `t`. -/
def atanSeries (p t : Nat) : Int := oddTerms true p (mul p t t) (p + 2) 0 t false 0

/-- The inverse hyperbolic tangent of a small `t`. -/
def atanhSeries (p t : Nat) : Int := oddTerms false p (mul p t t) (p + 2) 0 t false 0

/-- The inverse tangent of `t` between `0` and `1`, from that of half the angle. -/
def atanHalves (p : Nat) : Nat → Nat → Int
  | 0, t => atanSeries p t
  | k + 1, t => 2 * atanHalves p k (div p t (unit p + sqrt p (unit p + mul p t t)))

def atan (p t : Nat) : Int := atanHalves p 3 t

/-- `16 atan (1/5) - 4 atan (1/239)`. -/
def pi (p : Nat) : Int :=
  16 * atanSeries p (ofRatio p 1 5) - 4 * atanSeries p (ofRatio p 1 239)

/-- `2 atanh (1/3)`. -/
def ln2 (p : Nat) : Int := 2 * atanhSeries p (ofRatio p 1 3)

/-- The natural logarithm of `n / d`: a power of two is taken out that leaves a number near one. -/
def log (p n d : Nat) : Int :=
  let k := (n.log2 : Int) - d.log2
  let n' := n * twoPow (-k).toNat
  let d' := d * twoPow k.toNat
  let (k, n', d') :=
    if 3 * n' < 2 * d' then (k - 1, 2 * n', d')
    else if 4 * d' < 3 * n' then (k + 1, n', 2 * d') else (k, n', d')
  let t : Int :=
    if d' ≤ n' then atanhSeries p (ofRatio p (n' - d') (n' + d'))
    else -atanhSeries p (ofRatio p (d' - n') (n' + d'))
  2 * t + k * ln2 p

/-- `∑ x^j / j!` from the term `t` with the number `j`. -/
def expTerms (p x : Nat) : Nat → Nat → Nat → Nat → Nat
  | 0, _, _, sum => sum
  | fuel + 1, j, t, sum =>
    if t = 0 then sum else expTerms p x fuel (j + 1) (mul p t x / (j + 1)) (sum + t)

/-- The exponential of `a` as a number from one to two and a power of two. -/
def exp (p : Nat) (a : Int) : Nat × Int :=
  let k := a.fdiv (ln2 p)
  let r := (a - k * ln2 p).toNat
  (expTerms p r (p + 2) 0 (unit p) 0, k)

/-- `∑ (-1)^j t · x^j / ((c+1)(c+2) ⋯ (c+2j))` from the term `t`. -/
def evenTerms (p x : Nat) : Nat → Nat → Nat → Bool → Int → Int
  | 0, _, _, _, sum => sum
  | fuel + 1, c, t, minus, sum =>
    if t = 0 then sum
    else
      evenTerms p x fuel (c + 2) (mul p t x / ((c + 1) * (c + 2))) (!minus)
        (if minus then sum - t else sum + t)

/-- Sine and cosine of an angle between `0` and a right angle. -/
def sinCosAcute (p r : Nat) : Int × Int :=
  let x := mul p r r
  (evenTerms p x (p + 2) 1 r false 0, evenTerms p x (p + 2) 0 (unit p) false 0)

/-- Sine and cosine of any angle, by quarter turns. -/
def sinCos (p : Nat) (a : Int) : Int × Int :=
  let turn := pi p
  let k := (2 * a).fdiv turn
  let r := (2 * a - k * turn).toNat / 2
  let (s, c) := sinCosAcute p r
  match (k % 4).toNat with
  | 0 => (s, c)
  | 1 => (c, -s)
  | 2 => (-s, -c)
  | _ => (-c, s)

/-- `∑ 128^j / (r (r+1) ⋯ (r+j))` from the term `t` with the divisor `r + j`. -/
def gammaTerms (p : Nat) : Nat → Nat → Nat → Nat → Nat
  | 0, _, _, sum => sum
  | fuel + 1, r, t, sum =>
    if t = 0 then sum
    else gammaTerms p fuel (r + unit p) (div p (128 * t) (r + unit p)) (sum + t)

/-- The gamma function of `r` from one to two, as a number and a power of two: the integral to `128`
as a series; what is left out is less than `2^-170`. -/
def gammaUnit (p r : Nat) : Nat × Int :=
  let sum := gammaTerms p (2 * p + 1000) r (div p (unit p) r) 0
  let (e, k) := exp p (7 * (ln2 p * r / twoPow p) - 128 * unit p)
  (mul p sum e, k)

/-- `a · r (r+1) ⋯ (r+n-1)`. -/
def rising (p : Nat) : Nat → Nat → Nat → Nat
  | 0, _, a => a
  | n + 1, r, a => rising p n (r + unit p) (mul p a r)

end Abacus.Fixed
