import Abacus.Elementary.Scaling

/-!
The gamma function: products for whole numbers, a series between one and two from which the other
positive numbers follow by multiplication, and the negative ones by reflection.
-/

namespace Abacus.Gamma

open Double Scaling

/-- The product of the numbers below `n`, without zero. -/
def gammaNat : Nat → Nat
  | 0 => 1
  | 1 => 1
  | n + 1 => n * gammaNat n

/-- The gamma function of `r + n`, where `r` is one more than the part of `m` after the point. -/
def gammaAbove (p : Nat) (m : Magnitude) (n : Nat) : Nat × Int :=
  let r := Fixed.ofRatio p (m.num % m.den + m.den) m.den
  let (g, k) := Fixed.gammaUnit p r
  (Fixed.rising p n r g, k)

/-- Not a whole number. -/
def gammaPositive (m : Magnitude) : Answer :=
  if atLeast m 172 then .error .range
  else
    let p := 384
    let n := m.num / m.den
    let (g, k) := gammaAbove p m (n - 1)
    inRange
      (if n = 0 then ofScaledRatio false (g * m.den) m.num (k - p) else ofScaled false g (k - p))

/-- By reflection; the sign changes at every whole number, and far out the result vanishes. -/
def gammaNegative (m : Magnitude) : Answer :=
  let n := m.num / m.den
  let s := n % 2 == 0
  if atLeast m 200 then .ok (zero s)
  else
    let p := 384 + (topPlace m).natAbs
    let (g, k) := gammaAbove p m n
    let a := (Fixed.sinCos p (Fixed.pi p * (m.num % m.den : Nat) / m.den)).1.toNat
    inRange (ofScaledRatio s (Fixed.pi p).toNat (a * g) (p - k))

def gamma : Double → Answer
  | .nan => .ok .nan
  | .inf s => if s then .error .domain else .ok (.inf false)
  | .finite s m =>
    if m.mantissa = 0 then .error .domain
    else if m.num % m.den = 0 then
      if s then .error .domain
      else if atLeast m 172 then .error .range
      else inRange (ofNat (gammaNat (m.num / m.den)))
    else if s then gammaNegative m
    else gammaPositive m

end Abacus.Gamma
