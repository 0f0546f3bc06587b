import Abacus.Elementary.Scaling

/-!
Powers. Small whole exponents and powers of two are exact before they are rounded, the others go
through the logarithm; zeros, infinities and signs follow the limits.
-/

namespace Abacus.Power

open Double Scaling

/-- Whether `m` is a power of two. -/
def isPowerOfTwo (m : Magnitude) : Bool := m.mantissa == twoPow m.mantissa.log2

/-- `2^e`, not written out where it is far out of range. -/
def twoTo (e : Int) : Double :=
  if 2000 < e then .inf false else if e < -2000 then zero false else ofScaled false 1 e

/-- `x^y` by the logarithm; beyond `2^70` an exponent decides by its sign alone. -/
def powByLog (x : Magnitude) (s : Bool) (y : Magnitude) : Double :=
  let grows := s != decide (x.den < x.num)
  if atLeast y (twoPow 70) then (if grows then .inf false else zero false)
  else
    let p := 384
    let a := Fixed.log p x.num x.den * signed s y.num / y.den
    if 1024 * twoPow p ≤ a then .inf false
    else if a ≤ -1100 * twoPow p then zero false
    else
      let (e, k) := Fixed.exp p a
      ofScaled false e (k - p)

/-- `x^y` for `x` not zero; small whole powers and powers of two are exact before rounding. -/
def powMagnitude (x : Magnitude) (s : Bool) (y : Magnitude) : Double :=
  let n := y.num / y.den
  if y.num % y.den = 0 ∧ n ≤ 64 then
    if s then ofRatio false (x.den.pow n) (x.num.pow n)
    else ofRatio false (x.num.pow n) (x.den.pow n)
  else
    let e := topPlace x * signed s y.num
    if isPowerOfTwo x ∧ e % y.den = 0 then twoTo (e / y.den) else powByLog x s y

def isOdd (y : Magnitude) : Bool := y.num % (2 * y.den) == y.den

/-- A zero base and a negative exponent have no finite result, and neither has a negative base any
power that is not whole. -/
def powFinite (s : Bool) (x : Magnitude) (t : Bool) (y : Magnitude) : Answer :=
  let negative := s && isOdd y
  if x.mantissa = 0 then (if t then .error .domain else .ok (zero negative))
  else if s ∧ y.num % y.den ≠ 0 then .error .domain
  else inRange ((powMagnitude x t y).withSign negative)

def pow (x y : Double) : Answer :=
  if y.isZero || x == one then .ok one
  else
    match x, y with
    | .nan, _ => .ok .nan
    | _, .nan => .ok .nan
    | .inf _, .inf t => .ok (if t then zero false else .inf false)
    | .inf s, .finite t n => .ok (if t then zero (s && isOdd n) else .inf (s && isOdd n))
    | .finite _ m, .inf t =>
      if m.num = m.den then .ok one
      else .ok (if t != decide (m.den < m.num) then .inf false else zero false)
    | .finite s m, .finite t n => powFinite s m t n

end Abacus.Power
