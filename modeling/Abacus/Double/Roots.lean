import Abacus.Double

/-!
Square and cube roots. The root is taken of a whole number large enough that its last places decide
every rounding, and an inexact one counts as half a place more.
-/

namespace Abacus.Double

/-- The whole part of the square root, by Newton's steps from above. -/
def sqrtSteps (n : Nat) : Nat → Nat → Nat
  | 0, x => x
  | fuel + 1, x =>
    let y := (x + n / x) / 2
    if y < x then sqrtSteps n fuel y else x

def sqrtNat (n : Nat) : Nat := sqrtSteps n (n.log2 + 2) (twoPow (n.log2 / 2 + 1))

/-- The whole part of the cube root, one bit at a time from the highest. -/
def cbrtBits (n : Nat) : Nat → Nat → Nat
  | 0, x => x
  | k + 1, x =>
    let y := x + twoPow k
    cbrtBits n k (if y * y * y ≤ n then y else x)

def cbrtNat (n : Nat) : Nat := cbrtBits n (n.log2 / 3 + 1) 0

/-- The square root of `n / d` to `places` binary places and one more for what is left. -/
def sqrtRatio (places n d : Nat) : Nat :=
  let scaled := n * twoPow (2 * places) / d
  let r := sqrtNat scaled
  2 * r + (if r * r * d = n * twoPow (2 * places) then 0 else 1)

def cbrtRatio (places n d : Nat) : Nat :=
  let scaled := n * twoPow (3 * places) / d
  let r := cbrtNat scaled
  2 * r + (if r * r * r * d = n * twoPow (3 * places) then 0 else 1)

/-- Enough binary places for a root of a number with the last place `2^q`. -/
def rootPlaces (q : Int) : Nat := 64 + (-q).toNat

/-- The square root of a number that is not negative, and NaN below zero. -/
def sqrt : Double → Double
  | .nan => .nan
  | .inf s => if s then .nan else .inf false
  | .finite s m =>
    if m.mantissa = 0 then .finite s m
    else if s then .nan
    else
      let p := rootPlaces m.exponent
      ofRatio false (sqrtRatio p m.num m.den) (twoPow (p + 1))

def cbrt : Double → Double
  | .finite s m =>
    if m.mantissa = 0 then .finite s m
    else
      let p := rootPlaces m.exponent
      ofRatio s (cbrtRatio p m.num m.den) (twoPow (p + 1))
  | x => x

/-- The length of the vector `(x, y)`: infinite as soon as one side is. -/
def hypot : Double → Double → Double
  | .inf _, _ => .inf false
  | _, .inf _ => .inf false
  | .nan, _ => .nan
  | _, .nan => .nan
  | .finite _ x, .finite _ y =>
    let n := x.num * x.num * (y.den * y.den) + y.num * y.num * (x.den * x.den)
    let d := x.den * x.den * (y.den * y.den)
    let p := rootPlaces (min x.exponent y.exponent)
    ofRatio false (sqrtRatio p n d) (twoPow (p + 1))

end Abacus.Double
