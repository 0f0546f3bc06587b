import Abacus.Elementary.Scaling

/-!
The circular functions and their inverses. The odd ones are computed on the magnitude and get the
sign of the argument.
-/

namespace Abacus.Circular

open Double Scaling

def sin : Double → Answer
  | .nan => .ok .nan
  | .inf _ => .error .domain
  | .finite s m =>
    let p := precision m
    zeroOr s m (.ok (signedBy s (ofFixed p (Fixed.sinCos p (fixed p m)).1)))

def cos : Double → Answer
  | .nan => .ok .nan
  | .inf _ => .error .domain
  | .finite _ m =>
    let p := precision m
    .ok (ofFixed p (Fixed.sinCos p (fixed p m)).2)

def tan : Double → Answer
  | .nan => .ok .nan
  | .inf _ => .error .domain
  | .finite s m =>
    let p := precision m
    let (a, b) := Fixed.sinCos p (fixed p m)
    zeroOr s m (.ok (signedBy s (ofScaledRatio ((a < 0) ^^ (b < 0)) a.natAbs b.natAbs 0)))

/-- The angle between `0` and a right angle whose tangent is `y / x`. -/
def angle (p y x : Nat) : Int :=
  if y ≤ x then Fixed.atan p (Fixed.ofRatio p y x)
  else Fixed.pi p / 2 - Fixed.atan p (Fixed.ofRatio p x y)

/-- `π · n / 4` with a sign. -/
def eighths (negative : Bool) (n : Nat) : Double :=
  ofScaled negative (Fixed.pi 256 * n).toNat (-258)

def atan : Double → Answer
  | .nan => .ok .nan
  | .inf s => .ok (eighths s 2)
  | .finite s m =>
    let p := precision m
    zeroOr s m (.ok (signedBy s (ofFixed p (angle p m.num m.den))))

/-- The other side of a right triangle with one side `a` and the long side one. -/
def cofixed (p a : Nat) : Nat := Double.sqrtNat (Fixed.unit p * Fixed.unit p - a * a)

def asin : Double → Answer
  | .nan => .ok .nan
  | .inf _ => .error .domain
  | .finite s m =>
    if m.den < m.num then .error .domain
    else
      let p := precision m
      let a := fixed p m
      zeroOr s m (.ok (signedBy s (ofFixed p (angle p a (cofixed p a)))))

def acos : Double → Answer
  | .nan => .ok .nan
  | .inf _ => .error .domain
  | .finite s m =>
    if m.den < m.num then .error .domain
    else
      let p := precision m
      let a := fixed p m
      let t := angle p (cofixed p a) a
      .ok (ofFixed p (if s then Fixed.pi p - t else t))

/-- The angle of the point `(x, y)`. -/
def atan2 : Double → Double → Answer
  | .nan, _ => .ok .nan
  | _, .nan => .ok .nan
  | .inf s, .inf t => .ok (eighths s (if t then 3 else 1))
  | .inf s, .finite _ _ => .ok (eighths s 2)
  | .finite s _, .inf t => .ok (if t then eighths s 4 else zero s)
  | .finite s y, .finite t x =>
    if y.mantissa = 0 then .ok (if t then eighths s 4 else zero s)
    else
      let p := 256 + (topPlace y - topPlace x).natAbs
      let a := angle p (y.num * x.den) (x.num * y.den)
      .ok (signedBy s (ofFixed p (if t then Fixed.pi p - a else a)))

end Abacus.Circular
