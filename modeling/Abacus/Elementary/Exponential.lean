import Abacus.Elementary.Scaling

/-!
Exponentials, logarithms and the hyperbolic functions. An argument whose exponential is far out of
range is decided by its size; a logarithm has neither zero nor negative numbers in its domain.
-/

namespace Abacus.Exponential

open Double Scaling

def exp : Double → Answer
  | .nan => .ok .nan
  | .inf s => .ok (if s then zero false else .inf false)
  | .finite s m =>
    if atLeast m 1024 then (if s then .ok (zero false) else .error .range)
    else
      let p := precision m
      let (e, k) := Fixed.exp p (signed s (fixed p m))
      inRange (ofScaled false e (k - p))

/-- The exponential of `m` and of `-m`. -/
def expPair (p : Nat) (m : Magnitude) : Nat × Nat :=
  let (e, k) := Fixed.exp p (fixed p m)
  let a := e * twoPow k.toNat
  (a, Fixed.div p (Fixed.unit p) a)

def sinh : Double → Answer
  | .nan => .ok .nan
  | .inf s => .ok (.inf s)
  | .finite s m =>
    if atLeast m 1024 then .error .range
    else
      let p := precision m
      let (a, b) := expPair p m
      zeroOr s m (inRange (ofScaled s (a - b) (-(p + 1))))

def cosh : Double → Answer
  | .nan => .ok .nan
  | .inf _ => .ok (.inf false)
  | .finite _ m =>
    if atLeast m 1024 then .error .range
    else
      let p := precision m
      let (a, b) := expPair p m
      inRange (ofScaled false (a + b) (-(p + 1)))

def tanh : Double → Answer
  | .nan => .ok .nan
  | .inf s => .ok (one.withSign s)
  | .finite s m =>
    if atLeast m 64 then .ok (one.withSign s)
    else
      let p := precision m
      let (a, b) := expPair p m
      zeroOr s m (.ok (ofRatio s (a - b) (a + b)))

def asinh : Double → Answer
  | .finite s m =>
    let p := precision m
    let a := fixed p m
    let r := a + Double.sqrtNat (a * a + Fixed.unit p * Fixed.unit p)
    zeroOr s m (.ok (signedBy s (ofFixed p (Fixed.log p r (Fixed.unit p)))))
  | x => .ok x

def acosh : Double → Answer
  | .nan => .ok .nan
  | .inf s => if s then .error .domain else .ok (.inf false)
  | .finite s m =>
    if s || m.num < m.den then .error .domain
    else
      let p := precision m
      let a := fixed p m
      let r := a + Double.sqrtNat (a * a - Fixed.unit p * Fixed.unit p)
      .ok (ofFixed p (Fixed.log p r (Fixed.unit p)))

def atanh : Double → Answer
  | .nan => .ok .nan
  | .inf _ => .error .domain
  | .finite s m =>
    if m.den ≤ m.num then .error .domain
    else
      let p := precision m
      let a := Fixed.log p (m.den + m.num) (m.den - m.num)
      zeroOr s m (.ok (signedBy s (ofFixed (p + 1) a)))

/-- The logarithm of a positive number by `f`, from its numerator and denominator. -/
def logBy (f : Nat → Nat → Nat → Int) : Double → Answer
  | .nan => .ok .nan
  | .inf s => if s then .error .domain else .ok (.inf false)
  | .finite s m =>
    if s || m.mantissa = 0 then .error .domain else .ok (ofFixed 384 (f 384 m.num m.den))

def log : Double → Answer := logBy Fixed.log

def log2 : Double → Answer :=
  logBy fun p n d => (Fixed.log p n d * twoPow p).fdiv (Fixed.ln2 p)

def log10 : Double → Answer :=
  logBy fun p n d => (Fixed.log p n d * twoPow p).fdiv (Fixed.log p 10 1)

end Abacus.Exponential
