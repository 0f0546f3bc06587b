import Abacus.Double

/-!
Arithmetic on doubles: the exact result of the two values, rounded once. Division by zero and the
infinities follow their signs; what has no value is NaN.
-/

namespace Abacus.Double

/-- The numerator with its sign. -/
def signed (negative : Bool) (n : Nat) : Int := if negative then -n else n

/-- An exact zero is positive unless both terms are negative. -/
def addFinite (s : Bool) (x : Magnitude) (t : Bool) (y : Magnitude) : Double :=
  let sum := signed s (x.num * y.den) + signed t (y.num * x.den)
  if sum = 0 then zero (s && t) else ofRatio (sum < 0) sum.natAbs (x.den * y.den)

def add : Double → Double → Double
  | .nan, _ => .nan
  | _, .nan => .nan
  | .inf s, .inf t => if s = t then .inf s else .nan
  | .inf s, .finite _ _ => .inf s
  | .finite _ _, .inf t => .inf t
  | .finite s x, .finite t y => addFinite s x t y

def sub (x y : Double) : Double := add x y.neg

def mul : Double → Double → Double
  | .nan, _ => .nan
  | _, .nan => .nan
  | .inf s, .inf t => .inf (s ^^ t)
  | .inf s, .finite t y => if y.mantissa = 0 then .nan else .inf (s ^^ t)
  | .finite s x, .inf t => if x.mantissa = 0 then .nan else .inf (s ^^ t)
  | .finite s x, .finite t y => ofRatio (s ^^ t) (x.num * y.num) (x.den * y.den)

def div : Double → Double → Double
  | .nan, _ => .nan
  | _, .nan => .nan
  | .inf _, .inf _ => .nan
  | .inf s, .finite t _ => .inf (s ^^ t)
  | .finite s _, .inf t => zero (s ^^ t)
  | .finite s x, .finite t y =>
    if y.mantissa = 0 then (if x.mantissa = 0 then .nan else .inf (s ^^ t))
    else ofRatio (s ^^ t) (x.num * y.den) (x.den * y.num)

/-- What is left of `x` after whole multiples of `y`, with the sign of `x`; always exact. -/
def mod : Double → Double → Double
  | .nan, _ => .nan
  | _, .nan => .nan
  | .inf _, _ => .nan
  | .finite s x, .inf _ => .finite s x
  | .finite s x, .finite _ y =>
    if y.mantissa = 0 then .nan
    else ofRatio s ((x.num * y.den) % (y.num * x.den)) (x.den * y.den)

/-- The order of the values; NaN is in no relation, and the zeros are equal. -/
def lt : Double → Double → Bool
  | .nan, _ => false
  | _, .nan => false
  | .inf s, .inf t => s && !t
  | .inf s, .finite _ _ => s
  | .finite _ _, .inf t => !t
  | .finite s x, .finite t y =>
    signed s (x.num * y.den) < signed t (y.num * x.den)

instance : Add Double := ⟨add⟩
instance : Sub Double := ⟨sub⟩
instance : Mul Double := ⟨mul⟩
instance : Div Double := ⟨div⟩
instance : Mod Double := ⟨mod⟩

end Abacus.Double
