import Abacus.Double.Integral
import Abacus.Elementary
import Abacus.Elementary.Fixed

/-!
Between doubles and fixed point: how many places a result needs, and the double nearest to a result
with so many places.
-/

namespace Abacus.Scaling

open Double

/-- The place of the first binary digit. -/
def topPlace (m : Magnitude) : Int := m.mantissa.log2 + m.exponent

/-- Places enough for a result of the size of `m`, or of its inverse. -/
def precision (m : Magnitude) : Nat := 256 + (topPlace m).natAbs

def fixed (p : Nat) (m : Magnitude) : Nat := Fixed.ofRatio p m.num m.den

def ofFixed (p : Nat) (a : Int) : Double := ofScaled (a < 0) a.natAbs (-p)

/-- The double nearest to `± n / d · 2^e`. -/
def ofScaledRatio (negative : Bool) (n d : Nat) (e : Int) : Double :=
  ofRatio negative (n * twoPow e.toNat) (d * twoPow (-e).toNat)

def signedBy (negative : Bool) (x : Double) : Double := if negative then x.neg else x

/-- An infinite result is out of range. -/
def inRange (x : Double) : Answer := if x.isInfinite then .error .range else .ok x

def atLeast (m : Magnitude) (n : Nat) : Bool := n * m.den ≤ m.num

def zeroOr (s : Bool) (m : Magnitude) (x : Answer) : Answer :=
  if m.mantissa = 0 then .ok (.finite s m) else x

end Abacus.Scaling
