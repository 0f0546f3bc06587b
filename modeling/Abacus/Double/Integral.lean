import Abacus.Double.Arithmetic

/-!
Whole numbers among the doubles: which doubles are whole, and the whole number next to one.
-/

namespace Abacus.Double

/-- The whole number that a double is, if it is one. -/
def toInt? : Double → Option Int
  | .finite s m => if m.num % m.den = 0 then some (signed s (m.num / m.den)) else none
  | _ => none

def isIntegral (x : Double) : Bool := x.toInt?.isSome

/-- The greatest whole number not above `± n / d`. -/
def floorRatio (negative : Bool) (n d : Nat) : Int := Int.fdiv (signed negative n) d

/-- Down to a whole number, which has no sign if it is zero. -/
def floor : Double → Double
  | .finite s m => ofInt (floorRatio s m.num m.den)
  | x => x

/-- Up to a whole number, which has no sign if it is zero. -/
def ceil : Double → Double
  | .finite s m => ofInt (-floorRatio (!s) m.num m.den)
  | x => x

def half : Double := .finite false ⟨twoPow 52, -53, by decide⟩

/-- One half is added to the magnitude, in a sum that is rounded itself, and what is left after the
point is dropped; the sign stays. -/
def round : Double → Double
  | .finite s m => (floor (add (.finite false m) half)).withSign s
  | x => x

/-- `1`, `-1` or `0` by sign. -/
def sign : Double → Double
  | .nan => .nan
  | .inf s => one.withSign s
  | .finite s m => if m.mantissa = 0 then zero false else one.withSign s

end Abacus.Double
