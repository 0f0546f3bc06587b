import Abacus.Double

/-!
Decimals `digits · 10^exponent` and their two directions: the double nearest to a decimal, and the
decimal place of the first digit of a ratio.
-/

namespace Abacus

structure Decimal where
  digits : Nat
  exponent : Int
  deriving DecidableEq, Repr

/-- The power `10^n`. -/
def tenPow (n : Nat) : Nat := Nat.pow 10 n

/-- The digits of a number, the first one first. -/
def decimalDigits (n : Nat) : List Char := Nat.toDigits 10 n

namespace Decimal

/-- The nearest double. Decimals far outside the range are not written out. -/
def toDouble (negative : Bool) (x : Decimal) : Double :=
  if x.digits = 0 then .zero negative
  else if 400 < x.exponent then .inf negative
  else if x.exponent + x.digits.log2 < -400 then .zero negative
  else .ofRatio negative (x.digits * tenPow x.exponent.toNat) (tenPow (-x.exponent).toNat)

/-- The greatest `e` with `10^e ≤ n / d`. -/
def leadingPlace (n d : Nat) : Int :=
  if d ≤ n then ((decimalDigits (n / d)).length : Int) - 1
  else -((decimalDigits ((d - 1) / n)).length : Int)

end Decimal

end Abacus
