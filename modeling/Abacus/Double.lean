/-!
Double precision numbers as exact values. A finite one is `± m · 2^q`, with one pair `m`, `q` for
each magnitude; the infinities keep their sign, and there is one NaN. A ratio of naturals is rounded
to the nearest double, a half to the even one, and past the largest it is out of range.
-/

namespace Abacus

/-- The power `2^n`. -/
def twoPow (n : Nat) : Nat := Nat.pow 2 n

theorem twoPow_pos (n : Nat) : 0 < twoPow n := Nat.two_pow_pos n

/-- At most 53 bits, and all of them unless the exponent is the least one. -/
def Canonical (m : Nat) (q : Int) : Prop :=
  m < twoPow 53 ∧ -1074 ≤ q ∧ q ≤ 971 ∧ (twoPow 52 ≤ m ∨ q = -1074)

instance (m : Nat) (q : Int) : Decidable (Canonical m q) := by
  unfold Canonical; infer_instance

/-- The magnitude `mantissa · 2^exponent` of a finite double. -/
structure Magnitude where
  mantissa : Nat
  exponent : Int
  canonical : Canonical mantissa exponent
  deriving DecidableEq

inductive Double
  | nan
  | inf (negative : Bool)
  | finite (negative : Bool) (size : Magnitude)
  deriving DecidableEq

namespace Magnitude

def zero : Magnitude := ⟨0, -1074, by decide⟩

def of? (m : Nat) (q : Int) : Option Magnitude :=
  if h : Canonical m q then some ⟨m, q, h⟩ else none

/-- The magnitude is the ratio `num / den`. -/
def num (x : Magnitude) : Nat := x.mantissa * twoPow x.exponent.toNat

def den (x : Magnitude) : Nat := twoPow (-x.exponent).toNat

theorem den_pos (x : Magnitude) : 0 < x.den := twoPow_pos _

/-- `n / d` as a whole number, a half to the even one. -/
def roundEven (n d : Nat) : Nat :=
  let k := n / d
  let twice := 2 * (n % d)
  if twice < d then k else if d < twice then k + 1 else k + k % 2

/-- `n / d` in units of `2^q`, rounded. -/
def roundAt (n d : Nat) (q : Int) : Nat :=
  roundEven (n * twoPow (-q).toNat) (d * twoPow q.toNat)

/-- The exponent of the last place of `n / d`: 53 places are kept, and none below the least. -/
def lastPlace (n d : Nat) : Int :=
  let q := (n.log2 : Int) - d.log2 - 53
  max (-1074) (if n * twoPow (-q).toNat < twoPow 53 * (d * twoPow q.toNat) then q else q + 1)

/-- The magnitude nearest to `n / d`, or none if that is out of range. -/
def nearest? (n d : Nat) : Option Magnitude :=
  if n = 0 then some zero
  else
    let q := lastPlace n d
    let m := roundAt n d q
    if m = twoPow 53 then of? (twoPow 52) (q + 1) else of? m q

/-- The order of the values. -/
def lt (x y : Magnitude) : Bool := x.num * y.den < y.num * x.den

end Magnitude

namespace Double

/-- The double nearest to `± n / d`. -/
def ofRatio (negative : Bool) (n d : Nat) : Double :=
  match Magnitude.nearest? n d with
  | some m => .finite negative m
  | none => .inf negative

def zero (negative : Bool) : Double := .finite negative .zero

def ofNat (n : Nat) : Double := ofRatio false n 1

def ofInt (i : Int) : Double := ofRatio (i < 0) i.natAbs 1

/-- The double nearest to `± n · 2^e`. -/
def ofScaled (negative : Bool) (n : Nat) (e : Int) : Double :=
  ofRatio negative (n * twoPow e.toNat) (twoPow (-e).toNat)

def one : Double := .finite false ⟨twoPow 52, -52, by decide⟩

def isNaN : Double → Bool
  | .nan => true
  | _ => false

def isInfinite : Double → Bool
  | .inf _ => true
  | _ => false

/-- Both zeros. -/
def isZero : Double → Bool
  | .finite _ m => m.mantissa == 0
  | _ => false

/-- The sign; that of NaN counts as positive. -/
def isNegative : Double → Bool
  | .nan => false
  | .inf s => s
  | .finite s _ => s

def neg : Double → Double
  | .nan => .nan
  | .inf s => .inf !s
  | .finite s m => .finite (!s) m

instance : Neg Double := ⟨neg⟩

def abs : Double → Double
  | .nan => .nan
  | .inf _ => .inf false
  | .finite _ m => .finite false m

/-- The magnitude of `x` with the sign `negative`. -/
def withSign (negative : Bool) : Double → Double
  | .nan => .nan
  | .inf _ => .inf negative
  | .finite _ m => .finite negative m

@[simp] theorem neg_neg (x : Double) : x.neg.neg = x := by cases x <;> simp [neg]

end Double

end Abacus
