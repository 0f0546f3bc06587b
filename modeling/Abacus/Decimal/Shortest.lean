import Abacus.Decimal

/-!
The text of a double: the fewest digits that read back as the same double. Of the decimal grids the
coarsest is taken on which a neighbour of the value reads back, and of two such neighbours the
nearer. Numbers from `0.0001` to below `10^16` are written with a point, the others with a power of
ten.
-/

namespace Abacus

namespace Magnitude

/-- Whether `k · 10^e` reads as this magnitude. -/
def reads (x : Magnitude) (k : Nat) (e : Int) : Bool :=
  Decimal.toDouble false ⟨k, e⟩ == .finite false x

/-- The neighbour of `x` among the multiples of `10^e` that reads back, the nearer one if both do,
and the even one if they are as near. -/
def onGrid? (x : Magnitude) (e : Int) : Option Nat :=
  let n := x.num * tenPow (-e).toNat
  let d := x.den * tenPow e.toNat
  let k := n / d
  match x.reads k e, x.reads (k + 1) e with
  | true, true => some (roundEven n d)
  | true, false => some k
  | false, true => some (k + 1)
  | false, false => none

/-- All digits of `x`. -/
def exactly (x : Magnitude) : Decimal :=
  ⟨x.mantissa * twoPow x.exponent.toNat * Nat.pow 5 (-x.exponent).toNat, min x.exponent 0⟩

/-- The first of the grids `10^e`, `10^(e-1)`, … that has such a neighbour. -/
def searchGrids (x : Magnitude) : Nat → Int → Decimal
  | 0, _ => x.exactly
  | fuel + 1, e =>
    match x.onGrid? e with
    | some k => ⟨k, e⟩
    | none => searchGrids x fuel (e - 1)

/-- Seventeen digits always suffice; the search begins above the first digit. -/
def shortest (x : Magnitude) : Decimal :=
  x.searchGrids 20 (Decimal.leadingPlace x.num x.den + 1)

end Magnitude

namespace Decimal

/-- The exponent of the first digit. -/
def place (x : Decimal) : Int := x.exponent + (decimalDigits x.digits).length - 1

/-- Digits with a point after the first `k` of them; at least one digit stands on either side. -/
def withPoint (k : Int) (ds : List Char) : List Char :=
  if k ≤ 0 then '0' :: '.' :: (List.replicate (-k).toNat '0' ++ ds)
  else
    let whole := ds.take k.toNat ++ List.replicate (k.toNat - ds.length) '0'
    match ds.drop k.toNat with
    | [] => whole ++ ['.', '0']
    | fraction => whole ++ '.' :: fraction

/-- The sign and at least two digits. -/
def exponentText (e : Int) : List Char :=
  let ds := decimalDigits e.natAbs
  (if e < 0 then '-' else '+') :: (if ds.length < 2 then '0' :: ds else ds)

/-- One digit before the point, and no point after a single digit. -/
def withExponent (e : Int) : List Char → List Char
  | [] => []
  | [d] => d :: 'e' :: exponentText e
  | d :: ds => d :: '.' :: (ds ++ 'e' :: exponentText e)

def chars (x : Decimal) : List Char :=
  let ds := decimalDigits x.digits
  if -4 ≤ x.place ∧ x.place < 16 then withPoint (x.place + 1) ds else withExponent x.place ds

end Decimal

namespace Double

def signChars (negative : Bool) (cs : List Char) : List Char :=
  if negative then '-' :: cs else cs

def chars : Double → List Char
  | .nan => "nan".toList
  | .inf s => signChars s "inf".toList
  | .finite s m =>
    signChars s (if m.mantissa = 0 then "0.0".toList else m.shortest.chars)

def text (x : Double) : String := String.ofList x.chars

end Double

end Abacus
