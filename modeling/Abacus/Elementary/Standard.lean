import Abacus.Elementary.Circular
import Abacus.Elementary.Exponential
import Abacus.Elementary.Gamma
import Abacus.Elementary.Power

/-!
The elementary functions by their values: each is computed with some two hundred places to spare and
rounded once.
-/

namespace Abacus.Elementary

/-- Zero has a root on either side; other negative numbers have none. -/
def squareRoot (x : Double) : Answer :=
  if x.isNegative && !x.isZero then .error .domain else .ok x.sqrt

def standard : Elementary where
  sin := Circular.sin
  cos := Circular.cos
  tan := Circular.tan
  asin := Circular.asin
  acos := Circular.acos
  atan := Circular.atan
  sinh := Exponential.sinh
  cosh := Exponential.cosh
  tanh := Exponential.tanh
  asinh := Exponential.asinh
  acosh := Exponential.acosh
  atanh := Exponential.atanh
  exp := Exponential.exp
  log := Exponential.log
  log10 := Exponential.log10
  log2 := Exponential.log2
  sqrt := squareRoot
  cbrt x := .ok x.cbrt
  gamma := Gamma.gamma
  atan2 := Circular.atan2
  hypot x y := .ok (x.hypot y)
  pow := Power.pow

end Abacus.Elementary
