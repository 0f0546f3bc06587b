import Abacus.Double

/-!
The elementary functions that a calculation relies on. Each either gives a double or refuses its
arguments, because they lie outside its domain or because the result is out of range.
-/

namespace Abacus

inductive Refusal
  | domain
  | range
  deriving DecidableEq, Repr

abbrev Answer := Except Refusal Double

/-- What stands for an answer in a calculation: a result out of range is infinite, one that does not
exist is NaN. -/
def Answer.value : Answer → Double
  | .ok v => v
  | .error .range => .inf false
  | .error .domain => .nan

structure Elementary where
  sin : Double → Answer
  cos : Double → Answer
  tan : Double → Answer
  asin : Double → Answer
  acos : Double → Answer
  atan : Double → Answer
  sinh : Double → Answer
  cosh : Double → Answer
  tanh : Double → Answer
  asinh : Double → Answer
  acosh : Double → Answer
  atanh : Double → Answer
  exp : Double → Answer
  log : Double → Answer
  log10 : Double → Answer
  log2 : Double → Answer
  sqrt : Double → Answer
  cbrt : Double → Answer
  gamma : Double → Answer
  atan2 : Double → Double → Answer
  hypot : Double → Double → Answer
  pow : Double → Double → Answer

end Abacus
