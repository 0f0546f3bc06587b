import Abacus.Functions

/-!
The functions of a calculation by steps that raise where they have no result: a quotient by zero, a
whole number for an infinity, a double for a whole number out of range, a function of the
mathematical library outside its domain. What is caught is written out where it is caught.
-/

namespace Abacus.Raising

/-- What a step raises that has no result. -/
inductive Raise
  /-- The result is out of range. -/
  | overflow
  /-- The argument is outside the domain, or a text is no number. -/
  | value
  | zeroDivision
  /-- A list has no item at that place. -/
  | lookup
  /-- A token is of another kind than has been seen. -/
  | kind
  deriving DecidableEq

/-- The mathematical library: functions of one argument and of two, by name. -/
structure MathModule where
  one : String → Double → Except Raise Double
  two : String → Double → Double → Except Raise Double

/-- What a function of the library may raise. -/
def Raise.IsArithmetic (r : Raise) : Prop := r = .overflow ∨ r = .value ∨ r = .zeroDivision

namespace MathModule

variable (m : MathModule)

/-- What is relied on. The remainder of a finite number by another that is not zero is exact. -/
structure Documented : Prop where
  one : ∀ {name x r}, m.one name x = .error r → r.IsArithmetic
  two : ∀ {name x y r}, m.two name x y = .error r → r.IsArithmetic
  fabs : ∀ x, m.one "fabs" x = .ok x.abs
  fmod : ∀ {x y : Double}, x.isNaN = false → x.isInfinite = false → y.isNaN = false →
    y.isZero = false → m.two "fmod" x y = .ok (x % y)
  pow : ∀ {x y r}, m.two "pow" x y = .error r → r = .overflow ∨ r = .value

/-- A refusal in place of what is raised. -/
def answer : Except Raise Double → Answer
  | .ok v => .ok v
  | .error .overflow => .error .range
  | .error _ => .error .domain

/-- The elementary functions that the library amounts to. -/
def elementary : Elementary where
  sin x := answer (m.one "sin" x)
  cos x := answer (m.one "cos" x)
  tan x := answer (m.one "tan" x)
  asin x := answer (m.one "asin" x)
  acos x := answer (m.one "acos" x)
  atan x := answer (m.one "atan" x)
  sinh x := answer (m.one "sinh" x)
  cosh x := answer (m.one "cosh" x)
  tanh x := answer (m.one "tanh" x)
  asinh x := answer (m.one "asinh" x)
  acosh x := answer (m.one "acosh" x)
  atanh x := answer (m.one "atanh" x)
  exp x := answer (m.one "exp" x)
  log x := answer (m.one "log" x)
  log10 x := answer (m.one "log10" x)
  log2 x := answer (m.one "log2" x)
  sqrt x := answer (m.one "sqrt" x)
  cbrt x := answer (m.one "cbrt" x)
  gamma x := answer (m.one "gamma" x)
  atan2 y x := answer (m.two "atan2" y x)
  hypot x y := answer (m.two "hypot" x y)
  pow x y := answer (m.two "pow" x y)

end MathModule

/-! ### What is caught -/

/-- Out of range is infinite, outside the domain is NaN. -/
def ieee : Except Raise Double → Except Raise Double
  | .error .overflow => .ok (.inf false)
  | .error .value => .ok .nan
  | .error .zeroDivision => .ok .nan
  | x => x

/-! ### Operators -/

def quotient (x y : Double) : Except Raise Double :=
  if y.isZero then .error .zeroDivision else .ok (x / y)

def divide (x y : Double) : Except Raise Double :=
  if y.isZero then
    if x.isZero || x.isNaN then .ok .nan
    else .ok (.inf x.isNegative * Double.one.withSign y.isNegative)
  else quotient x y

variable (m : MathModule)

def modulo (x y : Double) : Except Raise Double :=
  if y.isZero || x.isInfinite || x.isNaN || y.isNaN then .ok .nan else m.two "fmod" x y

def power (base exponent : Double) : Except Raise Double :=
  match m.two "pow" base exponent with
  | .error .overflow =>
    if base.lt (.zero false) && Elementary.isOddExponent exponent then .ok (.inf true)
    else .ok (.inf false)
  | .error .value =>
    if base.isZero && exponent.lt (.zero false) then .ok (.inf false) else .ok .nan
  | x => x

def factorial (x : Double) : Except Raise Double :=
  if x.isNaN then .ok .nan
  else if x = .inf false then .ok (.inf false)
  else ieee (m.one "gamma" (x + .one))

/-! ### Whole numbers -/

/-- A whole number for a finite double. -/
def whole (f : Bool → Magnitude → Int) : Double → Except Raise Int
  | .nan => .error .value
  | .inf _ => .error .overflow
  | .finite s x => .ok (f s x)

def wholeBelow : Double → Except Raise Int := whole fun s x => Double.floorRatio s x.num x.den

def wholeAbove : Double → Except Raise Int := whole fun s x => -Double.floorRatio (!s) x.num x.den

/-- What stands before the point. -/
def wholePart : Double → Except Raise Int := whole fun s x => Double.signed s (x.num / x.den)

/-- The nearest double to a whole number. -/
def toDouble (i : Int) : Except Raise Double :=
  match Magnitude.nearest? i.natAbs 1 with
  | some x => .ok (.finite (i < 0) x)
  | none => .error .overflow

def ceil (x : Double) : Except Raise Double :=
  if x.isInfinite || x.isNaN then .ok x else do toDouble (← wholeAbove x)

def floor (x : Double) : Except Raise Double :=
  if x.isInfinite || x.isNaN then .ok x else do toDouble (← wholeBelow x)

def round (x : Double) : Except Raise Double :=
  if x.isInfinite || x.isNaN then .ok x
  else do return (← toDouble (← wholeBelow (x.abs + .half))).withSign x.isNegative

/-! ### Tables -/

/-- The functions of the library that are used as they are, save for what they raise. -/
def safeNames : List String :=
  ["sin", "cos", "tan", "asin", "acos", "atan", "sinh", "cosh", "tanh", "asinh", "acosh", "atanh",
   "exp", "log", "log10", "log2", "sqrt", "cbrt"]

def logBase (base x : Double) : Except Raise Double := do
  divide (← ieee (m.one "log" x)) (← ieee (m.one "log" base))

def unary (name : String) : Option (Double → Except Raise Double) :=
  match name with
  | "ln" => some fun x => ieee (m.one "log" x)
  | "abs" => some fun x => ieee (m.one "fabs" x)
  | "ceil" => some ceil
  | "floor" => some floor
  | "round" => some round
  | "sgn" => some fun x => .ok x.sign
  | _ => if name ∈ safeNames then some fun x => ieee (m.one name x) else none

def binary (name : String) : Option (Double → Double → Except Raise Double) :=
  match name with
  | "atan2" => some fun y x => ieee (m.two "atan2" y x)
  | "hypot" => some fun x y => ieee (m.two "hypot" x y)
  | "pow" => some (power m)
  | "min" => some fun x y => .ok (x.min y)
  | "max" => some fun x y => .ok (x.max y)
  | "log" => some (logBase m)
  | _ => none

end Abacus.Raising
