import Abacus.Double.Integral
import Abacus.Elementary

/-!
The constants and functions that an expression may name. One name may be a constant, a function of
one argument and a function of two; each is found by its exact name.
-/

namespace Abacus

structure Functions where
  constant : String → Option Double
  unary : String → Option (Double → Double)
  binary : String → Option (Double → Double → Double)

namespace Functions

def empty : Functions := ⟨fun _ => none, fun _ => none, fun _ => none⟩

variable (t : Functions)

/-- A later entry hides an earlier one of the same name. -/
def withConstant (name : String) (v : Double) : Functions :=
  { t with constant := fun n => if n = name then some v else t.constant n }

def withUnary (name : String) (f : Double → Double) : Functions :=
  { t with unary := fun n => if n = name then some f else t.unary n }

def withBinary (name : String) (f : Double → Double → Double) : Functions :=
  { t with binary := fun n => if n = name then some f else t.binary n }

end Functions

namespace Elementary

variable (m : Elementary)

/-- An odd whole number of either sign. -/
def isOddExponent (x : Double) : Bool :=
  match x.toInt? with
  | some i => i % 2 == 1
  | none => false

/-- A power out of range is infinite, and negative for a negative base and an odd exponent. A
negative power of zero is infinite. -/
def power (base exponent : Double) : Double :=
  match m.pow base exponent with
  | .ok v => v
  | .error .range =>
    if base.lt (.zero false) && isOddExponent exponent then .inf true else .inf false
  | .error .domain =>
    if base.isZero && exponent.lt (.zero false) then .inf false else .nan

/-- The factorial, continued to all numbers as the gamma function of the next. -/
def factorial : Double → Double
  | .nan => .nan
  | .inf false => .inf false
  | x => (m.gamma (x + .one)).value

def logBase (base x : Double) : Double := (m.log x).value / (m.log base).value

end Elementary

/-- The lesser one, and the first if they are equal. -/
def Double.min (x y : Double) : Double :=
  if x.isNaN || y.isNaN then .nan else if y.lt x then y else x

/-- The greater one, and the first if they are equal. -/
def Double.max (x y : Double) : Double :=
  if x.isNaN || y.isNaN then .nan else if x.lt y then y else x

namespace Functions

def pi : Double := .finite false ⟨7074237752028440, -51, by decide⟩

def e : Double := .finite false ⟨6121026514868073, -51, by decide⟩

def tau : Double := .finite false ⟨7074237752028440, -50, by decide⟩

/-- The golden ratio. -/
def phi : Double := .finite false ⟨7286977268806824, -52, by decide⟩

def builtinConstant : String → Option Double
  | "pi" => some pi
  | "π" => some pi
  | "e" => some e
  | "tau" => some tau
  | "phi" => some phi
  | _ => none

variable (m : Elementary)

def builtinUnary (name : String) : Option (Double → Double) :=
  match name with
  | "sin" => some fun x => (m.sin x).value
  | "cos" => some fun x => (m.cos x).value
  | "tan" => some fun x => (m.tan x).value
  | "asin" => some fun x => (m.asin x).value
  | "acos" => some fun x => (m.acos x).value
  | "atan" => some fun x => (m.atan x).value
  | "sinh" => some fun x => (m.sinh x).value
  | "cosh" => some fun x => (m.cosh x).value
  | "tanh" => some fun x => (m.tanh x).value
  | "asinh" => some fun x => (m.asinh x).value
  | "acosh" => some fun x => (m.acosh x).value
  | "atanh" => some fun x => (m.atanh x).value
  | "exp" => some fun x => (m.exp x).value
  | "log" => some fun x => (m.log x).value
  | "ln" => some fun x => (m.log x).value
  | "log10" => some fun x => (m.log10 x).value
  | "log2" => some fun x => (m.log2 x).value
  | "sqrt" => some fun x => (m.sqrt x).value
  | "cbrt" => some fun x => (m.cbrt x).value
  | "abs" => some Double.abs
  | "ceil" => some Double.ceil
  | "floor" => some Double.floor
  | "round" => some Double.round
  | "sgn" => some Double.sign
  | _ => none

def builtinBinary (name : String) : Option (Double → Double → Double) :=
  match name with
  | "atan2" => some fun y x => (m.atan2 y x).value
  | "hypot" => some fun x y => (m.hypot x y).value
  | "pow" => some m.power
  | "min" => some Double.min
  | "max" => some Double.max
  | "log" => some m.logBase
  | _ => none

def builtin : Functions := ⟨builtinConstant, builtinUnary m, builtinBinary m⟩

end Functions

end Abacus
