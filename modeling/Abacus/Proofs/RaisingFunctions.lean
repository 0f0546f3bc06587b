import Mathlib.Tactic.Common
import Abacus.Proofs.Nearest
import Abacus.Raising.Functions

/-!
What a function raises is caught. Whatever the arguments, infinities and NaN among them, the
operators and the functions of the tables by steps that can raise have a result, and it is that of
the operators and functions that cannot.
-/

namespace Abacus.Raising

variable {m : MathModule}

/-! ### The mathematical library -/

lemma ieee_eq {x : Except Raise Double} (h : ∀ r, x = .error r → r.IsArithmetic) :
    ieee x = .ok (MathModule.answer x).value := by
  cases x with
  | ok v => rfl
  | error r => rcases h r rfl with rfl | rfl | rfl <;> rfl

lemma ieee_one (hm : m.Documented) (name : String) (x : Double) :
    ieee (m.one name x) = .ok (MathModule.answer (m.one name x)).value :=
  ieee_eq fun _ h => hm.one h

lemma ieee_two (hm : m.Documented) (name : String) (x y : Double) :
    ieee (m.two name x y) = .ok (MathModule.answer (m.two name x y)).value :=
  ieee_eq fun _ h => hm.two h

/-! ### Operators -/

/-- A quotient by zero has the signs of both terms, but for a zero or NaN by zero. -/
lemma div_zero_eq {x y : Double} (hy : y.isZero = true) :
    x / y = if x.isZero || x.isNaN then .nan
      else .inf x.isNegative * Double.one.withSign y.isNegative := by
  match y with
  | .finite t w =>
    have hw : w.mantissa = 0 := by simpa [Double.isZero] using hy
    match x with
    | .nan => rfl
    | .inf s =>
      show Double.div _ _ = if _ then _ else Double.mul _ _
      simp [Double.div, Double.isZero, Double.isNaN, Double.isNegative, Double.mul, Double.one,
        Double.withSign, twoPow]
    | .finite s z =>
      show Double.div _ _ = if _ then _ else Double.mul _ _
      simp [Double.div, Double.isZero, Double.isNaN, Double.isNegative, Double.mul, Double.one,
        Double.withSign, twoPow, hw]

lemma divide_eq (x y : Double) : divide x y = .ok (x / y) := by
  rw [divide]
  split
  · rename_i hy
    rw [div_zero_eq hy]
    split <;> rfl
  · rename_i hy
    rw [quotient, if_neg hy]

/-- There is no remainder of an infinity, by zero, or with NaN. -/
lemma mod_eq_nan {x y : Double}
    (h : (y.isZero || x.isInfinite || x.isNaN || y.isNaN) = true) : x % y = .nan := by
  show Double.mod x y = .nan
  match x, y with
  | .nan, _ => rfl
  | .inf _, .nan => rfl
  | .inf _, .inf _ => rfl
  | .inf _, .finite _ _ => rfl
  | .finite _ _, .nan => rfl
  | .finite _ _, .inf _ => simp [Double.isZero, Double.isInfinite, Double.isNaN] at h
  | .finite _ _, .finite _ w =>
    have hw : w.mantissa = 0 := by
      simpa [Double.isZero, Double.isInfinite, Double.isNaN] using h
    simp [Double.mod, hw]

lemma modulo_eq (hm : m.Documented) (x y : Double) : modulo m x y = .ok (x % y) := by
  rw [modulo]
  split
  · rename_i h
    rw [mod_eq_nan h]
  · rename_i h
    simp only [Bool.or_eq_true, not_or, Bool.not_eq_true] at h
    obtain ⟨⟨⟨hy, hinf⟩, hx⟩, hy'⟩ := h
    exact hm.fmod hx hinf hy' hy

lemma power_eq (hm : m.Documented) (x y : Double) :
    power m x y = .ok (m.elementary.power x y) := by
  cases hp : m.two "pow" x y with
  | ok v => simp [power, Elementary.power, MathModule.elementary, MathModule.answer, hp]
  | error r =>
    rcases hm.pow hp with rfl | rfl
    · simp only [power, Elementary.power, MathModule.elementary, MathModule.answer, hp]
      split <;> rfl
    · simp only [power, Elementary.power, MathModule.elementary, MathModule.answer, hp]
      split <;> rfl

lemma factorial_eq (hm : m.Documented) (x : Double) :
    factorial m x = .ok (m.elementary.factorial x) := by
  have hgamma := ieee_one hm "gamma" (x + .one)
  match x with
  | .nan => rfl
  | .inf false => rfl
  | .inf true =>
    rw [factorial, if_neg (by simp [Double.isNaN]), if_neg (by simp)]
    exact hgamma
  | .finite s y =>
    rw [factorial, if_neg (by simp [Double.isNaN]), if_neg (by simp)]
    exact hgamma

/-! ### Whole numbers -/

lemma toDouble_eq {i : ℤ} (h : i.natAbs ≤ Magnitude.largest) :
    toDouble i = .ok (Double.ofInt i) := by
  obtain ⟨x, hx⟩ := Option.isSome_iff_exists.mp (Double.isSome_of_le h)
  simp [toDouble, Double.ofInt, Double.ofRatio, hx]

lemma floor_eq (x : Double) : floor x = .ok x.floor := by
  match x with
  | .nan => rfl
  | .inf _ => rfl
  | .finite s y => exact toDouble_eq (Double.natAbs_floorRatio_le s y)

lemma ceil_eq (x : Double) : ceil x = .ok x.ceil := by
  match x with
  | .nan => rfl
  | .inf _ => rfl
  | .finite s y =>
    apply toDouble_eq
    rw [Int.natAbs_neg]
    exact Double.natAbs_floorRatio_le (!s) y

lemma round_eq (x : Double) : round x = .ok x.round := by
  match x with
  | .nan => rfl
  | .inf _ => rfl
  | .finite s y =>
    -- the sum with a half is finite, so its whole part exists and is small enough to be a double
    obtain ⟨z, hz⟩ := Double.exists_add_half y
    have hlast := toDouble_eq (Double.natAbs_floorRatio_le false z)
    have hwhole : wholeBelow ((Double.finite s y).abs + .half) =
        .ok (Double.floorRatio false z.num z.den) := by
      rw [Double.abs, hz]
      rfl
    have hround : (Double.finite s y).round =
        (Double.ofInt (Double.floorRatio false z.num z.den)).withSign s := by
      rw [Double.round, show Double.add (.finite false y) .half = .finite false z from hz]
      rfl
    rw [round, if_neg (by simp [Double.isInfinite, Double.isNaN]), hwhole, hround]
    simp only [bind, Except.bind, hlast]
    rfl

/-! ### Tables -/

lemma logBase_eq (hm : m.Documented) (base x : Double) :
    logBase m base x = .ok (m.elementary.logBase base x) := by
  rw [logBase, ieee_one hm, ieee_one hm]
  exact divide_eq _ _

lemma unary_eq (hm : m.Documented) (name : String) :
    unary m name = (Functions.builtinUnary m.elementary name).map fun f x => .ok (f x) := by
  unfold Functions.builtinUnary
  split
  -- functions that the library does not guard raise nothing by themselves
  case h_20 =>
    refine congrArg some (funext fun x => ?_)
    rw [hm.fabs]
    rfl
  case h_21 => exact congrArg some (funext ceil_eq)
  case h_22 => exact congrArg some (funext floor_eq)
  case h_23 => exact congrArg some (funext round_eq)
  case h_24 => rfl
  case h_25 =>
    unfold unary
    split <;> simp_all [safeNames]
  all_goals exact congrArg some (funext fun x => ieee_one hm _ x)

lemma binary_eq (hm : m.Documented) (name : String) :
    binary m name =
      (Functions.builtinBinary m.elementary name).map fun f x y => .ok (f x y) := by
  unfold Functions.builtinBinary
  split
  · exact congrArg some (funext fun y => funext fun x => ieee_two hm _ y x)
  · exact congrArg some (funext fun x => funext fun y => ieee_two hm _ x y)
  · exact congrArg some (funext fun x => funext fun y => power_eq hm x y)
  · rfl
  · rfl
  · exact congrArg some (funext fun base => funext fun x => logBase_eq hm base x)
  · unfold binary
    split <;> simp_all

/-! ### A library for given functions -/

namespace MathModule

/-- What is raised for a refusal. -/
def raise : Answer → Except Raise Double
  | .ok v => .ok v
  | .error .range => .error .overflow
  | .error .domain => .error .value

/-- What a library with the given elementary functions makes of one argument. -/
def answerOne (f : Elementary) (name : String) (x : Double) : Answer :=
  match name with
  | "sin" => f.sin x
  | "cos" => f.cos x
  | "tan" => f.tan x
  | "asin" => f.asin x
  | "acos" => f.acos x
  | "atan" => f.atan x
  | "sinh" => f.sinh x
  | "cosh" => f.cosh x
  | "tanh" => f.tanh x
  | "asinh" => f.asinh x
  | "acosh" => f.acosh x
  | "atanh" => f.atanh x
  | "exp" => f.exp x
  | "log" => f.log x
  | "log10" => f.log10 x
  | "log2" => f.log2 x
  | "sqrt" => f.sqrt x
  | "cbrt" => f.cbrt x
  | "gamma" => f.gamma x
  | "fabs" => .ok x.abs
  | _ => .error .domain

def answerTwo (f : Elementary) (name : String) (x y : Double) : Answer :=
  match name with
  | "atan2" => f.atan2 x y
  | "hypot" => f.hypot x y
  | "pow" => f.pow x y
  | "fmod" =>
    if !x.isNaN && !y.isNaN && (x.isInfinite || y.isZero) then .error .domain else .ok (x % y)
  | _ => .error .domain

def ofElementary (f : Elementary) : MathModule where
  one name x := raise (answerOne f name x)
  two name x y := raise (answerTwo f name x y)

lemma answer_raise (a : Answer) : answer (raise a) = a := by
  rcases a with (_ | _) | v <;> rfl

/-- A library can amount to any elementary functions. -/
lemma elementary_ofElementary (f : Elementary) : (ofElementary f).elementary = f := by
  simp only [elementary, ofElementary, answer_raise, answerOne, answerTwo]

lemma of_raise {a : Answer} {r : Raise} (h : raise a = .error r) : r = .overflow ∨ r = .value := by
  rcases a with (_ | _) | v
  · exact .inr (Except.error.inj h).symm
  · exact .inl (Except.error.inj h).symm
  · simp [raise] at h

lemma isArithmetic_of_raise {a : Answer} {r : Raise} (h : raise a = .error r) : r.IsArithmetic :=
  (of_raise h).elim .inl fun hv => .inr (.inl hv)

lemma documented_ofElementary (f : Elementary) : (ofElementary f).Documented where
  one h := isArithmetic_of_raise h
  two h := isArithmetic_of_raise h
  fabs _ := rfl
  fmod hx hi hy hz := by simp [ofElementary, answerTwo, raise, hx, hi, hy, hz]
  pow h := of_raise h

end MathModule

end Abacus.Raising
