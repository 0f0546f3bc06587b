import Mathlib.Tactic.Common
import Abacus.Elementary.Standard
import Abacus.Proofs.CursorReads
import Abacus.Proofs.RaisingWalk
import Abacus.Proofs.Recovery
import Abacus.Proofs.ShownText

/-!
A calculation raises nothing. From the source to the text that is shown, by steps that can each
raise something, it comes to an end with the outcome and with the text that it has by steps that
cannot, and the text is not empty.
-/

namespace Abacus.Raising

open Grammar (parse_ok_iff scan_of_parse)
open Proofs.ShownText (display_ne_empty)
open Proofs.SourceOrder (uses_of_derives)
open Proofs.Uses (uses calls)

/-! ### Variables -/

lemma number_eq (v : Variable) : number v = .ok v.number? := by
  unfold number Variable.number?
  cases h : readNumber? v.value with
  | none => rfl
  | some x =>
    rw [Conversion.convertNumber?_of_readNumber? h]
    rfl

lemma insert_eq (r : Resolver) (v : Variable) : insert r v = .ok (r.insert v) := by
  unfold insert
  rw [number_eq]
  rfl

lemma resolver_eq (vars : Snapshot) : resolver vars = .ok (Resolver.ofSnapshot vars) := by
  unfold resolver Resolver.ofSnapshot
  generalize (⟨[]⟩ : Resolver) = r
  induction vars.toList generalizing r with
  | nil => rfl
  | cons v vs ih =>
    rw [List.foldlM_cons, List.foldl_cons, insert_eq]
    exact ih (r.insert v)

/-! ### Text -/

lemma toString_signed (s : Bool) (n : ℕ) :
    toString (Double.signed s n) = Double.wholeText s n := by
  cases s with
  | false => rfl
  | true =>
    cases n with
    | zero => rfl
    | succ n =>
      change "-" ++ Nat.repr (n + 1) = String.ofList ('-' :: decimalDigits (n + 1))
      rw [← List.singleton_append, String.ofList_append]
      rfl

lemma isIntegral_iff (s : Bool) (x : Magnitude) :
    (Double.finite s x).isIntegral = true ↔ x.num % x.den = 0 := by
  rw [Double.isIntegral, Double.toInt?]
  split <;> simp_all

lemma lt_wholeLimit_iff (s : Bool) (x : Magnitude) :
    (Double.abs (.finite s x)).lt wholeLimit = true ↔ x.num / x.den < Double.wholeLimit := by
  have hlimit : wholeLimit = .finite false ⟨5000000000000000, 1, by decide⟩ := rfl
  rw [Double.abs, hlimit, Double.lt, decide_eq_true_iff, Nat.div_lt_iff_lt_mul x.den_pos]
  change ((x.num * 1 : ℕ) : ℤ) < ((10 ^ 16 * x.den : ℕ) : ℤ) ↔ x.num < 10 ^ 16 * x.den
  rw [Int.ofNat_lt, Nat.mul_one]

/-- Only the whole part of a finite number is asked for. -/
lemma format_eq (x : Double) : format x = .ok x.display := by
  cases x with
  | nan => rfl
  | inf s => cases s <;> rfl
  | finite s x =>
    have hwhole : wholePart (.finite s x) = .ok (Double.signed s (x.num / x.den)) := rfl
    by_cases h : x.num % x.den = 0 ∧ x.num / x.den < Double.wholeLimit
    · have hint := (isIntegral_iff s x).mpr h.1
      have hlt := (lt_wholeLimit_iff s x).mpr h.2
      simp only [format, Double.isNaN, Double.isInfinite, Bool.false_eq_true, if_false, hint, hlt,
        Bool.and_self, if_true, hwhole, Double.display, if_pos h, ← toString_signed]
      rfl
    · have hno : ((Double.finite s x).isIntegral && (Double.abs (.finite s x)).lt wholeLimit) ≠
          true := by
        rwa [Ne, Bool.and_eq_true, isIntegral_iff, lt_wholeLimit_iff]
      simp only [format, Double.isNaN, Double.isInfinite, Bool.false_eq_true, if_false, if_neg hno,
        Double.display, if_neg h]

lemma display_eq (o : Outcome) : display o = .ok o.display := by
  cases o with
  | value v => exact format_eq v
  | unresolved _ | failure _ => rfl

/-! ### A calculation -/

lemma parse_scanned {source : String} {ts : List Token} {fuel : ℕ} (implied : Bool)
    (h : Token.scan source = .ok ts) (hroom : Cursor.room ts ≤ fuel) :
    Cursor.parse fuel ⟨implied, source.length⟩ ts =
      some ((Expr.parse implied source).mapError .failure) := by
  rw [Expr.parse, h]
  exact Cursor.parse_eq (Conversion.convertNumber?_of_scan h) hroom

/-- Every call in the tree of a source has one argument or two. -/
lemma arity_of_parse {implied : Bool} {source : String} {e : Expr}
    (h : Expr.parse implied source = .ok e) : ∀ c ∈ calls (uses e), c.2 = 1 ∨ c.2 = 2 := by
  obtain ⟨ts, hs⟩ := scan_of_parse h
  obtain ⟨d, hd, rfl⟩ := (parse_ok_iff hs).mp h
  obtain ⟨-, hcalls, harity⟩ := uses_of_derives hd
  rwa [hcalls]

lemma lacksArguments_of_parse {implied : Bool} {source : String} {e : Expr} (s : Abacus.Scope)
    (h : Expr.parse implied source = .ok e) : s.lacksArguments e = false := by
  refine Scope.lacksArguments_of_calls s e fun c hc => ?_
  have harity := arity_of_parse h c hc
  omega

variable {m : MathModule}

lemma calculate_eq (hm : m.Documented) (implied : Bool) (source : String) (vars : Snapshot) :
    calculate m implied source vars =
      some (.ok ((Library.builtin m.elementary).calculate implied source vars)) := by
  unfold calculate Library.calculate Compiled.ofSource
  cases hs : Token.scan source with
  | error e =>
    rw [Expr.parse, hs]
    rfl
  | ok ts =>
    dsimp only
    rw [parse_scanned implied hs le_rfl]
    cases hp : Expr.parse implied source with
    | error f => rfl
    | ok e =>
      let s : Scope := ⟨m, .ofSnapshot vars, implied⟩
      -- a tree of the parser has arguments in every call, so none is looked for in vain
      have houtcome : s.outcome e = .ok (s.exact.outcome e) :=
        Scope.outcome_eq hm (lacksArguments_of_parse s.exact hp)
      simp only [Except.mapError, resolver_eq]
      exact congrArg some houtcome

/-- Nothing is raised on the way from a source to the text that is shown. -/
structure RaisesNothing (m : MathModule) (implied : Bool) (source : String) (vars : Snapshot) :
    Prop where
  converted : ∀ ts, Token.scan source = .ok ts → ∀ t ∈ ts, ∀ v, t.kind = .number v →
    convertNumber? t.text = some v
  read : ∀ ts, Token.scan source = .ok ts → ∀ fuel, Cursor.room ts ≤ fuel →
    Cursor.parse fuel ⟨implied, source.length⟩ ts =
      some ((Expr.parse implied source).mapError .failure)
  arity : ∀ e, Expr.parse implied source = .ok e → ∀ c ∈ calls (uses e), c.2 = 1 ∨ c.2 = 2
  operator : ∀ s : Scope, s.maths = m → ∀ op x y, s.apply op x y = .ok (s.exact.apply op x y)
  factorial : ∀ x, factorial m x = .ok (m.elementary.factorial x)
  unary : ∀ name, unary m name =
    (Functions.builtinUnary m.elementary name).map fun f x => .ok (f x)
  binary : ∀ name, binary m name =
    (Functions.builtinBinary m.elementary name).map fun f x y => .ok (f x y)
  outcome : calculate m implied source vars =
    some (.ok ((Library.builtin m.elementary).calculate implied source vars))
  answer : answer m implied source vars =
    some (.ok ((Library.builtin m.elementary).answer implied source vars))
  shown : (Library.builtin m.elementary).answer implied source vars ≠ ""

/-- **A calculation raises nothing**, whatever the source, the rule for neighbours and the
variables: it comes to an end with a number, a report of missing names or a failure that names a
place, and what it shows is not empty. -/
theorem calculate_raisesNothing (hm : m.Documented) (implied : Bool) (source : String)
    (vars : Snapshot) : RaisesNothing m implied source vars where
  converted _ hs := Conversion.convertNumber?_of_scan hs
  read _ hs _ hroom := parse_scanned implied hs hroom
  arity _ hp := arity_of_parse hp
  operator s hs op x y := Scope.apply_eq (hs ▸ hm) op x y
  factorial := factorial_eq hm
  unary := unary_eq hm
  binary := binary_eq hm
  outcome := calculate_eq hm implied source vars
  answer := by
    rw [answer, calculate_eq hm]
    exact congrArg some (display_eq _)
  shown := display_ne_empty _

/-- A factorial out of range, a quotient by zero and an argument that is a variable. -/
theorem calculate_raisesNothing_infinite :
    (MathModule.ofElementary .standard).Documented ∧
      RaisesNothing (.ofElementary .standard) false "-171! / 0 + 7 % abs(x)" ⟨[⟨"x", "-4"⟩]⟩ ∧
      answer (.ofElementary .standard) false "-171! / 0 + 7 % abs(x)" ⟨[⟨"x", "-4"⟩]⟩ =
        some (.ok "-inf") := by
  have hm := MathModule.documented_ofElementary .standard
  have h := calculate_raisesNothing hm false "-171! / 0 + 7 % abs(x)" ⟨[⟨"x", "-4"⟩]⟩
  refine ⟨hm, h, ?_⟩
  rw [h.answer, MathModule.elementary_ofElementary]
  decide +kernel

end Abacus.Raising
