import Mathlib.Data.Int.Notation
import Mathlib.Tactic.Common
import Abacus.Elementary.Standard
import Abacus.Functions

/-!
The odd functions among those of one argument. What they rely on gives opposite answers to opposite
arguments, or refuses both for the same reason. A refusal for the domain leaves them odd, as NaN is
its own negative; where the result is out of range they are not, as infinity stands for it on both
sides.
-/

namespace Abacus.Proofs.OddFunctions

open Double Functions

variable {v w x : Double} {a b : Answer} {s : Bool}

/-- Negatives of each other, or zeros of any sign. -/
def Opposite (v w : Double) : Prop := w = -v ∨ v.isZero = true ∧ w.isZero = true

instance : Decidable (Opposite v w) := inferInstanceAs (Decidable (_ ∨ _))

/-- Opposite results, or the same refusal. -/
inductive Opposing : Answer → Answer → Prop
  | ok {v w : Double} (h : Opposite v w) : Opposing (.ok v) (.ok w)
  | error (r : Refusal) : Opposing (.error r) (.error r)

lemma opposite_neg : Opposite v (-v) := .inl rfl

/-! ### Signs -/

lemma ofRatio_not (s : Bool) (n d : ℕ) : ofRatio (!s) n d = -ofRatio s n d := by
  rw [ofRatio, ofRatio]
  cases Magnitude.nearest? n d <;> rfl

lemma ofScaled_not (s : Bool) (n : ℕ) (e : ℤ) : ofScaled (!s) n e = -ofScaled s n e := ofRatio_not ..

lemma withSign_not (s : Bool) (v : Double) : v.withSign (!s) = -v.withSign s := by cases v <;> rfl

lemma signedBy_not (s : Bool) (v : Double) : Scaling.signedBy (!s) v = -Scaling.signedBy s v := by
  cases s with
  | false => rfl
  | true => exact (neg_neg v).symm

/-- **Rounding to a whole number is odd.** -/
lemma round_neg (x : Double) : round (-x) = -round x := by
  cases x with
  | nan => rfl
  | inf s => rfl
  | finite s m => exact withSign_not s _

lemma opposite_sign (x : Double) : Opposite (sign x) (sign (-x)) := by
  cases x with
  | nan => exact opposite_neg
  | inf s => exact .inl (withSign_not s one)
  | finite s m =>
    change Opposite (if m.mantissa = 0 then zero false else one.withSign s)
      (if m.mantissa = 0 then zero false else one.withSign (!s))
    split
    · exact .inr ⟨rfl, rfl⟩
    · exact .inl (withSign_not s one)

/-! ### Answers -/

lemma opposing_zeroOr (m : Magnitude) (h : Opposing a b) :
    Opposing (Scaling.zeroOr s m a) (Scaling.zeroOr (!s) m b) := by
  rw [Scaling.zeroOr, Scaling.zeroOr]
  split
  · exact .ok opposite_neg
  · exact h

lemma opposing_inRange (v : Double) : Opposing (Scaling.inRange v) (Scaling.inRange (-v)) := by
  cases v with
  | nan => exact .ok opposite_neg
  | inf s => exact .error _
  | finite s m => exact .ok opposite_neg

lemma opposing_signedBy (s : Bool) (v : Double) :
    Opposing (.ok (Scaling.signedBy s v)) (.ok (Scaling.signedBy (!s) v)) :=
  .ok (.inl (signedBy_not s v))

/-- It is enough to compare the answers on both sides of zero. -/
lemma opposing_of_signs (g : Double → Answer) (hnan : g .nan = .ok .nan)
    (hinf : ∀ s, Opposing (g (.inf s)) (g (.inf !s)))
    (hfinite : ∀ s m, Opposing (g (.finite s m)) (g (.finite (!s) m))) (x : Double) :
    Opposing (g x) (g (-x)) := by
  cases x with
  | nan => exact hnan ▸ .ok opposite_neg
  | inf s => exact hinf s
  | finite s m => exact hfinite s m

section Standard

variable (x : Double)

lemma opposing_sin : Opposing (Circular.sin x) (Circular.sin (-x)) :=
  opposing_of_signs Circular.sin rfl (fun _ => .error _)
    (fun s m => opposing_zeroOr m (opposing_signedBy s _)) x

lemma opposing_tan : Opposing (Circular.tan x) (Circular.tan (-x)) :=
  opposing_of_signs Circular.tan rfl (fun _ => .error _)
    (fun s m => opposing_zeroOr m (opposing_signedBy s _)) x

lemma opposing_asin : Opposing (Circular.asin x) (Circular.asin (-x)) := by
  refine opposing_of_signs Circular.asin rfl (fun _ => .error _) (fun s m => ?_) x
  rw [Circular.asin, Circular.asin]
  split
  · exact .error _
  · exact opposing_zeroOr m (opposing_signedBy s _)

lemma opposing_atan : Opposing (Circular.atan x) (Circular.atan (-x)) :=
  opposing_of_signs Circular.atan rfl (fun s => .ok (.inl (ofScaled_not s _ _)))
    (fun s m => opposing_zeroOr m (opposing_signedBy s _)) x

lemma opposing_sinh : Opposing (Exponential.sinh x) (Exponential.sinh (-x)) := by
  refine opposing_of_signs Exponential.sinh rfl (fun _ => .ok opposite_neg) (fun s m => ?_) x
  rw [Exponential.sinh, Exponential.sinh]
  split
  · exact .error _
  · refine opposing_zeroOr m ?_
    rw [ofScaled_not]
    exact opposing_inRange _

lemma opposing_tanh : Opposing (Exponential.tanh x) (Exponential.tanh (-x)) := by
  refine opposing_of_signs Exponential.tanh rfl (fun s => .ok (.inl (withSign_not s one)))
    (fun s m => ?_) x
  rw [Exponential.tanh, Exponential.tanh]
  split
  · exact .ok (.inl (withSign_not s one))
  · exact opposing_zeroOr m (.ok (.inl (ofRatio_not s _ _)))

lemma opposing_asinh : Opposing (Exponential.asinh x) (Exponential.asinh (-x)) :=
  opposing_of_signs Exponential.asinh rfl (fun _ => .ok opposite_neg)
    (fun s m => opposing_zeroOr m (opposing_signedBy s _)) x

lemma opposing_atanh : Opposing (Exponential.atanh x) (Exponential.atanh (-x)) := by
  refine opposing_of_signs Exponential.atanh rfl (fun _ => .error _) (fun s m => ?_) x
  rw [Exponential.atanh, Exponential.atanh]
  split
  · exact .error _
  · exact opposing_zeroOr m (opposing_signedBy s _)

lemma opposing_cbrt : Opposing (.ok x.cbrt) (.ok (-x).cbrt) := by
  refine opposing_of_signs (fun x => .ok x.cbrt) rfl (fun _ => .ok opposite_neg) (fun s m => ?_) x
  rw [cbrt, cbrt]
  split
  · exact .ok opposite_neg
  · exact .ok (.inl (ofRatio_not s _ _))

end Standard

/-! ### The functions of one argument -/

variable (m : Elementary)

/-- The odd functions that rely on an elementary function, each with that function. -/
def wrapped : List (String × (Double → Answer)) :=
  [("sin", m.sin), ("tan", m.tan), ("asin", m.asin), ("atan", m.atan), ("sinh", m.sinh),
    ("tanh", m.tanh), ("asinh", m.asinh), ("atanh", m.atanh), ("cbrt", m.cbrt)]

lemma opposing_standard (x : Double) :
    ∀ p ∈ wrapped .standard, Opposing (p.2 x) (p.2 (-x)) := by
  simp only [wrapped, List.forall_mem_cons, List.not_mem_nil, false_implies, implies_true, and_true]
  exact ⟨opposing_sin x, opposing_tan x, opposing_asin x, opposing_atan x, opposing_sinh x,
    opposing_tanh x, opposing_asinh x, opposing_atanh x, opposing_cbrt x⟩

lemma builtinUnary_wrapped : ∀ p ∈ wrapped m,
    builtinUnary m p.1 = some fun x => (p.2 x).value := by
  simp only [wrapped, List.forall_mem_cons, List.not_mem_nil, false_implies, implies_true, and_true]
  exact ⟨rfl, rfl, rfl, rfl, rfl, rfl, rfl, rfl, rfl⟩

variable {m}

/-- What stands for opposing answers is opposite, unless the results are out of range. -/
lemma opposite_value_iff (h : Opposing a b) : Opposite a.value b.value ↔ a ≠ .error .range := by
  cases h with
  | ok h => exact iff_of_true h (by simp)
  | error r =>
    cases r with
    | domain => exact iff_of_true opposite_neg (by decide)
    | range => exact iff_of_false (by decide) (by simp)

lemma value_of_range (h : Opposing a b) (ha : a = .error .range) :
    a.value = .inf false ∧ b.value = .inf false := by
  cases h with
  | ok h => contradiction
  | error r =>
    cases ha
    exact ⟨rfl, rfl⟩

/-- **The odd functions are odd but for results out of range.** Each that relies on an elementary
function takes opposite values at opposite arguments unless the result there is out of range, and
then it is positive infinity at both. Rounding and the sign are odd everywhere. -/
theorem builtinUnary_odd (hm : ∀ p ∈ wrapped m, Opposing (p.2 x) (p.2 (-x))) :
    (∀ name g, (name, g) ∈ wrapped m → ∃ f, builtinUnary m name = some f ∧
        (Opposite (f x) (f (-x)) ↔ g x ≠ .error .range) ∧
        (g x = .error .range → f x = .inf false ∧ f (-x) = .inf false)) ∧
      ∀ name ∈ ["round", "sgn"], ∃ f, builtinUnary m name = some f ∧ Opposite (f x) (f (-x)) := by
  refine ⟨fun name g hg => ?_, ?_⟩
  · have hopposing := hm _ hg
    exact ⟨_, builtinUnary_wrapped m _ hg, opposite_value_iff hopposing, value_of_range hopposing⟩
  · simp only [List.forall_mem_cons, List.not_mem_nil, false_implies, implies_true, and_true]
    exact ⟨⟨_, rfl, .inl (round_neg x)⟩, ⟨_, rfl, opposite_sign x⟩⟩

def thousand : Double := .finite false ⟨1000 * twoPow 43, -43, by decide⟩

theorem builtinUnary_odd_thousand :
    (∀ p ∈ wrapped .standard, Opposing (p.2 thousand) (p.2 (-thousand))) ∧
      (∃ f, builtinUnary .standard "sinh" = some f ∧ ¬ Opposite (f thousand) (f (-thousand)) ∧
        f (-thousand) = .inf false) ∧
      ∃ f, builtinUnary .standard "tanh" = some f ∧ Opposite (f thousand) (f (-thousand)) := by
  have hm := opposing_standard thousand
  obtain ⟨hodd, -⟩ := builtinUnary_odd hm
  obtain ⟨sinh, hsinh, hiff, hrange⟩ := hodd "sinh" Exponential.sinh (by simp [wrapped]; rfl)
  obtain ⟨tanh, htanh, hiff', -⟩ := hodd "tanh" Exponential.tanh (by simp [wrapped]; rfl)
  have hout : Exponential.sinh thousand = .error .range := by decide +kernel
  exact ⟨hm, ⟨sinh, hsinh, fun h => hiff.mp h hout, (hrange hout).2⟩,
    ⟨tanh, htanh, hiff'.mpr (by decide +kernel)⟩⟩

/-- Both hyperbolic sines are positive. -/
theorem not_forall_builtinUnary_odd :
    ¬ ∀ (m : Elementary) (x : Double), (∀ p ∈ wrapped m, Opposing (p.2 x) (p.2 (-x))) →
      ∀ name ∈ (wrapped m).map (·.1) ++ ["round", "sgn"],
        ∃ f, builtinUnary m name = some f ∧ Opposite (f x) (f (-x)) := by
  intro h
  obtain ⟨f, hf, hodd⟩ := h .standard thousand (opposing_standard thousand) "sinh" (by simp [wrapped])
  cases hf
  exact absurd hodd (by decide +kernel)

end Abacus.Proofs.OddFunctions
