import Mathlib.Tactic.Common
import Abacus.Proofs.RaisingFunctions
import Abacus.Proofs.SourceOrder
import Abacus.Raising.Calculation

/-!
The evaluation raises nothing. By steps that can raise, a tree in whose calls no argument is missing
has the value and the report that it has by steps that cannot; and no argument is missing from the
tree of a source.
-/

namespace Abacus.Raising

open Proofs
open Proofs.Uses (uses usesAll calls calls_append plainAll_eq length_values)

/-! ### A computation that raises nothing -/

/-- The computation `x` among those that can raise. -/
def lift {α : Type} (x : Eval α) : Walk α := fun missing => .ok (x.run missing)

section

variable {α β : Type}

lemma lift_bind (x : Eval α) (f : α → Eval β) :
    lift (x >>= f) = lift x >>= fun a => lift (f a) := rfl

lemma lift_bind_congr {x : Eval α} {f : α → Walk β} {g : α → Eval β}
    (h : ∀ missing, f (x.run missing).1 = lift (g (x.run missing).1)) :
    lift x >>= f = lift (x >>= g) :=
  funext fun missing => congrFun (h missing) (x.run missing).2

/-- A step that has a result raises nothing. -/
lemma bind_ok {x : Except Raise α} {a : α} (h : x = .ok a) (f : α → Walk β) :
    ((liftM x : Walk α) >>= f) = f a := by
  subst h
  rfl

end

namespace Scope

variable (s : Scope)

/-- What evaluates without raising anything. -/
def exact : Abacus.Scope where
  maths := s.maths.elementary
  functions := .builtin s.maths.elementary
  resolver := s.resolver
  implied := s.implied

variable {s}

lemma number?_exact (name : String) : s.exact.number? name = s.number? name := rfl

lemma unary_exact (hm : s.maths.Documented) (name : String) :
    unary s.maths name = (s.exact.functions.unary name).map fun f x => .ok (f x) :=
  unary_eq hm name

lemma binary_exact (hm : s.maths.Documented) (name : String) :
    binary s.maths name = (s.exact.functions.binary name).map fun f x y => .ok (f x y) :=
  binary_eq hm name

lemma reference_eq (name : String) : s.reference name = lift (s.exact.reference name) := by
  unfold reference Abacus.Scope.reference
  rw [number?_exact]
  cases s.number? name <;> rfl

lemma apply_eq (hm : s.maths.Documented) (op : Operator) (x y : Double) :
    s.apply op x y = .ok (s.exact.apply op x y) := by
  cases op with
  | div => exact divide_eq x y
  | mod => exact modulo_eq hm x y
  | pow => exact power_eq hm x y
  | _ => rfl

lemma factorials_eq (hm : s.maths.Documented) (n : ℕ) (x : Double) :
    s.factorials n x = .ok (s.exact.factorials n x) := by
  induction n generalizing x with
  | zero => rfl
  | succ n ih =>
    rw [factorials, factorial_eq hm]
    exact ih _

lemma call_one (hm : s.maths.Documented) (name : String) (x : Double) :
    s.call name [x] = lift (s.exact.call name [x]) := by
  unfold call Abacus.Scope.call
  rw [unary_exact hm, number?_exact]
  cases s.exact.functions.unary name with
  | some f => rfl
  | none =>
    have himplied : s.exact.implied = s.implied := rfl
    rw [himplied]
    cases hn : if s.implied then s.number? name else none <;> rfl

/-- A call of a function of two has an argument at each of two places. -/
lemma call_two (hm : s.maths.Documented) (name : String) {args : List Double}
    (hone : args.length ≠ 1) (h : args ≠ [] ∨ s.exact.functions.binary name = none) :
    s.call name args = lift (s.exact.call name args) := by
  unfold call Abacus.Scope.call
  rw [binary_exact hm, if_neg hone]
  match args with
  | [] =>
    have hnone : s.exact.functions.binary name = none := h.resolve_left (by simp)
    dsimp only
    rw [hnone]
    rfl
  | [_] => simp at hone
  | x :: y :: rest =>
    dsimp only
    cases s.exact.functions.binary name <;> rfl

lemma call_eq (hm : s.maths.Documented) (name : String) {args : List Double}
    (h : args ≠ [] ∨ s.exact.functions.binary name = none) :
    s.call name args = lift (s.exact.call name args) := by
  by_cases hone : args.length = 1
  · obtain ⟨x, rfl⟩ := List.length_eq_one_iff.mp hone
    exact call_one hm name x
  · exact call_two hm name hone h

lemma length_runAll (es : List Expr) (missing : Missing) :
    ((s.exact.runAll es).run missing).1.length = es.length := by
  rw [PlainWalk.runAll_eq, plainAll_eq]
  exact length_values s.exact es

/-! ### What is pending -/

/-- What waits, with each computation among those that can raise. -/
def liftPending (p : Abacus.Scope.Pending) : Pending :=
  ⟨p.bangs, p.links.map fun link => (link.1, lift link.2)⟩

lemma finish_eq (hm : s.maths.Documented) (p : Abacus.Scope.Pending) (x : Double) :
    s.finish (liftPending p) x = lift (s.exact.finish p x) := by
  obtain ⟨bangs, links⟩ := p
  rw [finish, Abacus.Scope.finish]
  refine (bind_ok (factorials_eq hm bangs x) _).trans ?_
  generalize s.exact.factorials bangs x = left
  simp only [liftPending]
  induction links generalizing left with
  | nil => rfl
  | cons link links ih =>
    simp only [List.map_cons, List.foldlM_cons, bind_assoc, lift_bind, pure_bind]
    refine congrArg _ (funext fun y => ?_)
    exact (bind_ok (apply_eq hm link.1 left y) _).trans (ih _)

mutual

lemma run_eq (hm : s.maths.Documented) (e : Expr) (p : Abacus.Scope.Pending)
    (h : s.exact.lacksArguments e = false) :
    s.run e (liftPending p) = lift (s.exact.run e p) := by
  match e with
  | .number v =>
    rw [run, Abacus.Scope.run]
    exact finish_eq hm p v
  | .reference name _ =>
    rw [run, Abacus.Scope.run, lift_bind, reference_eq]
    simp only [finish_eq hm]
  | .signed sign e =>
    have he := run_eq hm e .nothing h
    rw [run, Abacus.Scope.run, lift_bind, ← he]
    simp only [finish_eq hm]
    rfl
  | .factorial e =>
    rw [run, Abacus.Scope.run, ← run_eq hm e ⟨p.bangs + 1, p.links⟩ h]
    rfl
  | .call name _ args =>
    rw [Abacus.Scope.lacksArguments, Bool.or_eq_false_iff, Bool.and_eq_false_iff] at h
    obtain ⟨hempty, hargs⟩ := h
    rw [run, Abacus.Scope.run, runAll_eq hm args hargs]
    refine lift_bind_congr fun missing => ?_
    -- with an argument at hand, or with no function of that name, no argument is missed
    have hcall : s.call name ((s.exact.runAll args).run missing).1 =
        lift (s.exact.call name ((s.exact.runAll args).run missing).1) := by
      refine call_eq hm name ?_
      rcases hempty with hne | hnone
      · have hlen := length_runAll (s := s) args missing
        refine .inl fun hnil => ?_
        rw [hnil, List.length_nil, eq_comm, List.length_eq_zero_iff] at hlen
        simp [hlen] at hne
      · exact .inr (Option.isNone_iff_eq_none.mp (Option.isSome_eq_false_iff.mp hnone))
    rw [hcall, lift_bind]
    simp only [finish_eq hm]
  | .binary op l r =>
    rw [Abacus.Scope.lacksArguments, Bool.or_eq_false_iff] at h
    obtain ⟨hl, hr⟩ := h
    have hright : s.run r .nothing = lift (s.exact.run r .nothing) := run_eq hm r .nothing hr
    rw [run, Abacus.Scope.run]
    by_cases hop : op = .pow
    · subst hop
      rw [if_pos rfl, if_pos rfl, lift_bind, ← run_eq hm l .nothing hl]
      refine congrArg _ (funext fun x => ?_)
      rw [lift_bind, ← hright]
      refine congrArg _ (funext fun y => ?_)
      exact (bind_ok (apply_eq hm .pow x y) _).trans (finish_eq hm p _)
    · rw [if_neg hop, if_neg hop, hright]
      by_cases hb : p.bangs = 0
      · -- a link of a chain: the right operand waits with what waits already
        rw [liftPending, if_pos hb, if_pos hb]
        exact run_eq hm l ⟨0, (op, s.exact.run r .nothing) :: p.links⟩ hl
      · -- exclamation marks end the chain above them
        rw [liftPending, if_neg hb, if_neg hb, lift_bind,
          ← run_eq hm l ⟨0, [(op, s.exact.run r .nothing)]⟩ hl]
        exact congrArg _ (funext fun x => finish_eq hm p x)

lemma runAll_eq (hm : s.maths.Documented) (es : List Expr)
    (h : s.exact.anyLacksArguments es = false) :
    s.runAll es = lift (s.exact.runAll es) := by
  match es with
  | [] => rfl
  | e :: rest =>
    rw [Abacus.Scope.anyLacksArguments, Bool.or_eq_false_iff] at h
    rw [runAll, Abacus.Scope.runAll, lift_bind, ← run_eq hm e .nothing h.1]
    simp only [lift_bind, ← runAll_eq hm rest h.2]
    rfl

end

/-- **A tree evaluates as it does by steps that raise nothing**, if no argument is missing in it. -/
theorem outcome_eq (hm : s.maths.Documented) {e : Expr} (h : s.exact.lacksArguments e = false) :
    s.outcome e = .ok (s.exact.outcome e) := by
  rw [outcome, show s.run e .nothing = lift (s.exact.run e .nothing) from run_eq hm e .nothing h]
  rfl

/-! ### Arguments -/

variable (t : Abacus.Scope)

mutual

lemma lacksArguments_of_calls (e : Expr) (h : ∀ c ∈ calls (uses e), c.2 ≠ 0) :
    t.lacksArguments e = false := by
  match e with
  | .number _ | .reference _ _ => rfl
  | .binary _ l r =>
    rw [uses, calls_append, List.forall_mem_append] at h
    rw [Abacus.Scope.lacksArguments, lacksArguments_of_calls l h.1,
      lacksArguments_of_calls r h.2, Bool.or_self]
  | .signed _ e | .factorial e =>
    rw [Abacus.Scope.lacksArguments]
    exact lacksArguments_of_calls e h
  | .call name _ args =>
    rw [uses, calls_append, List.forall_mem_append] at h
    have hlen : args.length ≠ 0 := h.2 (name, args.length) (List.mem_singleton_self _)
    have hne : args.isEmpty = false := by
      rw [List.isEmpty_eq_false_iff, ← List.length_pos_iff]
      omega
    rw [Abacus.Scope.lacksArguments, hne, anyLacksArguments_of_calls args h.1, Bool.false_and,
      Bool.or_self]

lemma anyLacksArguments_of_calls (es : List Expr) (h : ∀ c ∈ calls (usesAll es), c.2 ≠ 0) :
    t.anyLacksArguments es = false := by
  match es with
  | [] => rfl
  | e :: rest =>
    rw [usesAll, calls_append, List.forall_mem_append] at h
    rw [Abacus.Scope.anyLacksArguments, lacksArguments_of_calls e h.1,
      anyLacksArguments_of_calls rest h.2, Bool.or_self]

end

end Scope

end Abacus.Raising
