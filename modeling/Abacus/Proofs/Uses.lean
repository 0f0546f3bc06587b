import Mathlib.Tactic.Common
import Abacus.Outcome
import Abacus.Proofs.PlainWalk

/-!
What a tree names, and what its evaluation makes of it.

A use is a place that names a variable or a function. The evaluation meets the uses of a tree in
one order, whatever the numbers are: operands from left to right, and a call after its arguments.
So an evaluation is two things that do not depend on each other, the number of the tree and a
report on the list of its uses.
-/

namespace Abacus.Proofs.Uses

open PlainWalk

inductive Use
  | reference (name : String)
  | call (name : String) (arity : ℕ)

mutual

/-- The uses of a tree in the order in which they are met. -/
def uses : Expr → List Use
  | .number _ => []
  | .reference name _ => [.reference name]
  | .binary _ l r => uses l ++ uses r
  | .signed _ e => uses e
  | .factorial e => uses e
  | .call name _ args => usesAll args ++ [.call name args.length]

def usesAll : List Expr → List Use
  | [] => []
  | e :: rest => uses e ++ usesAll rest

end

/-- The names used as variables. -/
def references (us : List Use) : List String :=
  us.filterMap fun
    | .reference name => some name
    | .call _ _ => none

/-- The names used as functions, with the number of arguments. -/
def calls (us : List Use) : List (String × ℕ) :=
  us.filterMap fun
    | .reference _ => none
    | .call name arity => some (name, arity)

@[simp] lemma references_append (us vs : List Use) :
    references (us ++ vs) = references us ++ references vs := by simp [references]

@[simp] lemma calls_append (us vs : List Use) : calls (us ++ vs) = calls us ++ calls vs := by
  simp [calls]

variable (s : Scope)

/-- The name has a number, as a variable or as a constant. -/
def known (name : String) : Bool := (s.number? name).isSome

/-- The call has a function, or stands for a product. -/
def callable (name : String) (arity : ℕ) : Bool :=
  if arity = 1 then (s.functions.unary name).isSome || (s.implied && known s name)
  else (s.functions.binary name).isSome

/-- One use goes into the report if nothing supplies it. -/
def note (m : Missing) : Use → Missing
  | .reference name => if known s name then m else m.addReference name
  | .call name arity => if callable s name arity then m else m.addFunction name arity

/-- The report on a list of uses. -/
def report (us : List Use) : Missing := us.foldl (note s) .none

/-! ### The number of a tree -/

/-- The number of a call; what it reports does not matter for it. -/
def callValue (name : String) (args : List Double) : Double := (s.call name args .none).1

mutual

def value : Expr → Double
  | .number v => v
  | .reference name _ => (s.number? name).getD .nan
  | .binary op l r => s.apply op (value l) (value r)
  | .signed sign e => sign.apply (value e)
  | .factorial e => s.maths.factorial (value e)
  | .call name _ args => callValue s name (values args)

def values : List Expr → List Double
  | [] => []
  | e :: rest => value e :: values rest

end

lemma length_values (es : List Expr) : (values s es).length = es.length := by
  induction es with
  | nil => rfl
  | cons e rest ih => simp [values, ih]

lemma reference_eq (name : String) (m : Missing) :
    s.reference name m = ((s.number? name).getD .nan, note s m (.reference name)) := by
  cases h : s.number? name <;>
    simp [Scope.reference, note, known, h] <;> rfl

lemma call_eq (name : String) (args : List Double) (m : Missing) :
    s.call name args m = (callValue s name args, note s m (.call name args.length)) := by
  rcases args with _ | ⟨x, _ | ⟨y, rest⟩⟩
  · cases h : s.functions.binary name <;>
      simp [Scope.call, callValue, note, callable, h] <;> rfl
  · cases h : s.functions.unary name
    · cases hi : s.implied <;> cases hn : s.number? name <;>
        simp [Scope.call, callValue, note, callable, known, h, hi, hn] <;> rfl
    · simp [Scope.call, callValue, note, callable, h]
      rfl
  · cases h : s.functions.binary name <;>
      simp [Scope.call, callValue, note, callable, h] <;> rfl

mutual

lemma plain_eq (e : Expr) (m : Missing) :
    (plain s e).run m = pure (value s e, (uses e).foldl (note s) m) := by
  match e with
  | .number v => rfl
  | .reference name _ => exact reference_eq s name m
  | .binary op l r => simp [plain, value, uses, plain_eq l, plain_eq r]
  | .signed sign e => simp [plain, value, uses, plain_eq e]
  | .factorial e => simp [plain, value, uses, plain_eq e]
  | .call name _ args =>
    simp only [plain, value, uses, StateT.run_bind, plainAll_eq args, pure_bind,
      List.foldl_append, List.foldl_cons, List.foldl_nil, ← length_values s args]
    exact call_eq s name (values s args) _

lemma plainAll_eq (es : List Expr) (m : Missing) :
    (plainAll s es).run m = pure (values s es, (usesAll es).foldl (note s) m) := by
  match es with
  | [] => rfl
  | e :: rest => simp [plainAll, values, usesAll, plain_eq e, plainAll_eq rest]

end

/-- **An outcome is a number or a report**, neither of which depends on the other. -/
theorem outcome_eq (e : Expr) :
    s.outcome e =
      if (report s (uses e)).isEmpty then .value (value s e)
      else .unresolved (report s (uses e)) := by
  have h : s.eval e .none = (value s e, report s (uses e)) := by
    rw [eval_eq]
    exact plain_eq s e .none
  rw [Scope.outcome, h]

end Abacus.Proofs.Uses
