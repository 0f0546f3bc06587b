import Mathlib.Tactic.Common
import Abacus.Evaluation

/-!
Evaluation as a plain recursion on the tree: every node evaluates its operands by a call of their
own, the left one first, and then does its operation. The evaluation that follows chains of left
operands and runs of exclamation marks down before it computes anything gives the same number and
the same report.
-/

namespace Abacus.Proofs.PlainWalk

variable (s : Scope)

mutual

def plain : Expr → Eval Double
  | .number v => pure v
  | .reference name _ => s.reference name
  | .binary op l r => do
    let x ← plain l
    let y ← plain r
    return s.apply op x y
  | .signed sign e => do return sign.apply (← plain e)
  | .factorial e => do return s.maths.factorial (← plain e)
  | .call name _ args => do s.call name (← plainAll args)

def plainAll : List Expr → Eval (List Double)
  | [] => pure []
  | e :: rest => do
    let x ← plain e
    return x :: (← plainAll rest)

end

/-! ### What is pending -/

lemma finish_nothing : s.finish .nothing = pure := rfl

lemma finish_bang (n : ℕ) (links : List (Operator × Eval Double)) :
    s.finish ⟨n + 1, links⟩ = fun x => s.finish ⟨n, links⟩ (s.maths.factorial x) := rfl

lemma finish_link (op : Operator) (right : Eval Double)
    (links : List (Operator × Eval Double)) :
    s.finish ⟨0, (op, right) :: links⟩ = fun x => (do
      let y ← right
      s.finish ⟨0, links⟩ (s.apply op x y)) := by
  funext x
  simp [Scope.finish, Scope.factorials]

/-! ### The two evaluations -/

mutual

/-- What is pending waits for the value of the whole tree, whatever the tree is. -/
lemma run_eq (e : Expr) (p : Scope.Pending) : s.run e p = plain s e >>= s.finish p := by
  match e with
  | .number v => simp [Scope.run, plain]
  | .reference name _ => simp [Scope.run, plain]
  | .signed sign e => simp [Scope.run, plain, run_eq e, finish_nothing]
  | .factorial e => simp [Scope.run, plain, run_eq e, finish_bang]
  | .call name _ args => simp [Scope.run, plain, runAll_eq args]
  | .binary op l r =>
    have hl := run_eq l
    have hr : s.run r .nothing = plain s r := by rw [run_eq r, finish_nothing, bind_pure]
    obtain ⟨bangs, links⟩ := p
    by_cases hop : op = .pow
    · subst hop
      simp [Scope.run, plain, hl, hr, finish_nothing]
    · rcases Nat.eq_zero_or_pos bangs with rfl | hb
      · -- a link of a chain: the right operand waits
        simp [Scope.run, plain, hop, hl, hr, finish_link]
      · -- exclamation marks end the chain above them
        have hb' : bangs ≠ 0 := by omega
        have hlast : s.finish ⟨0, []⟩ = pure := finish_nothing s
        simp [Scope.run, plain, hop, hb', hl, hr, finish_link, hlast]

lemma runAll_eq (es : List Expr) : s.runAll es = plainAll s es := by
  match es with
  | [] => rfl
  | e :: rest => simp [Scope.runAll, plainAll, run_eq e, runAll_eq rest, finish_nothing]

end

lemma eval_eq (e : Expr) : s.eval e = plain s e := by
  rw [Scope.eval, run_eq, finish_nothing, bind_pure]

/-! ### Chains and runs -/

/-- The first operand of a chain of left operands, and its operators with their right operands. A
power is no link of a chain. -/
def chain : Expr → Expr × List (Operator × Expr)
  | .binary op l r =>
    if op = .pow then (.binary op l r, []) else ((chain l).1, (chain l).2 ++ [(op, r)])
  | e => (e, [])

/-- What a run of exclamation marks stands after, and how many there are. -/
def bangRun : Expr → Expr × ℕ
  | .factorial e => ((bangRun e).1, (bangRun e).2 + 1)
  | e => (e, 0)

lemma factorials_succ (n : ℕ) (x : Double) :
    s.factorials (n + 1) x = s.maths.factorial (s.factorials n x) := by
  induction n generalizing x with
  | zero => rfl
  | succ n ih => exact ih (s.maths.factorial x)

/-- **A chain is a fold**: its first operand and then link by link, each right operand before its
operator. -/
theorem eval_chain (e : Expr) :
    s.eval e = (do
      let x ← s.eval (chain e).1
      (chain e).2.foldlM (fun left link => do return s.apply link.1 left (← s.eval link.2)) x) := by
  induction e using chain.induct with
  | case1 l r => simp [chain]
  | case2 op l r hop ih =>
    have hbin : s.eval (.binary op l r) = (do
        let x ← s.eval l
        let y ← s.eval r
        return s.apply op x y) := by simp only [eval_eq, plain]
    rw [hbin, ih]
    simp [chain, hop]
  | case3 e => simp [chain]

theorem eval_bangRun (e : Expr) :
    s.eval e = (do return s.factorials (bangRun e).2 (← s.eval (bangRun e).1)) := by
  induction e using bangRun.induct with
  | case1 e ih =>
    have hbang : s.eval (.factorial e) = (do return s.maths.factorial (← s.eval e)) := by
      simp only [eval_eq, plain]
    rw [hbang, ih]
    simp [bangRun, factorials_succ]
  | case2 e => simp [bangRun, Scope.factorials]

/-- **The loops change nothing**: the number and the report are those of the plain recursion. -/
theorem eval_eq_plain (e : Expr) (m : Missing) : (s.eval e).run m = (plain s e).run m := by
  rw [eval_eq]

end Abacus.Proofs.PlainWalk
