import Abacus.Outcome

/-!
The calls that an evaluation has open at once. A chain of left operands is evaluated by one call,
and so is a run of exclamation marks; the room for open calls is limited, and an evaluation that
needs more of it has no outcome. Where there is room enough the limit makes no difference, so what
is said without the limit, of reports, replaced variables, command lines and sessions, holds with it.
-/

namespace Abacus

/-- What an operand is part of: a chain or a run that has its call already, or neither. -/
inductive Surrounding
  | nothing
  | chain
  | run
  deriving DecidableEq

namespace Expr

mutual

/-- The most calls open at once while an expression is evaluated: one for the expression, one for
its operation unless it goes on with a chain or a run, and one for the arguments of a call. -/
def framesIn : Surrounding → Expr → Nat
  | _, .number _ => 1
  | _, .reference _ _ => 2
  | s, .binary op l r =>
    if op = .pow then 2 + max (framesIn .nothing l) (framesIn .nothing r)
    else (if s = .chain then 0 else 2) + max (framesIn .chain l) (framesIn .nothing r)
  | _, .signed _ e => 2 + framesIn .nothing e
  | s, .factorial e => (if s = .run then 0 else 2) + framesIn .run e
  | _, .call _ _ args => 3 + framesOfAll args

def framesOfAll : List Expr → Nat
  | [] => 0
  | e :: rest => max (framesIn .nothing e) (framesOfAll rest)

end

def frames (e : Expr) : Nat := e.framesIn .nothing

end Expr

/-- The room for open calls. -/
def stackLimit : Nat := 1000

inductive StackError
  | exhausted
  deriving DecidableEq

def StackError.message : StackError → String
  | .exhausted => "maximum recursion depth exceeded"

/-- The outcome of a compiled expression, if there is room for its evaluation. -/
def Compiled.outcomeOnStack (c : Compiled) (lib : Library) (vars : Snapshot) :
    Except StackError Outcome :=
  if c.root.frames < stackLimit then .ok (c.outcome lib vars) else .error .exhausted

/-- Reads a source text and evaluates it with the variables, if there is room for that. -/
def Library.calculateOnStack (lib : Library) (implied : Bool) (source : String) (vars : Snapshot) :
    Except StackError Outcome :=
  match Compiled.ofSource implied source with
  | .error f => .ok (.failure f)
  | .ok c => c.outcomeOnStack lib vars

variable {implied : Bool} {source : String} {e : Expr}

/-- **A calculation that has room comes to what it comes to with room for everything**, so all that
is said of `Library.calculate` holds of it. -/
theorem Library.calculateOnStack_eq (lib : Library) (vars : Snapshot)
    (h : ∀ e, Expr.parse implied source = .ok e → e.frames < stackLimit) :
    lib.calculateOnStack implied source vars = .ok (lib.calculate implied source vars) := by
  unfold calculateOnStack calculate Compiled.ofSource
  cases hp : Expr.parse implied source with
  | error f => rfl
  | ok e => simp only [Except.map, Compiled.outcomeOnStack, if_pos (h e hp)]

theorem Library.calculateOnStack_of_lt (lib : Library) (vars : Snapshot)
    (h : Expr.parse implied source = .ok e) (hroom : e.frames < stackLimit) :
    lib.calculateOnStack implied source vars = .ok (lib.calculate implied source vars) := by
  refine lib.calculateOnStack_eq vars fun e' h' => ?_
  rw [h] at h'
  cases h'
  exact hroom

theorem Library.calculateOnStack_of_not_lt (lib : Library) (vars : Snapshot)
    (h : Expr.parse implied source = .ok e) (hroom : ¬ e.frames < stackLimit) :
    lib.calculateOnStack implied source vars = .error .exhausted := by
  simp only [calculateOnStack, Compiled.ofSource, h, Except.map, Compiled.outcomeOnStack,
    if_neg hroom]

end Abacus
