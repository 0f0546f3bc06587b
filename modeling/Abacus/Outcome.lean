import Abacus.Evaluation
import Abacus.Expr.OfTokens

/-!
What comes of a source text: a number, a report of missing names, or a failure to read it. Each is
an ordinary result.
-/

namespace Abacus

inductive Outcome
  | value (v : Double)
  | unresolved (missing : Missing)
  | failure (f : Failure)
  deriving DecidableEq

/-- The value of a tree, or the report if it is not empty. -/
def Scope.outcome (s : Scope) (e : Expr) : Outcome :=
  let (v, missing) := s.eval e .none
  if missing.isEmpty then .value v else .unresolved missing

inductive TreeError
  | missingArgument
  deriving DecidableEq

def TreeError.message : TreeError → String
  | .missingArgument => "list index out of range"

/-- The outcome of a tree built by hand, in which a call may lack its arguments. -/
def Scope.outcomeOfTree (s : Scope) (e : Expr) : Except TreeError Outcome :=
  if s.lacksArguments e then .error .missingArgument else .ok (s.outcome e)

/-- The functions that calculations use and the elementary functions behind the operators. -/
structure Library where
  maths : Elementary
  functions : Functions

def Library.builtin (m : Elementary) : Library := ⟨m, .builtin m⟩

/-- An expression that has been read, with its source and the rule for neighbours it was read by. -/
structure Compiled where
  source : String
  implied : Bool
  root : Expr

namespace Compiled

def ofSource (implied : Bool) (source : String) : Except Failure Compiled :=
  (Expr.parse implied source).map (⟨source, implied, ·⟩)

def outcome (c : Compiled) (lib : Library) (vars : Snapshot) : Outcome :=
  Scope.outcome ⟨lib.maths, lib.functions, .ofSnapshot vars, c.implied⟩ c.root

end Compiled

/-- Reads a source text and evaluates it with the variables. -/
def Library.calculate (lib : Library) (implied : Bool) (source : String) (vars : Snapshot) :
    Outcome :=
  match Compiled.ofSource implied source with
  | .error f => .failure f
  | .ok c => c.outcome lib vars

end Abacus
