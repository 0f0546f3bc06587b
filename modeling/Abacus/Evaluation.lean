import Abacus.Expr
import Abacus.Functions
import Abacus.Variables

/-!
The value of an expression. Evaluation visits the whole tree, the left operand before the right one
and arguments before their call, and keeps a report of the names that nothing supplies; such a name
counts as NaN. A chain of left operands is followed down before anything in it is computed: what is
left to do with its first operand waits in a list, and so do the exclamation marks of a run.
-/

namespace Abacus

/-- The names that nothing supplies, in the order in which they were met. -/
structure Missing where
  references : List String
  unary : List String
  binary : List String
  deriving DecidableEq, Repr

namespace Missing

def none : Missing := ⟨[], [], []⟩

def isEmpty (r : Missing) : Bool :=
  r.references.isEmpty && r.unary.isEmpty && r.binary.isEmpty

/-- Names of variables count as one if they differ in case only; the first spelling stays. -/
def addReference (r : Missing) (name : String) : Missing :=
  let key := Text.lower name
  if r.references.any (Text.lower · == key) then r
  else { r with references := r.references ++ [name] }

def addFunction (r : Missing) (name : String) (arity : Nat) : Missing :=
  if arity = 1 then
    if r.unary.contains name then r else { r with unary := r.unary ++ [name] }
  else if r.binary.contains name then r
  else { r with binary := r.binary ++ [name] }

/-- All the names: variables, functions of one argument, functions of two. -/
def names (r : Missing) : List String := r.references ++ r.unary ++ r.binary

end Missing

/-- What an expression is evaluated with. With `implied`, a variable before a parenthesis multiplies
what is in it. -/
structure Scope where
  maths : Elementary
  functions : Functions
  resolver : Resolver
  implied : Bool

/-- A computation that adds to the report. -/
abbrev Eval := StateM Missing

def reportReference (name : String) : Eval Double := do
  modify (·.addReference name)
  pure .nan

def reportFunction (name : String) (arity : Nat) : Eval Double := do
  modify (·.addFunction name arity)
  pure .nan

namespace Sign

def apply : Sign → Double → Double
  | .plus, x => x
  | .minus, x => -x

end Sign

namespace Scope

variable (s : Scope)

/-- The number of a name: that of a variable, or else that of a constant. -/
def number? (name : String) : Option Double :=
  match s.resolver.resolve name with
  | some v => some v
  | none => s.functions.constant name

def reference (name : String) : Eval Double :=
  match s.number? name with
  | some v => pure v
  | none => reportReference name

def apply (op : Operator) (x y : Double) : Double :=
  match op with
  | .add => x + y
  | .sub => x - y
  | .mul => x * y
  | .implied => x * y
  | .div => x / y
  | .mod => x % y
  | .pow => s.maths.power x y

/-- A call with one argument means a function of one, a call with any other number one of two, which
takes the first two of more. -/
def call (name : String) (args : List Double) : Eval Double :=
  match args with
  | [x] =>
    match s.functions.unary name with
    | some f => pure (f x)
    | none =>
      match if s.implied then s.number? name else none with
      | some factor => pure (factor * x)
      | none => reportFunction name 1
  | _ =>
    match s.functions.binary name with
    | none => reportFunction name args.length
    | some f =>
      match args with
      | x :: y :: _ => pure (f x y)
      | _ => pure .nan

/-- `x` with `n` exclamation marks. -/
def factorials : Nat → Double → Double
  | 0, x => x
  | n + 1, x => factorials n (s.maths.factorial x)

/-- What waits for the value of the expression in hand: exclamation marks, and then operators with
their right operands. -/
structure Pending where
  bangs : Nat
  links : List (Operator × Eval Double)

namespace Pending

def nothing : Pending := ⟨0, []⟩

end Pending

def finish (p : Pending) (x : Double) : Eval Double :=
  p.links.foldlM (fun left link => do return s.apply link.1 left (← link.2))
    (s.factorials p.bangs x)

mutual

/-- Evaluates an expression and does what is pending. A power is evaluated at once; the other
operators wait for their left operand, but not across exclamation marks. -/
def run : Expr → Pending → Eval Double
  | .number v, p => s.finish p v
  | .reference name _, p => do s.finish p (← s.reference name)
  | .binary op l r, p =>
    if op = .pow then do
      let x ← run l .nothing
      let y ← run r .nothing
      s.finish p (s.apply .pow x y)
    else if p.bangs = 0 then run l ⟨0, (op, run r .nothing) :: p.links⟩
    else do s.finish p (← run l ⟨0, [(op, run r .nothing)]⟩)
  | .signed sign e, p => do s.finish p (sign.apply (← run e .nothing))
  | .factorial e, p => run e ⟨p.bangs + 1, p.links⟩
  | .call name _ args, p => do s.finish p (← s.call name (← runAll args))

def runAll : List Expr → Eval (List Double)
  | [] => pure []
  | e :: rest => do
    let x ← run e .nothing
    return x :: (← runAll rest)

end

def eval (e : Expr) : Eval Double := s.run e .nothing

mutual

/-- Whether a function of two arguments is called with none anywhere in a tree. No text reads as
such a tree. -/
def lacksArguments : Expr → Bool
  | .number _ => false
  | .reference _ _ => false
  | .binary _ l r => lacksArguments l || lacksArguments r
  | .signed _ e => lacksArguments e
  | .factorial e => lacksArguments e
  | .call name _ args =>
    (args.isEmpty && (s.functions.binary name).isSome) || anyLacksArguments args

def anyLacksArguments : List Expr → Bool
  | [] => false
  | e :: rest => lacksArguments e || anyLacksArguments rest

end

end Scope

end Abacus
