import Abacus.Display
import Abacus.Raising.Cursor

/-!
A whole calculation by steps that can raise: the variables, the tree, its value and the text that is
shown. Only what the reader of the tree reports as a failure of the source is an outcome; anything
else that is raised here is caught nowhere.
-/

namespace Abacus.Raising

/-! ### Variables -/

/-- The text of a variable is converted only if it means a number. -/
def number (v : Variable) : Except Raise (Option Double) :=
  if (readNumber? v.value).isSome then
    match convertNumber? v.value with
    | some x => .ok (some x)
    | none => .error .value
  else .ok none

def insert (r : Resolver) (v : Variable) : Except Raise Resolver := do
  let key := Text.lower v.name
  let x ← number v
  return if (r.entries.lookup key).isSome then r else ⟨r.entries ++ [(key, x)]⟩

def resolver (vars : Snapshot) : Except Raise Resolver := vars.toList.foldlM insert ⟨[]⟩

/-! ### Values -/

/-- What an expression is evaluated with. -/
structure Scope where
  maths : MathModule
  resolver : Resolver
  implied : Bool

abbrev Walk := StateT Missing (Except Raise)

def reportReference (name : String) : Walk Double := do
  modify (·.addReference name)
  return .nan

def reportFunction (name : String) (arity : Nat) : Walk Double := do
  modify (·.addFunction name arity)
  return .nan

/-- The argument at a place. -/
def argument (args : List Double) (i : Nat) : Walk Double :=
  match args[i]? with
  | some x => return x
  | none => throw .lookup

namespace Scope

variable (s : Scope)

def number? (name : String) : Option Double :=
  match s.resolver.resolve name with
  | some v => some v
  | none => Functions.builtinConstant name

def reference (name : String) : Walk Double :=
  match s.number? name with
  | some v => return v
  | none => reportReference name

def apply (op : Operator) (x y : Double) : Except Raise Double :=
  match op with
  | .add => .ok (x + y)
  | .sub => .ok (x - y)
  | .mul => .ok (x * y)
  | .implied => .ok (x * y)
  | .div => divide x y
  | .mod => modulo s.maths x y
  | .pow => power s.maths x y

/-- A call with one argument means a function of one, a call with any other number one of two. -/
def call (name : String) (args : List Double) : Walk Double := do
  if args.length = 1 then
    match unary s.maths name with
    | some f => f (← argument args 0)
    | none =>
      match if s.implied then s.number? name else none with
      | some factor => return factor * (← argument args 0)
      | none => reportFunction name 1
  else
    match binary s.maths name with
    | some f => f (← argument args 0) (← argument args 1)
    | none => reportFunction name args.length

def factorials : Nat → Double → Except Raise Double
  | 0, x => .ok x
  | n + 1, x => do factorials n (← factorial s.maths x)

/-- What waits for the value of the expression in hand. -/
structure Pending where
  bangs : Nat
  links : List (Operator × Walk Double)

namespace Pending

def nothing : Pending := ⟨0, []⟩

end Pending

def finish (p : Pending) (x : Double) : Walk Double := do
  let left ← s.factorials p.bangs x
  p.links.foldlM (fun left link => do s.apply link.1 left (← link.2)) left

mutual

/-- Evaluates an expression and does what is pending. -/
def run : Expr → Pending → Walk Double
  | .number v, p => s.finish p v
  | .reference name _, p => do s.finish p (← s.reference name)
  | .binary op l r, p =>
    if op = .pow then do
      let x ← run l .nothing
      let y ← run r .nothing
      s.finish p (← s.apply .pow x y)
    else if p.bangs = 0 then run l ⟨0, (op, run r .nothing) :: p.links⟩
    else do s.finish p (← run l ⟨0, [(op, run r .nothing)]⟩)
  | .signed sign e, p => do s.finish p (sign.apply (← run e .nothing))
  | .factorial e, p => run e ⟨p.bangs + 1, p.links⟩
  | .call name _ args, p => do s.finish p (← s.call name (← runAll args))

def runAll : List Expr → Walk (List Double)
  | [] => return []
  | e :: rest => do
    let x ← run e .nothing
    return x :: (← runAll rest)

end

def outcome (e : Expr) : Except Raise Outcome := do
  let (v, missing) ← (s.run e .nothing).run Missing.none
  return if missing.isEmpty then .value v else .unresolved missing

end Scope

/-- Reads a source text and evaluates it with the variables and the functions of the tables:
nothing, if there is no room for reading it. -/
def calculate (m : MathModule) (implied : Bool) (source : String) (vars : Snapshot) :
    Option (Except Raise Outcome) :=
  match Token.scan source with
  | .error e => some (.ok (.failure ⟨.scan e.fault, e.pos⟩))
  | .ok ts =>
    match Cursor.parse (Cursor.room ts) ⟨implied, source.length⟩ ts with
    | none => none
    | some (.error (.failure f)) => some (.ok (.failure f))
    | some (.error (.raised r)) => some (.error r)
    | some (.ok e) => some do Scope.outcome ⟨m, ← resolver vars, implied⟩ e

/-! ### Text -/

/-- The double `10^16`. -/
def wholeLimit : Double := .finite false ⟨5000000000000000, 1, by decide⟩

def format (x : Double) : Except Raise String :=
  if x.isNaN then .ok "nan"
  else if x.isInfinite then .ok (if x.isNegative then "-inf" else "inf")
  else if x.isIntegral && x.abs.lt wholeLimit then do return toString (← wholePart x)
  else .ok x.text

def display : Outcome → Except Raise String
  | .value v => format v
  | .unresolved missing => .ok (unresolvedHeading ++ ", ".intercalate missing.names)
  | .failure _ => .ok parseFailed

/-- The text that a calculation shows. -/
def answer (m : MathModule) (implied : Bool) (source : String) (vars : Snapshot) :
    Option (Except Raise String) :=
  (calculate m implied source vars).map (· >>= display)

end Abacus.Raising
