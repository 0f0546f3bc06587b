import Abacus.Decimal.Conversion
import Abacus.Expr.OfTokens
import Abacus.Raising.Functions

/-!
The grammar as a cursor reads it: one list of tokens with a mark for its end, a place in that list,
and a level that goes up and down again. Every look at the list can miss it, and a number is
converted from its text when it is read. A rule has room for a number of rules inside it and gives
nothing if that is not enough; that the room suffices is not said here.
-/

namespace Abacus

structure Cursor where
  place : Nat
  level : Nat

namespace Cursor

open Raising (Raise)

/-- What ends a reading early: a failure of the source, or a step that should have a result. -/
inductive Stop
  | failure (f : Failure)
  | raised (r : Raise)
  deriving DecidableEq

abbrev Moving := StateT Cursor (ExceptT Stop Option)

/-- There is no room for another rule. -/
def exhausted {α : Type} : Moving α := fun _ => ExceptT.mk none

variable (g : Grammar) (tape : List (Option Token))

/-- The token at the place; there is none at the end. -/
def current : Moving (Option Token) := do
  match tape[(← get).place]? with
  | some t => return t
  | none => throw (.raised .lookup)

/-- The token after the current one, or else the last one. -/
def following : Moving (Option Token) := do
  match tape[(← get).place + 1]? with
  | some t => return t
  | none =>
    match tape.getLast? with
    | some t => return t
    | none => throw (.raised .lookup)

/-- On to the next place, but not past the end. -/
def advance : Moving Unit := do
  let _ ← current tape
  modify fun c => if c.place + 1 < tape.length then { c with place := c.place + 1 } else c

def fail {α : Type} (cause : Failure.Cause) (found : Option Token) : Moving α :=
  throw (.failure ⟨cause, g.placeOf found.toList⟩)

/-- One level deeper, for what `t` begins. -/
def enter (t : Token) : Moving Unit := do
  modify fun c => { c with level := c.level + 1 }
  if maxDepth < (← get).level then fail g .tooDeep (some t)

def leave : Moving Unit := modify fun c => { c with level := c.level - 1 }

/-- Takes a token that has been seen already. -/
def take (k : Token.Kind) : Moving Token := do
  match ← current tape with
  | some t => if t.kind = k then advance tape; return t else throw (.raised .kind)
  | none => throw (.raised .kind)

/-- The parenthesis that ends a group or an argument list. -/
def closing : Moving Unit := do
  match ← current tape with
  | some t =>
    if t.kind = .rparen then advance tape else fail g (.expectedClosing (some t)) (some t)
  | none => fail g (.expectedClosing none) none

def convert (t : Token) : Moving Expr :=
  match convertNumber? t.text with
  | some v => return .number v
  | none => throw (.raised .value)

def bangs : Nat → Expr → Moving Expr
  | 0, _ => exhausted
  | fuel + 1, e => do
    match ← current tape with
    | some t => if t.kind = .bang then advance tape; bangs fuel (.factorial e) else return e
    | none => return e

mutual

def sum : Nat → Moving Expr
  | 0 => exhausted
  | fuel + 1 => do
    let left ← product fuel
    sumFrom fuel left

def sumFrom : Nat → Expr → Moving Expr
  | 0, _ => exhausted
  | fuel + 1, left => do
    match (← current tape).bind fun t => Grammar.sumOperator? t.kind with
    | some op => do
      advance tape
      let right ← product fuel
      sumFrom fuel (.binary op left right)
    | none => return left

def product : Nat → Moving Expr
  | 0 => exhausted
  | fuel + 1 => do
    let left ← signed fuel
    productFrom fuel left

def productFrom : Nat → Expr → Moving Expr
  | 0, _ => exhausted
  | fuel + 1, left => do
    match ← current tape with
    | none => return left
    | some t =>
      match Grammar.productOperator? t.kind with
      | some op => do
        advance tape
        let right ← signed fuel
        productFrom fuel (.binary op left right)
      | none =>
        if Grammar.startsOperand t.kind then
          if g.implied then do
            let right ← power fuel
            productFrom fuel (.binary .implied left right)
          else fail g (.missingOperator t) (some t)
        else return left

def signed : Nat → Moving Expr
  | 0 => exhausted
  | fuel + 1 => do
    match ← current tape with
    | none => power fuel
    | some t =>
      match Grammar.sign? t.kind with
      | none => power fuel
      | some s => do
        advance tape
        enter g t
        let e ← signed fuel
        leave
        return .signed s e

def power : Nat → Moving Expr
  | 0 => exhausted
  | fuel + 1 => do
    let base ← factorial fuel
    match ← current tape with
    | none => return base
    | some t =>
      if t.kind = .caret then
        advance tape
        enter g t
        let exponent ← signed fuel
        leave
        return .binary .pow base exponent
      else return base

def factorial : Nat → Moving Expr
  | 0 => exhausted
  | fuel + 1 => do
    let e ← operand fuel
    bangs tape fuel e

def operand : Nat → Moving Expr
  | 0 => exhausted
  | fuel + 1 => do
    match ← current tape with
    | none => fail g (.unexpected none) none
    | some t =>
      match t.kind with
      | .lparen => do
        advance tape
        enter g t
        let e ← sum fuel
        leave
        closing g tape
        return e
      | .number _ => do
        advance tape
        convert t
      | .ident => do
        if (← following tape).any (·.kind = .lparen) then call fuel
        else
          advance tape
          return .reference t.text t.pos
      | _ => fail g (.unexpected (some t)) (some t)

def call : Nat → Moving Expr
  | 0 => exhausted
  | fuel + 1 => do
    let name ← take tape .ident
    let opening ← take tape .lparen
    let found ← current tape
    if found.any (·.kind = .rparen) then fail g (.noArguments name.text) found
    enter g opening
    let first ← sum fuel
    let args ← arguments fuel name [first]
    leave
    closing g tape
    return .call name.text name.pos args

def arguments : Nat → Token → List Expr → Moving (List Expr)
  | 0, _, _ => exhausted
  | fuel + 1, name, args => do
    let found ← current tape
    if found.any (·.kind = .comma) then
      if args.length = 2 then fail g (.tooManyArguments name.text) found
      advance tape
      let e ← sum fuel
      arguments fuel name (args ++ [e])
    else return args

end

/-- The tree of the whole list. -/
def expression (fuel : Nat) : Moving Expr := do
  match ← current tape with
  | none => throw (.failure ⟨.empty, 0⟩)
  | some _ =>
    let e ← sum g tape fuel
    match ← current tape with
    | none => return e
    | some t => fail g (.leftOver t) (some t)

/-- The list of the tokens and the mark of its end. -/
def tapeOf (ts : List Token) : List (Option Token) := ts.map some ++ [none]

/-- What a cursor at the start of the tokens comes to: nothing, if there is no room for that. -/
def parse (fuel : Nat) (g : Grammar) (ts : List Token) : Option (Except Stop Expr) :=
  ((expression g (tapeOf ts) fuel).run' ⟨0, 0⟩).run

/-- Room for ten rules at each token. -/
def room (ts : List Token) : Nat := 10 * ts.length + 9

end Cursor

end Abacus
