import Abacus.Expr
import Abacus.Expr.Failure

/-!
The tree of a list of tokens. Sums bind least, then products, prefix signs, powers and factorials;
sums and products associate to the left, powers to the right, and an exponent may carry a sign. With
`implied`, an operand right after another is multiplied with it. A word before a parenthesis is
always a call. Each rule reads a first part of the tokens and leaves fewer than it was given.
-/

namespace Abacus

/-- What a grammar rule depends on: whether neighbours are multiplied, and where the source ends. -/
structure Grammar where
  implied : Bool
  stop : Nat

namespace Grammar

/-- A tree read from the first of the tokens `ts`, and those that follow. -/
structure Reading (ts : List Token) where
  tree : Expr
  rest : List Token
  shorter : rest.length < ts.length

abbrev Result (ts : List Token) := Except Failure (Reading ts)

variable (g : Grammar)

/-- The place of the first token, or the end. -/
def placeOf : List Token → Nat
  | [] => g.stop
  | t :: _ => t.pos

def sumOperator? : Token.Kind → Option Operator
  | .plus => some .add
  | .minus => some .sub
  | _ => none

def productOperator? : Token.Kind → Option Operator
  | .star => some .mul
  | .slash => some .div
  | .percent => some .mod
  | _ => none

def sign? : Token.Kind → Option Sign
  | .plus => some .plus
  | .minus => some .minus
  | _ => none

/-- A token that can only begin an operand. -/
def startsOperand : Token.Kind → Bool
  | .number _ => true
  | .ident => true
  | .lparen => true
  | _ => false

/-- One level deeper, unless there are too many levels at `t`. -/
def enter (depth : Nat) (t : Token) : Except Failure Nat :=
  if depth < maxDepth then .ok (depth + 1) else .error ⟨.tooDeep, t.pos⟩

/-- The parenthesis that ends a group or an argument list. -/
def closing {ts : List Token} (p : Reading ts) : Result ts :=
  match p with
  | ⟨e, t :: after, h⟩ =>
    if t.kind = .rparen then .ok ⟨e, after, by simp at h; omega⟩
    else .error ⟨.expectedClosing (some t), t.pos⟩
  | ⟨_, [], _⟩ => .error ⟨.expectedClosing none, g.stop⟩

/-- The exclamation marks after an operand. -/
def bangs (ts : List Token) (e : Expr) (rest : List Token) (h : rest.length < ts.length) :
    Reading ts :=
  match rest with
  | t :: after =>
    if t.kind = .bang then bangs ts (.factorial e) after (by simp at h; omega)
    else ⟨e, t :: after, h⟩
  | [] => ⟨e, [], h⟩

mutual

/-- Terms with plus and minus signs between them. -/
def sum (depth : Nat) (ts : List Token) : Result ts :=
  match product depth ts with
  | .error f => .error f
  | .ok p => sumFrom depth ts p
termination_by 10 * ts.length + 8
decreasing_by
  · omega
  · have := p.shorter; omega

def sumFrom (depth : Nat) (ts : List Token) (p : Reading ts) : Result ts :=
  match p with
  | ⟨left, [], h⟩ => .ok ⟨left, [], h⟩
  | ⟨left, t :: after, h⟩ =>
    match sumOperator? t.kind with
    | none => .ok ⟨left, t :: after, h⟩
    | some op =>
      match product depth after with
      | .error f => .error f
      | .ok q =>
        have : q.rest.length < ts.length := by have := q.shorter; simp at h; omega
        sumFrom depth ts ⟨.binary op left q.tree, q.rest, this⟩
termination_by 10 * p.rest.length + 9
decreasing_by
  · simp; omega
  · have := q.shorter; simp; omega

/-- Factors with times, divided and modulo signs between them, or none. -/
def product (depth : Nat) (ts : List Token) : Result ts :=
  match signed depth ts with
  | .error f => .error f
  | .ok p => productFrom depth ts p
termination_by 10 * ts.length + 6
decreasing_by
  · omega
  · have := p.shorter; omega

def productFrom (depth : Nat) (ts : List Token) (p : Reading ts) : Result ts :=
  match p with
  | ⟨left, [], h⟩ => .ok ⟨left, [], h⟩
  | ⟨left, t :: after, h⟩ =>
    match productOperator? t.kind with
    | some op =>
      match signed depth after with
      | .error f => .error f
      | .ok q =>
        have : q.rest.length < ts.length := by have := q.shorter; simp at h; omega
        productFrom depth ts ⟨.binary op left q.tree, q.rest, this⟩
    | none =>
      if startsOperand t.kind then
        if g.implied then
          match power depth (t :: after) with
          | .error f => .error f
          | .ok q =>
            productFrom depth ts
              ⟨.binary .implied left q.tree, q.rest, Nat.lt_trans q.shorter h⟩
        else .error ⟨.missingOperator t, t.pos⟩
      else .ok ⟨left, t :: after, h⟩
termination_by 10 * p.rest.length + 7
decreasing_by
  · simp; omega
  · have := q.shorter; simp; omega
  · simp
  · have := q.shorter; simp at this ⊢; omega

/-- A power under any number of prefix signs. -/
def signed (depth : Nat) (ts : List Token) : Result ts :=
  match ts with
  | [] => power depth []
  | t :: after =>
    match sign? t.kind with
    | none => power depth (t :: after)
    | some s =>
      match enter depth t with
      | .error f => .error f
      | .ok inner =>
        match signed inner after with
        | .error f => .error f
        | .ok q => .ok ⟨.signed s q.tree, q.rest, by have := q.shorter; simp; omega⟩
termination_by 10 * ts.length + 5

/-- An operand with its exponent, if it has one. -/
def power (depth : Nat) (ts : List Token) : Result ts :=
  match factorial depth ts with
  | .error f => .error f
  | .ok ⟨base, [], h⟩ => .ok ⟨base, [], h⟩
  | .ok ⟨base, t :: after, h⟩ =>
    if t.kind = .caret then
      match enter depth t with
      | .error f => .error f
      | .ok inner =>
        match signed inner after with
        | .error f => .error f
        | .ok q => .ok ⟨.binary .pow base q.tree, q.rest, by have := q.shorter; simp at h; omega⟩
    else .ok ⟨base, t :: after, h⟩
termination_by 10 * ts.length + 4
decreasing_by
  · omega
  · simp at h; omega

/-- An operand with its exclamation marks. -/
def factorial (depth : Nat) (ts : List Token) : Result ts :=
  match operand depth ts with
  | .error f => .error f
  | .ok p => .ok (bangs ts p.tree p.rest p.shorter)
termination_by 10 * ts.length + 3

/-- A number, a name, a call, or an expression between parentheses. -/
def operand (depth : Nat) (ts : List Token) : Result ts :=
  match ts with
  | [] => .error ⟨.unexpected none, g.stop⟩
  | t :: after =>
    match t.kind with
    | .lparen =>
      match enter depth t with
      | .error f => .error f
      | .ok inner =>
        match sum inner after with
        | .error f => .error f
        | .ok p => g.closing ⟨p.tree, p.rest, by have := p.shorter; simp; omega⟩
    | .number v => .ok ⟨.number v, after, by simp⟩
    | .ident =>
      match after with
      | [] => .ok ⟨.reference t.text t.pos, [], by simp⟩
      | o :: inside =>
        if o.kind = .lparen then
          match call depth t o inside with
          | .error f => .error f
          | .ok p => .ok ⟨p.tree, p.rest, by have := p.shorter; simp; omega⟩
        else .ok ⟨.reference t.text t.pos, o :: inside, by simp⟩
    | _ => .error ⟨.unexpected (some t), t.pos⟩
termination_by 10 * ts.length + 2

/-- The arguments of `name` from after the opening parenthesis, one or two, and the closing one. -/
def call (depth : Nat) (name opening : Token) (ts : List Token) : Result ts :=
  if ts.head?.any (·.kind = .rparen) then .error ⟨.noArguments name.text, g.placeOf ts⟩
  else
    match enter depth opening with
    | .error f => .error f
    | .ok inner =>
      match sum inner ts with
      | .error f => .error f
      | .ok ⟨first, [], h⟩ => g.closing ⟨.call name.text name.pos [first], [], h⟩
      | .ok ⟨first, t :: more, h⟩ =>
        if t.kind = .comma then
          match sum inner more with
          | .error f => .error f
          | .ok ⟨second, rest, h'⟩ =>
            if rest.head?.any (·.kind = .comma) then
              .error ⟨.tooManyArguments name.text, g.placeOf rest⟩
            else
              g.closing ⟨.call name.text name.pos [first, second], rest, by simp at h; omega⟩
        else g.closing ⟨.call name.text name.pos [first], t :: more, h⟩
termination_by 10 * ts.length + 9
decreasing_by
  · omega
  · simp at h; omega

end

/-- The tree of all the tokens. -/
def expression (ts : List Token) : Except Failure Expr :=
  if ts.isEmpty then .error ⟨.empty, 0⟩
  else
    match g.sum 0 ts with
    | .error f => .error f
    | .ok ⟨e, [], _⟩ => .ok e
    | .ok ⟨_, t :: _, _⟩ => .error ⟨.leftOver t, t.pos⟩

end Grammar

/-- The tree of a text. -/
def Expr.parse (implied : Bool) (source : String) : Except Failure Expr :=
  match Token.scan source with
  | .error e => .error ⟨.scan e.fault, e.pos⟩
  | .ok ts => Grammar.expression ⟨implied, source.length⟩ ts

end Abacus
