import Mathlib.Data.List.Basic
import Abacus.Expr.OfTokens

/-!
Derivations in the grammar of expressions:

    sum        product (("+" | "-") product)*
    product    signed (("*" | "/" | "%") signed | power)*
    signed     ("-" | "+") signed | power
    power      factorial ("^" signed)?
    factorial  operand "!"*
    operand    NUMBER | NAME "(" sum ("," sum)? ")" | NAME | "(" sum ")"

where a product goes on with a power that has no sign before it only if neighbours are multiplied.
A derivation has the tokens it derives, a level of nesting for each of them, and a tree. The
grammar knows nothing of the order in which a reader tries its rules.
-/

namespace Abacus.Grammar

/-- The rules, and what follows the first part of a chain as rules of their own. -/
inductive Rule
  | sum
  | sumTail
  | product
  | productTail
  | signed
  | power
  | factorial
  | operand

inductive Derivation (implied : Bool) : Rule → Type
  | sum (first : Derivation implied .product) (tail : Derivation implied .sumTail) :
      Derivation implied .sum
  | sumEnd : Derivation implied .sumTail
  | sumLink (t : Token) (op : Operator) (h : sumOperator? t.kind = some op)
      (term : Derivation implied .product) (tail : Derivation implied .sumTail) :
      Derivation implied .sumTail
  | product (first : Derivation implied .signed) (tail : Derivation implied .productTail) :
      Derivation implied .product
  | productEnd : Derivation implied .productTail
  | productLink (t : Token) (op : Operator) (h : productOperator? t.kind = some op)
      (factor : Derivation implied .signed) (tail : Derivation implied .productTail) :
      Derivation implied .productTail
  | neighbour (h : implied = true) (factor : Derivation implied .power)
      (tail : Derivation implied .productTail) : Derivation implied .productTail
  | sign (t : Token) (sign : Sign) (h : sign? t.kind = some sign)
      (e : Derivation implied .signed) : Derivation implied .signed
  | unsigned (e : Derivation implied .power) : Derivation implied .signed
  | base (e : Derivation implied .factorial) : Derivation implied .power
  | raised (base : Derivation implied .factorial) (t : Token) (h : t.kind = .caret)
      (exponent : Derivation implied .signed) : Derivation implied .power
  | factorial (e : Derivation implied .operand) (bangs : List Token)
      (h : ∀ b ∈ bangs, b.kind = .bang) : Derivation implied .factorial
  | number (t : Token) (v : Double) (h : t.kind = .number v) : Derivation implied .operand
  | name (t : Token) (h : t.kind = .ident) : Derivation implied .operand
  | group (o c : Token) (ho : o.kind = .lparen) (hc : c.kind = .rparen)
      (e : Derivation implied .sum) : Derivation implied .operand
  | call (f o c : Token) (hf : f.kind = .ident) (ho : o.kind = .lparen) (hc : c.kind = .rparen)
      (arg : Derivation implied .sum) : Derivation implied .operand
  | callTwo (f o m c : Token) (hf : f.kind = .ident) (ho : o.kind = .lparen)
      (hm : m.kind = .comma) (hc : c.kind = .rparen) (arg arg' : Derivation implied .sum) :
      Derivation implied .operand

lemma no_bangs : ∀ b ∈ ([] : List Token), b.kind = .bang := List.forall_mem_nil _

/-- A token in its place: how many groups, argument lists, signed operands and exponents it lies
inside, and whether it is a name that stands for a variable. -/
structure Leaf where
  token : Token
  level : ℕ
  alone : Bool

/-- What a rule gives: a tree, or for the rest of a chain the tree it makes with what is to its
left. -/
abbrev Rule.Yield : Rule → Type
  | .sumTail => Expr → Expr
  | .productTail => Expr → Expr
  | _ => Expr

namespace Derivation

variable {implied : Bool} {r : Rule}

@[grind =]
def tokens {r : Rule} : Derivation implied r → List Token
  | .sum first tail => first.tokens ++ tail.tokens
  | .sumEnd => []
  | .sumLink t _ _ term tail => t :: (term.tokens ++ tail.tokens)
  | .product first tail => first.tokens ++ tail.tokens
  | .productEnd => []
  | .productLink t _ _ factor tail => t :: (factor.tokens ++ tail.tokens)
  | .neighbour _ factor tail => factor.tokens ++ tail.tokens
  | .sign t _ _ e => t :: e.tokens
  | .unsigned e => e.tokens
  | .base e => e.tokens
  | .raised e t _ exponent => e.tokens ++ t :: exponent.tokens
  | .factorial e bangs _ => e.tokens ++ bangs
  | .number t _ _ => [t]
  | .name t _ => [t]
  | .group o c _ _ e => o :: (e.tokens ++ [c])
  | .call f o c _ _ _ arg => f :: o :: (arg.tokens ++ [c])
  | .callTwo f o m c _ _ _ _ arg arg' => f :: o :: (arg.tokens ++ m :: (arg'.tokens ++ [c]))

/-- The tokens in their places, in a derivation that itself lies at level `n`. -/
@[grind =]
def leaves {r : Rule} : Derivation implied r → ℕ → List Leaf
  | .sum first tail, n => first.leaves n ++ tail.leaves n
  | .sumEnd, _ => []
  | .sumLink t _ _ term tail, n => ⟨t, n, false⟩ :: (term.leaves n ++ tail.leaves n)
  | .product first tail, n => first.leaves n ++ tail.leaves n
  | .productEnd, _ => []
  | .productLink t _ _ factor tail, n => ⟨t, n, false⟩ :: (factor.leaves n ++ tail.leaves n)
  | .neighbour _ factor tail, n => factor.leaves n ++ tail.leaves n
  | .sign t _ _ e, n => ⟨t, n, false⟩ :: e.leaves (n + 1)
  | .unsigned e, n => e.leaves n
  | .base e, n => e.leaves n
  | .raised e t _ exponent, n => e.leaves n ++ ⟨t, n, false⟩ :: exponent.leaves (n + 1)
  | .factorial e bangs _, n => e.leaves n ++ bangs.map (⟨·, n, false⟩)
  | .number t _ _, n => [⟨t, n, false⟩]
  | .name t _, n => [⟨t, n, true⟩]
  | .group o c _ _ e, n => ⟨o, n, false⟩ :: (e.leaves (n + 1) ++ [⟨c, n, false⟩])
  | .call f o c _ _ _ arg, n =>
    ⟨f, n, false⟩ :: ⟨o, n, false⟩ :: (arg.leaves (n + 1) ++ [⟨c, n, false⟩])
  | .callTwo f o m c _ _ _ _ arg arg', n =>
    ⟨f, n, false⟩ :: ⟨o, n, false⟩ :: (arg.leaves (n + 1) ++
      ⟨m, n + 1, false⟩ :: (arg'.leaves (n + 1) ++ [⟨c, n, false⟩]))

/-- Chains associate to the left. -/
@[grind =]
def tree {r : Rule} : Derivation implied r → r.Yield
  | .sum first tail => tail.tree first.tree
  | .sumEnd => fun left => left
  | .sumLink _ op _ term tail => fun left => tail.tree (.binary op left term.tree)
  | .product first tail => tail.tree first.tree
  | .productEnd => fun left => left
  | .productLink _ op _ factor tail => fun left => tail.tree (.binary op left factor.tree)
  | .neighbour _ factor tail => fun left => tail.tree (.binary .implied left factor.tree)
  | .sign _ s _ e => .signed s e.tree
  | .unsigned e => e.tree
  | .base e => e.tree
  | .raised e _ _ exponent => .binary .pow e.tree exponent.tree
  | .factorial e bangs _ => bangs.foldl (fun left _ => .factorial left) e.tree
  | .number _ v _ => .number v
  | .name t _ => .reference t.text t.pos
  | .group _ _ _ _ e => e.tree
  | .call f _ _ _ _ _ arg => .call f.text f.pos [arg.tree]
  | .callTwo f _ _ _ _ _ _ _ arg arg' => .call f.text f.pos [arg.tree, arg'.tree]

/-- A name that stands for a variable has no parenthesis right after it. -/
def CallsOnly (ls : List Leaf) : Prop :=
  ls.IsChain fun a b => a.alone = true → b.token.kind ≠ .lparen

/-- The derivation of a whole source: no name before a parenthesis is anything but the name of a
call, and nothing lies deeper than a hundred levels. -/
structure Derives (d : Derivation implied .sum) (ts : List Token) : Prop where
  tokens : d.tokens = ts
  calls : CallsOnly (d.leaves 0)
  levels : ∀ l ∈ d.leaves 0, l.level ≤ 100

end Derivation

end Abacus.Grammar
