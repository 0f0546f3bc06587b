import Abacus.Decimal.Shortest

/-!
Expressions as trees, and their text. The text puts every operation of two operands between
parentheses, and a product without a sign gets its sign. It is the text with room for everything:
printing has a call open for every node that it is inside of, each exclamation mark of a run
included, and how many calls there is room for is left aside here.
-/

namespace Abacus

inductive Sign
  | plus
  | minus
  deriving DecidableEq, Repr

/-- `implied` is the product of neighbours with no sign between them. -/
inductive Operator
  | add
  | sub
  | mul
  | implied
  | div
  | mod
  | pow
  deriving DecidableEq, Repr

/-- A name keeps its place in the source. -/
inductive Expr
  | number (value : Double)
  | reference (name : String) (pos : Nat)
  | binary (op : Operator) (left right : Expr)
  | signed (sign : Sign) (operand : Expr)
  | factorial (operand : Expr)
  | call (name : String) (pos : Nat) (args : List Expr)

def Sign.text : Sign → String
  | .plus => "+"
  | .minus => "-"

def Operator.text : Operator → String
  | .add => "+"
  | .sub => "-"
  | .mul => "*"
  | .implied => "*"
  | .div => "/"
  | .mod => "%"
  | .pow => "^"

namespace Expr

mutual

def text : Expr → String
  | .number v => v.text
  | .reference name _ => name
  | .binary op l r => "(" ++ text l ++ " " ++ op.text ++ " " ++ text r ++ ")"
  | .signed s e => s.text ++ text e
  | .factorial e => text e ++ "!"
  | .call name _ args => name ++ "(" ++ ", ".intercalate (texts args) ++ ")"

def texts : List Expr → List String
  | [] => []
  | e :: rest => text e :: texts rest

end

end Expr

end Abacus
