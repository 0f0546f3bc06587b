import Abacus.Token

/-!
Why a text is no expression, and where. The place is that of the first token that cannot stand where
it stands, or the end of the text.
-/

namespace Abacus

inductive Failure.Cause
  | scan (fault : Token.Fault)
  | empty
  | tooDeep
  | missingOperator (found : Token)
  | expectedClosing (found : Option Token)
  | unexpected (found : Option Token)
  | leftOver (found : Token)
  | noArguments (name : String)
  | tooManyArguments (name : String)
  deriving DecidableEq

/-- How many parentheses, argument lists, prefix signs and exponents may stand inside each other. -/
def maxDepth : Nat := 100

structure Failure where
  cause : Failure.Cause
  pos : Nat
  deriving DecidableEq

namespace Failure

def describe : Option Token → String
  | some t => t.describe
  | none => "end of input"

def Cause.message : Cause → String
  | .scan fault => fault.message
  | .empty => "Empty expression"
  | .tooDeep => "Expression is nested deeper than " ++ toString maxDepth ++ " levels"
  | .missingOperator t => "Missing operator before " ++ t.describe
  | .expectedClosing t => "Expected rparen, got " ++ describe t
  | .unexpected t => "Unexpected " ++ describe t
  | .leftOver t => "Unexpected " ++ t.describe ++ " after expression"
  | .noArguments name => "Function " ++ Text.quoted name ++ " needs one or two arguments"
  | .tooManyArguments name => "Function " ++ Text.quoted name ++ " takes at most two arguments"

def message (f : Failure) : String := f.cause.message

end Failure

end Abacus
