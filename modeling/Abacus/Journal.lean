import Abacus.Display

/-!
What a calculation writes to the log: failures, missing names and values that are no numbers.
-/

namespace Abacus

inductive Journal.Level
  | debug
  | info
  | warning
  | error
  deriving DecidableEq, Repr

structure Journal.Entry where
  level : Journal.Level
  logger : String
  message : String
  deriving DecidableEq, Repr

namespace Journal

def Level.name : Level → String
  | .debug => "DEBUG"
  | .info => "INFO"
  | .warning => "WARNING"
  | .error => "ERROR"

def Level.number : Level → Nat
  | .debug => 10
  | .info => 20
  | .warning => 30
  | .error => 40

def reading : String := "livecalc.core.expression_lang.parser"

def evaluation : String := "livecalc.core.expression_lang.evaluator"

def ofOutcome (source : String) : Outcome → List Entry
  | .failure f =>
    [⟨.debug, reading,
      "Parse failed for " ++ Text.quoted source ++ " at " ++ toString f.pos ++ ": " ++ f.message⟩]
  | .unresolved missing =>
    [⟨.debug, evaluation,
      "Unresolved symbols in " ++ Text.quoted source ++ ": " ++ ", ".intercalate missing.names⟩]
  | .value v =>
    if v.isNaN then
      [⟨.debug, evaluation, "Expression " ++ Text.quoted source ++ " evaluated to nan"⟩]
    else []

end Journal

end Abacus
