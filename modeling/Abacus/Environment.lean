import Abacus.Journal
import Abacus.Text.Blank

/-!
Settings from environment variables. Case and surrounding blanks do not count; a value that means
nothing is passed over with a warning.
-/

namespace Abacus

abbrev Environment := List (String × String)

namespace Environment

def logger : String := "livecalc.core.environment"

def levelVariable : String := "LIVECALC_LOG_LEVEL"

def impliedVariable : String := "LIVECALC_IMPLIED_MULTIPLICATION"

/-- The value of a variable in lower case and trimmed; one that is not set is empty. -/
def setting (env : Environment) (name : String) : String :=
  Text.trimText (Text.lower ((env.lookup name).getD ""))

def warn (message : String) : Journal.Entry := ⟨.warning, logger, message⟩

def levelOf? : String → Option Journal.Level
  | "" => some .warning
  | "debug" => some .debug
  | "info" => some .info
  | "warning" => some .warning
  | "warn" => some .warning
  | "error" => some .error
  | _ => none

def level (env : Environment) : Journal.Level × List Journal.Entry :=
  let value := env.setting levelVariable
  match levelOf? value with
  | some l => (l, [])
  | none =>
    (.warning,
      [warn ("Unknown " ++ levelVariable ++ " value '" ++ value ++
        "'. Valid values: debug, info, warning, error. Defaulting to warning.")])

def trueWords : List String := ["1", "true", "yes", "on"]

def falseWords : List String := ["0", "false", "no", "off"]

/-- Whether neighbours are multiplied, if the environment says so. -/
def implied (env : Environment) : Option Bool × List Journal.Entry :=
  let value := env.setting impliedVariable
  if trueWords.contains value then (some true, [])
  else if falseWords.contains value then (some false, [])
  else if value = "" then (none, [])
  else
    (none,
      [warn ("Ignoring " ++ impliedVariable ++ " value '" ++ value ++
        "'. Use on/off, true/false, yes/no or 1/0.")])

end Environment

end Abacus
