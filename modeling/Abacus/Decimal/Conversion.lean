import Abacus.Decimal.NumberText
import Abacus.Text.Blank

/-!
Text that is converted to a number: what means a number by itself, written with the digits of any
script, with low lines between digits, and with blanks around it.
-/

namespace Abacus

namespace Conversion

/-- The digit of the same value among `0` to `9`. -/
def asciiDigit (c : Char) : Char :=
  match Text.digitValue? c with
  | some d => Char.ofNat (48 + d)
  | none => c

/-- Drops the low lines that stand between two digits. -/
def joinDigits (afterDigit : Bool) : List Char → List Char
  | [] => []
  | c :: rest =>
    if c == '_' && afterDigit && rest.head?.any Char.isDigit then joinDigits false rest
    else c :: joinDigits c.isDigit rest

/-- The text in plain ASCII, without blanks around it. -/
def plain (cs : List Char) : List Char := joinDigits false ((Text.trim cs).map asciiDigit)

end Conversion

def convertNumber? (s : String) : Option Double := NumberText.read? (Conversion.plain s.toList)

end Abacus
