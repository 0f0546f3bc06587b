import Abacus.Decimal.Numeral
import Abacus.Text.Digit

/-!
Text that means a number by itself, such as the value of a variable: an ASCII numeral, `inf`,
`infinity` or `nan` in any case, with a sign before it or not, and nothing around it.
-/

namespace Abacus

namespace NumberText

def unsigned? (negative : Bool) (cs : List Char) : Option Double :=
  let word := cs.map Char.toLower
  if word = "inf".toList ∨ word = "infinity".toList then some (.inf negative)
  else if word = "nan".toList then some .nan
  else (Numeral.read? Text.asciiDigitValue? cs).map (·.toDouble negative)

def read? : List Char → Option Double
  | '+' :: rest => unsigned? false rest
  | '-' :: rest => unsigned? true rest
  | cs => unsigned? false cs

end NumberText

def readNumber? (s : String) : Option Double := NumberText.read? s.toList

end Abacus
