import Abacus.Text.Ranges

/-!
White space: the Unicode spaces and separators, with the control characters that separate lines,
fields and records.
-/

namespace Abacus.Text

def blanks : Ranges :=
  [(0x9, 0xd), (0x1c, 0x20), (0x85, 0x85), (0xa0, 0xa0), (0x1680, 0x1680), (0x2000, 0x200a),
   (0x2028, 0x2029), (0x202f, 0x202f), (0x205f, 0x205f), (0x3000, 0x3000)]

def isBlank (c : Char) : Bool := blanks.has c

/-- The text without the white space at its two ends. -/
def trim (cs : List Char) : List Char :=
  ((cs.dropWhile isBlank).reverse.dropWhile isBlank).reverse

def trimText (s : String) : String := String.ofList (trim s.toList)

theorem isBlank_space : isBlank ' ' = true := by decide

end Abacus.Text
