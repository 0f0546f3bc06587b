import Abacus.Text.Printable

/-!
Text between quotes, as messages show it. Single quotes, or double ones around a text that holds
single quotes only; what cannot be printed is written as an escape, so the result is one line.
-/

namespace Abacus.Text

namespace Quoted

def hexDigit (n : Nat) : Char := if n < 10 then Char.ofNat (48 + n) else Char.ofNat (87 + n)

/-- The last `width` hexadecimal digits of `n`. -/
def hex : Nat → Nat → List Char
  | 0, _ => []
  | width + 1, n => hex width (n / 16) ++ [hexDigit (n % 16)]

def single : Char := '\x27'
def double : Char := '\x22'
def backslash : Char := '\x5c'

def mark (cs : List Char) : Char :=
  if cs.contains single && !cs.contains double then double else single

def code (c : Char) : List Char :=
  if c.toNat < 0x100 then backslash :: 'x' :: hex 2 c.toNat
  else if c.toNat < 0x10000 then backslash :: 'u' :: hex 4 c.toNat
  else backslash :: 'U' :: hex 8 c.toNat

def encodeChar (quote c : Char) : List Char :=
  if c = quote ∨ c = backslash then [backslash, c]
  else if c = '\n' then [backslash, 'n']
  else if c = '\r' then [backslash, 'r']
  else if c = '\t' then [backslash, 't']
  else if isPrintable c then [c]
  else code c

def encode (cs : List Char) : List Char :=
  mark cs :: (cs.flatMap (encodeChar (mark cs)) ++ [mark cs])

end Quoted

def quoted (s : String) : String := String.ofList (Quoted.encode s.toList)

end Abacus.Text
