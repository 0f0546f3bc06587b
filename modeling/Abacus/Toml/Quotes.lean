import Abacus.Toml

/-!
Strings and keys of TOML: basic strings with escapes, literal strings without, each on one line or
on several, and bare words.
-/

namespace Abacus.Toml

def hexValue? (c : Char) : Option Nat :=
  if '0' ≤ c ∧ c ≤ '9' then some (c.toNat - 48)
  else if 'a' ≤ c ∧ c ≤ 'f' then some (c.toNat - 87)
  else if 'A' ≤ c ∧ c ≤ 'F' then some (c.toNat - 55)
  else none

def hexNumber? (cs : List Char) : Option Nat :=
  cs.foldl (fun n c => do return 16 * (← n) + (← hexValue? c)) (some 0)

/-- The character with the code written in the first `width` hexadecimal digits. -/
def codePoint (width : Nat) (cs : List Char) : Except Fault (Char × List Char) :=
  let digits := cs.take width
  if digits.length < width then .error .invalid
  else
    match hexNumber? digits with
    | none => .error .invalid
    | some n =>
      if n < 0xD800 ∨ (0xDFFF < n ∧ n < 0x110000) then .ok (Char.ofNat n, cs.drop width)
      else .error .invalid

/-- The character that the escape after a backslash means. -/
def escape : List Char → Except Fault (Char × List Char)
  | 'b' :: rest => .ok ('\x08', rest)
  | 't' :: rest => .ok ('\t', rest)
  | 'n' :: rest => .ok ('\n', rest)
  | 'f' :: rest => .ok ('\x0c', rest)
  | 'r' :: rest => .ok ('\r', rest)
  | '\x22' :: rest => .ok ('\x22', rest)
  | '\x5c' :: rest => .ok ('\x5c', rest)
  | 'u' :: rest => codePoint 4 rest
  | 'U' :: rest => codePoint 8 rest
  | _ => .error .invalid

/-- The text after the blanks and line ends that a backslash at the end of a line removes. -/
def foldedLine (cs : List Char) : Except Fault (List Char) :=
  match skipSpaces cs with
  | [] => .ok []
  | '\n' :: rest => .ok (rest.dropWhile fun c => isSpace c || c == '\n')
  | _ => .error .invalid

/-- The rest of a basic string on one line. The first argument bounds the characters to read. -/
def basic : Nat → List Char → Except Fault (List Char × List Char)
  | 0, _ => .error .invalid
  | _, [] => .error .invalid
  | fuel + 1, c :: rest =>
    if c = '\x22' then .ok ([], rest)
    else if c = '\x5c' then do
      let (d, tail) ← escape rest
      let (ds, after) ← basic fuel tail
      return (d :: ds, after)
    else if isControl c then .error .invalid
    else do
      let (ds, after) ← basic fuel rest
      return (c :: ds, after)

/-- Up to two quotes more belong to a string on several lines. -/
def extraQuotes (quote : Char) : List Char → List Char × List Char
  | a :: b :: rest =>
    if a = quote then (if b = quote then ([a, b], rest) else ([a], b :: rest))
    else ([], a :: b :: rest)
  | [a] => if a = quote then ([a], []) else ([], [a])
  | [] => ([], [])

def threeQuotes (quote : Char) : List Char → Option (List Char)
  | a :: b :: c :: rest => if a = quote ∧ b = quote ∧ c = quote then some rest else none
  | _ => none

/-- The rest of a basic string on several lines. -/
def basicLines : Nat → List Char → Except Fault (List Char × List Char)
  | 0, _ => .error .invalid
  | _, [] => .error .invalid
  | fuel + 1, c :: rest =>
    match threeQuotes '\x22' (c :: rest) with
    | some after => .ok (extraQuotes '\x22' after)
    | none =>
      if c = '\x5c' then
        if rest.head?.any fun d => isSpace d || d == '\n' then do
          basicLines fuel (← foldedLine rest)
        else do
          let (d, tail) ← escape rest
          let (ds, after) ← basicLines fuel tail
          return (d :: ds, after)
      else if isControl c && c != '\n' then .error .invalid
      else do
        let (ds, after) ← basicLines fuel rest
        return (c :: ds, after)

/-- The rest of a literal string on one line. -/
def literal : List Char → Except Fault (List Char × List Char)
  | [] => .error .invalid
  | c :: rest =>
    if c = '\x27' then .ok ([], rest)
    else if isControl c then .error .invalid
    else (literal rest).map fun (cs, after) => (c :: cs, after)

/-- The rest of a literal string on several lines. -/
def literalLines : List Char → Except Fault (List Char × List Char)
  | [] => .error .invalid
  | c :: rest =>
    match threeQuotes '\x27' (c :: rest) with
    | some after => .ok (extraQuotes '\x27' after)
    | none =>
      if isControl c && c != '\n' then .error .invalid
      else (literalLines rest).map fun (cs, after) => (c :: cs, after)

/-- A line end right after the opening quotes does not count. -/
def afterOpening : List Char → List Char
  | '\n' :: rest => rest
  | cs => cs

def toText (r : Except Fault (List Char × List Char)) : Except Fault (String × List Char) :=
  r.map fun (cs, rest) => (String.ofList cs, rest)

/-- A string on one line. -/
def lineString? : List Char → Option (Except Fault (String × List Char))
  | '\x22' :: rest => some (toText (basic (rest.length + 1) rest))
  | '\x27' :: rest => some (toText (literal rest))
  | _ => none

/-- A string of any kind. -/
def string? (cs : List Char) : Option (Except Fault (String × List Char)) :=
  match threeQuotes '\x22' cs, threeQuotes '\x27' cs with
  | some rest, _ => some (toText (basicLines (rest.length + 1) (afterOpening rest)))
  | none, some rest => some (toText (literalLines (afterOpening rest)))
  | none, none => lineString? cs

def isBare (c : Char) : Bool := c.isAlphanum || c == '-' || c == '_'

abbrev Key := List String

/-- One part of a key. -/
def keyPart (cs : List Char) : Except Fault (String × List Char) :=
  match lineString? cs with
  | some r => r
  | none =>
    if cs.head?.any isBare then .ok (String.ofList (cs.takeWhile isBare), cs.dropWhile isBare)
    else .error .invalid

/-- A key of several parts with points between them, and the blanks after it. -/
def key : Nat → List Char → Except Fault (Key × List Char)
  | 0, _ => .error .invalid
  | fuel + 1, cs => do
    let (part, rest) ← keyPart cs
    match skipSpaces rest with
    | '.' :: more =>
      let (parts, after) ← key fuel (skipSpaces more)
      return (part :: parts, after)
    | after => return ([part], after)

end Abacus.Toml
