/-!
Splitting a line into words as a shell does: blanks separate, quotes of either kind join, and a
backslash takes the next character as it is. Between double quotes the backslash does so only
before a double quote or another backslash.
-/

namespace Abacus.Text

namespace ShellWords

inductive Fault
  | noClosingQuotation
  | noEscapedCharacter
  deriving DecidableEq, Repr

def Fault.message : Fault → String
  | .noClosingQuotation => "No closing quotation"
  | .noEscapedCharacter => "No escaped character"

def isSeparator (c : Char) : Bool := c == ' ' || c == '\t' || c == '\r' || c == '\n'

def isQuote (c : Char) : Bool := c == '\x27' || c == '\x22'

def isEscape (c : Char) : Bool := c == '\x5c'

/-- Where the scan stands; an escape keeps the quote that it stands in. -/
inductive Place
  | outside
  | word
  | quoted (quote : Char)
  | escaped (quote : Option Char)

/-- `word` is the word so far, last character first. -/
def scan (place : Place) (word : List Char) : List Char → Except Fault (List (List Char))
  | [] =>
    match place with
    | .outside => .ok []
    | .word => .ok [word.reverse]
    | .quoted _ => .error .noClosingQuotation
    | .escaped _ => .error .noEscapedCharacter
  | c :: rest =>
    match place with
    | .outside =>
      if isSeparator c then scan .outside [] rest
      else if isEscape c then scan (.escaped none) [] rest
      else if isQuote c then scan (.quoted c) [] rest
      else scan .word [c] rest
    | .word =>
      if isSeparator c then (scan .outside [] rest).map (word.reverse :: ·)
      else if isEscape c then scan (.escaped none) word rest
      else if isQuote c then scan (.quoted c) word rest
      else scan .word (c :: word) rest
    | .quoted q =>
      if c = q then scan .word word rest
      else if isEscape c && q == '\x22' then scan (.escaped (some q)) word rest
      else scan (.quoted q) (c :: word) rest
    | .escaped none => scan .word (c :: word) rest
    | .escaped (some q) =>
      if isEscape c || c == q then scan (.quoted q) (c :: word) rest
      else scan (.quoted q) (c :: '\x5c' :: word) rest

end ShellWords

def shellWords (s : String) : Except ShellWords.Fault (List String) :=
  (ShellWords.scan .outside [] s.toList).map (·.map String.ofList)

end Abacus.Text
