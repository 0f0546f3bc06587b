/-!
Lines of a text. A carriage return, a line feed, and the two together each end a line.
-/

namespace Abacus.Text

/-- The text with a line feed at the end of every line. `afterReturn` says that the character before
was a carriage return. -/
def unifyLines (afterReturn : Bool) : List Char → List Char
  | [] => []
  | c :: rest =>
    if c = '\r' then '\n' :: unifyLines true rest
    else if c = '\n' ∧ afterReturn then unifyLines false rest
    else c :: unifyLines false rest

/-- The lines, each without its end; `line` is what has been read of the first one, backwards. What
follows the last line feed is a line only if it is not empty. -/
def splitLines (line : List Char) : List Char → List (List Char)
  | [] => if line.isEmpty then [] else [line.reverse]
  | c :: rest =>
    if c = '\n' then line.reverse :: splitLines [] rest else splitLines (c :: line) rest

def unified (s : String) : String := String.ofList (unifyLines false s.toList)

def lines (s : String) : List String :=
  (splitLines [] (unifyLines false s.toList)).map String.ofList

end Abacus.Text
