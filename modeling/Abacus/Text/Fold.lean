import Abacus.Text.Blank
import Abacus.Text.Cluster

/-!
Fitting text to a screen of a given width. Lines break between words; a word too long for a line is
cut where the line is full, and blanks that would stand beyond the edge are dropped.
-/

namespace Abacus.Text

/-- Tabs as spaces up to the next multiple of eight columns. `part` is what has been read since the
last tab, backwards, and `column` where it begins. A tab takes one space at least, which is measured
with the text before it. -/
def expandTabs (column : Nat) (part : List Char) : List Char → List Char
  | [] => part.reverse
  | c :: rest =>
    if c = '\t' then
      let piece := part.reverse ++ [' ']
      let edge := column + width piece
      let gap := (8 - edge % 8) % 8
      piece ++ (List.replicate gap ' ' ++ expandTabs (edge + gap) [] rest)
    else expandTabs column (c :: part) rest

/-- Words, each with the blanks after it, and the first one with those before it too. -/
def wordsFrom : Nat → List Char → List (List Char)
  | 0, _ => []
  | fuel + 1, cs =>
    let before := cs.takeWhile isBlank
    let cs := cs.dropWhile isBlank
    if cs.isEmpty then []
    else
      let word := cs.takeWhile (!isBlank ·)
      let rest := cs.dropWhile (!isBlank ·)
      (before ++ word ++ rest.takeWhile isBlank) :: wordsFrom fuel (rest.dropWhile isBlank)

/-- Lines of at most `limit` columns. `line` is the one in hand, and `used` its width. -/
def chopFrom (limit : Nat) (line : List Char) (used : Nat) : List Cluster → List (List Char)
  | [] => [line]
  | g :: rest =>
    if limit < used + g.cells then line :: chopFrom limit g.chars g.cells rest
    else chopFrom limit (line ++ g.chars) (used + g.cells) rest

def chop (limit : Nat) (cs : List Char) : List (List Char) :=
  chopFrom limit [] 0 (Cluster.ofList cs)

def dropBlanksAtEnd (cs : List Char) : List Char := (cs.reverse.dropWhile isBlank).reverse

/-- Lines filled with words. `line` is the one in hand, and `used` its width. -/
def fill (limit : Nat) (line : List Char) (used : Nat) : List (List Char) → List (List Char)
  | [] => [line]
  | word :: rest =>
    let size := width (dropBlanksAtEnd word)
    if used + size ≤ limit then fill limit (line ++ word) (used + width word) rest
    else if limit < size then
      let pieces := chop limit word
      let last := pieces.getLastD []
      (if line.isEmpty then [] else [line]) ++ pieces.dropLast ++ fill limit last (width last) rest
    else line :: fill limit word (width word) rest

/-- The first `limit` columns, with a space where a cluster of two columns does not fit. -/
def crop (limit : Nat) : List Cluster → List Char
  | [] => []
  | g :: rest =>
    if g.cells ≤ limit then g.chars ++ crop (limit - g.cells) rest else List.replicate limit ' '

/-- The line cut to the limit: blanks at the end first, then whatever is left over. -/
def cut (limit : Nat) (line : List Char) : List Char :=
  let excess := line.length - limit
  let blanks := line.length - (dropBlanksAtEnd line).length
  let kept := line.take (line.length - min excess blanks)
  if width kept ≤ limit then kept else crop limit (Cluster.ofList kept)

/-- One line as it appears on the screen. -/
def foldLine (limit : Nat) (line : List Char) : List (List Char) :=
  let line := expandTabs 0 [] line
  match wordsFrom (line.length + 1) line with
  | [] => [cut limit line]
  | words => (fill limit [] 0 words).map (cut limit)

/-- A text as it appears on the screen. -/
def foldText (limit : Nat) (s : String) : String :=
  "\n".intercalate
    ((s.splitOn "\n").flatMap fun line => (foldLine limit line.toList).map String.ofList)

end Abacus.Text
