import Abacus.Text.Cells

/-!
Clusters of characters that share one place on a screen. Marks stand with the character before them,
a joiner takes in the character after it too, and a selector after a narrow symbol shows it as an
emoji of two columns.
-/

namespace Abacus.Text

def joiner : Char := '\u200d'

def selector : Char := '\ufe0f'

/-- The columns that a selector adds to the character before it. -/
def widening (base : Option Char) : Nat := if base.any emojiSymbols.has then 1 else 0

/-- The columns of what follows `base`. `joined` says that a joiner has taken in the first character,
which then takes no column of its own. -/
def widthFrom (joined : Bool) (base : Option Char) : List Char → Nat
  | [] => 0
  | c :: rest =>
    if joined then widthFrom false base rest
    else if c = joiner then widthFrom true base rest
    else if c = selector then widening base + widthFrom false none rest
    else if cells c = 0 then widthFrom false base rest
    else cells c + widthFrom false (some c) rest

/-- The columns of a text. -/
def width (cs : List Char) : Nat := widthFrom false none cs

structure Cluster where
  chars : List Char
  cells : Nat
  deriving DecidableEq, Repr

namespace Cluster

/-- The clusters of a text, the first of which has begun with `chars`, last character first, and has
`size` columns so far. -/
def listFrom (chars : List Char) (size : Nat) (joined : Bool) (base : Option Char) :
    List Char → List Cluster
  | [] => [⟨chars.reverse, size⟩]
  | c :: rest =>
    if joined then listFrom (c :: chars) size false base rest
    else if c = joiner then listFrom (c :: chars) size true base rest
    else if c = selector then listFrom (c :: chars) (size + widening base) false none rest
    else if Text.cells c = 0 then listFrom (c :: chars) size false base rest
    else ⟨chars.reverse, size⟩ :: listFrom [c] (Text.cells c) false (some c) rest

/-- The clusters of a text. A joiner or a selector at its beginning has nothing to work on. -/
def ofList : List Char → List Cluster
  | [] => []
  | c :: rest =>
    if c = joiner ∨ c = selector ∨ Text.cells c = 0 then listFrom [c] 0 false none rest
    else listFrom [c] (Text.cells c) false (some c) rest

end Cluster

end Abacus.Text
