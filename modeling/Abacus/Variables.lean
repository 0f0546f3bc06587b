import Abacus.Decimal.NumberText
import Abacus.Decimal.Shortest
import Abacus.Text.Lower

/-!
Variables and what a name means among them. Names are compared without regard to case, and the first
variable of a name is the one meant: if its text is no number, the name means nothing.
-/

namespace Abacus

/-- The value is kept as text, which need not be a number. -/
structure Variable where
  name : String
  value : String
  deriving DecidableEq, Repr

/-- What a caller gives as a name or a value. All but text is kept as its usual text. -/
inductive Given
  | text (s : String)
  | whole (i : Int)
  | real (x : Double)
  | truth (b : Bool)
  | nothing

def Given.toText : Given → String
  | .text s => s
  | .whole i => toString i
  | .real x => x.text
  | .truth b => if b then "True" else "False"
  | .nothing => "None"

namespace Variable

def ofPair (name value : Given) : Variable := ⟨name.toText, value.toText⟩

def defaultName : String := "unknown"

def defaultValue : String := "0"

def answersTo (v : Variable) (name : String) : Bool := Text.lower v.name == Text.lower name

def number? (v : Variable) : Option Double := readNumber? v.value

end Variable

/-- The variables of one moment, in order. -/
structure Snapshot where
  toList : List Variable
  deriving DecidableEq, Repr

namespace Snapshot

def find? (s : Snapshot) (name : String) : Option Variable :=
  s.toList.find? (·.answersTo name)

def resolve (s : Snapshot) (name : String) : Option Double := (s.find? name).bind (·.number?)

end Snapshot

/-- The numbers of a snapshot by lower-case name. -/
structure Resolver where
  entries : List (String × Option Double)

namespace Resolver

/-- A name that is there already keeps its number. -/
def insert (r : Resolver) (v : Variable) : Resolver :=
  let key := Text.lower v.name
  if (r.entries.lookup key).isSome then r else ⟨r.entries ++ [(key, v.number?)]⟩

def ofSnapshot (s : Snapshot) : Resolver := s.toList.foldl insert ⟨[]⟩

def resolve (r : Resolver) (name : String) : Option Double :=
  (r.entries.lookup (Text.lower name)).join

def contains (r : Resolver) (name : String) : Bool := (r.resolve name).isSome

end Resolver

end Abacus
