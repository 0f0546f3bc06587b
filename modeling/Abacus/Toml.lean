import Abacus.Double

/-!
Values of a TOML document, and why a text is no document. Tables keep the order of their keys. Of
dates and times only the spelling is kept.
-/

namespace Abacus.Toml

inductive Value
  | string (s : String)
  | integer (i : Int)
  | float (x : Double)
  | boolean (b : Bool)
  | moment (spelling : String)
  | array (items : List Value)
  | table (entries : List (String × Value))

abbrev Table := List (String × Value)

namespace Value

mutual

def same : Value → Value → Bool
  | .string s, .string s' => s == s'
  | .integer i, .integer i' => i == i'
  | .float x, .float x' => x == x'
  | .boolean b, .boolean b' => b == b'
  | .moment s, .moment s' => s == s'
  | .array vs, .array vs' => sameAll vs vs'
  | .table es, .table es' => sameEntries es es'
  | _, _ => false

def sameAll : List Value → List Value → Bool
  | [], [] => true
  | v :: vs, v' :: vs' => same v v' && sameAll vs vs'
  | _, _ => false

def sameEntries : List (String × Value) → List (String × Value) → Bool
  | [], [] => true
  | (k, v) :: es, (k', v') :: es' => k == k' && same v v' && sameEntries es es'
  | _, _ => false

end

mutual

theorem same_iff (v w : Value) : same v w = true ↔ v = w := by
  match v with
  | .string _ | .integer _ | .float _ | .boolean _ | .moment _ => cases w <;> simp [same]
  | .array vs => cases w <;> simp [same, sameAll_iff vs]
  | .table es => cases w <;> simp [same, sameEntries_iff es]

theorem sameAll_iff (vs ws : List Value) : sameAll vs ws = true ↔ vs = ws := by
  match vs with
  | [] => cases ws <;> simp [sameAll]
  | v :: vs => cases ws <;> simp [sameAll, same_iff v, sameAll_iff vs]

theorem sameEntries_iff (es es' : List (String × Value)) :
    sameEntries es es' = true ↔ es = es' := by
  match es with
  | [] => cases es' <;> simp [sameEntries]
  | (k, v) :: es => cases es' <;> simp [sameEntries, same_iff v, sameEntries_iff es, Prod.ext_iff]

end

/-- So the table that a text stands for can be checked. -/
instance : DecidableEq Value := fun v w => decidable_of_iff _ (same_iff v w)

end Value

/-- A whole number in decimal digits may have so many of them. -/
def digitLimit : Nat := 4300

/-- `tooManyDigits` is an integer past the limit. -/
inductive Fault
  | invalid
  | tooManyDigits (count : Nat)
  deriving DecidableEq, Repr

def isSpace (c : Char) : Bool := c == ' ' || c == '\t'

def skipSpaces (cs : List Char) : List Char := cs.dropWhile isSpace

/-- Control characters other than the tab, which no string and no comment may hold. -/
def isControl (c : Char) : Bool := (c.toNat < 32 || c.toNat == 127) && c != '\t'

/-- The text after a comment, if there is one. -/
def skipComment (cs : List Char) : Except Fault (List Char) :=
  match cs with
  | '#' :: rest =>
    let comment := rest.takeWhile (· != '\n')
    if comment.any isControl then .error .invalid else .ok (rest.dropWhile (· != '\n'))
  | cs => .ok cs

/-- The text after blanks, line ends and comments. -/
def skipLines (inComment : Bool) : List Char → Except Fault (List Char)
  | [] => .ok []
  | c :: rest =>
    if c = '\n' then skipLines false rest
    else if inComment then (if isControl c then .error .invalid else skipLines true rest)
    else if isSpace c then skipLines false rest
    else if c = '#' then skipLines true rest
    else .ok (c :: rest)

end Abacus.Toml
