import Abacus.Decimal.Numeral
import Abacus.Text.Digit
import Abacus.Toml.Quotes

/-!
Numbers, dates and times of TOML. Single low lines may stand between digits; an integer may be
written to the base two, eight or sixteen.
-/

namespace Abacus.Toml

/-- The digits at the start, without the low lines between them. -/
def digitRun (ok : Char → Bool) (afterDigit : Bool) : List Char → List Char × List Char
  | [] => ([], [])
  | c :: rest =>
    if ok c then
      let (ds, tail) := digitRun ok true rest
      (c :: ds, tail)
    else if c = '_' ∧ afterDigit ∧ rest.head?.any ok then digitRun ok false rest
    else ([], c :: rest)

def isBaseDigit (base : Nat) (c : Char) : Bool := (hexValue? c).any (· < base)

def baseValue (base : Nat) (ds : List Char) : Nat :=
  ds.foldl (fun n c => base * n + (hexValue? c).getD 0) 0

def base? : Char → Option Nat
  | 'x' => some 16
  | 'o' => some 8
  | 'b' => some 2
  | _ => none

/-- An integer that names its base. -/
def based? : List Char → Option (Value × List Char)
  | '0' :: c :: rest =>
    match base? c with
    | none => none
    | some b =>
      match digitRun (isBaseDigit b) false rest with
      | ([], _) => none
      | (ds, tail) => some (.integer (baseValue b ds), tail)
  | _ => none

/-- Digits without a leading zero, or zero. -/
def wholePart : List Char → List Char × List Char
  | '0' :: rest => (['0'], rest)
  | cs => digitRun Char.isDigit false cs

def fractionPart : List Char → List Char × List Char
  | '.' :: rest =>
    match digitRun Char.isDigit false rest with
    | ([], _) => ([], '.' :: rest)
    | r => r
  | cs => ([], cs)

/-- The letter, the sign and the digits of a power of ten. -/
def powerPart (cs : List Char) : Option Power × List Char :=
  match cs with
  | [] => (none, [])
  | c :: rest =>
    if c = 'e' ∨ c = 'E' then
      let (sign, tail) := Numeral.splitSign rest
      match digitRun Char.isDigit false tail with
      | ([], _) => (none, cs)
      | (ds, after) => (some ⟨c, sign, ds⟩, after)
    else (none, cs)

/-- A decimal number: an integer, or a float if it has a point or a power of ten. -/
def decimal? (cs : List Char) : Option (Except Fault (Value × List Char)) :=
  let (sign, body) := Numeral.splitSign cs
  match wholePart body with
  | ([], _) => none
  | (whole, rest) =>
    let (fraction, rest) := fractionPart rest
    let (power, rest) := powerPart rest
    let negative := sign = some '-'
    if fraction = [] ∧ power = none then
      if digitLimit < whole.length then some (.error (.tooManyDigits whole.length))
      else
        let n := baseValue 10 whole
        some (.ok (.integer (if negative then -n else n), rest))
    else
      let numeral : Numeral := ⟨whole, some fraction, power⟩
      some (.ok (.float ((numeral.value Text.asciiDigitValue?).toDouble negative), rest))

/-- Infinity and NaN. -/
def special? (cs : List Char) : Option (Value × List Char) :=
  let (sign, body) := Numeral.splitSign cs
  match body with
  | 'i' :: 'n' :: 'f' :: rest => some (.float (.inf (sign = some '-')), rest)
  | 'n' :: 'a' :: 'n' :: rest => some (.float .nan, rest)
  | _ => none

/-- A number of two digits from `low` to `high`. -/
def twoDigits? (low high : Nat) : List Char → Option (Nat × List Char)
  | a :: b :: rest =>
    if a.isDigit && b.isDigit then
      let n := baseValue 10 [a, b]
      if low ≤ n ∧ n ≤ high then some (n, rest) else none
    else none
  | _ => none

def exactly? (c : Char) : List Char → Option (List Char)
  | d :: rest => if c = d then some rest else none
  | [] => none

/-- A date as year, month and day. -/
def date? (cs : List Char) : Option ((Nat × Nat × Nat) × List Char) := do
  let (century, cs) ← twoDigits? 0 99 cs
  let (year, cs) ← twoDigits? 0 99 cs
  let (month, cs) ← twoDigits? 1 12 (← exactly? '-' cs)
  let (day, cs) ← twoDigits? 1 31 (← exactly? '-' cs)
  return ((100 * century + year, month, day), cs)

def isLeap (year : Nat) : Bool := year % 4 == 0 && (year % 100 != 0 || year % 400 == 0)

def daysIn (year month : Nat) : Nat :=
  if month = 2 then (if isLeap year then 29 else 28)
  else if month = 4 ∨ month = 6 ∨ month = 9 ∨ month = 11 then 30
  else 31

/-- The text after a time of day. -/
def skipTime? (cs : List Char) : Option (List Char) := do
  let (_, cs) ← twoDigits? 0 23 cs
  let (_, cs) ← twoDigits? 0 59 (← exactly? ':' cs)
  let (_, cs) ← twoDigits? 0 59 (← exactly? ':' cs)
  match cs with
  | '.' :: d :: rest =>
    if d.isDigit then return rest.dropWhile Char.isDigit else return '.' :: d :: rest
  | cs => return cs

/-- The text after an offset from universal time, if there is one. -/
def skipOffset (cs : List Char) : List Char :=
  let numeric : Option (List Char) := do
    let (_, cs) ← twoDigits? 0 23 cs.tail
    let (_, cs) ← twoDigits? 0 59 (← exactly? ':' cs)
    return cs
  match cs with
  | [] => []
  | c :: rest =>
    if c = 'Z' ∨ c = 'z' then rest
    else if c = '+' ∨ c = '-' then numeric.getD cs
    else cs

/-- The text after a time and its offset, if they follow a date. -/
def skipDayTime (cs : List Char) : List Char :=
  match cs with
  | [] => []
  | c :: rest =>
    if c = 'T' ∨ c = 't' ∨ c = ' ' then
      match skipTime? rest with
      | some after => skipOffset after
      | none => cs
    else cs

def spelled (cs rest : List Char) : Value :=
  .moment (String.ofList (cs.take (cs.length - rest.length)))

/-- A date, a time, or both; the day must be one of the calendar. -/
def moment? (cs : List Char) : Option (Except Fault (Value × List Char)) :=
  match date? cs with
  | some ((year, month, day), rest) =>
    if year = 0 ∨ daysIn year month < day then some (.error .invalid)
    else
      let after := skipDayTime rest
      some (.ok (spelled cs after, after))
  | none => (skipTime? cs).map fun after => .ok (spelled cs after, after)

def boolean? : List Char → Option (Value × List Char)
  | 't' :: 'r' :: 'u' :: 'e' :: rest => some (.boolean true, rest)
  | 'f' :: 'a' :: 'l' :: 's' :: 'e' :: rest => some (.boolean false, rest)
  | _ => none

/-- A value that is neither an array nor a table. -/
def scalar (cs : List Char) : Except Fault (Value × List Char) :=
  match string? cs with
  | some r => r.map fun (s, rest) => (.string s, rest)
  | none =>
    match boolean? cs with
    | some r => .ok r
    | none =>
      match moment? cs with
      | some r => r
      | none =>
        match based? cs with
        | some r => .ok r
        | none =>
          match decimal? cs with
          | some r => r
          | none =>
            match special? cs with
            | some r => .ok r
            | none => .error .invalid

end Abacus.Toml
