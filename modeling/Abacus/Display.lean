import Abacus.Outcome

/-!
Outcomes as text. A whole number below `10^16` is written without a point; a failure is named only,
and described at length on demand, with a mark under the place where reading stopped.
-/

namespace Abacus

namespace Double

/-- Magnitudes from here on are written with a power of ten. -/
def wholeLimit : Nat := tenPow 16

/-- A whole number, whose zero has no sign. -/
def wholeText (negative : Bool) (n : Nat) : String :=
  String.ofList (signChars (negative && n != 0) (decimalDigits n))

def display : Double → String
  | .finite s m =>
    if m.num % m.den = 0 ∧ m.num / m.den < wholeLimit then wholeText s (m.num / m.den)
    else text (.finite s m)
  | x => x.text

end Double

def parseFailed : String := "parse failed"

def unresolvedHeading : String := "unresolved symbols: "

def Outcome.display : Outcome → String
  | .value v => v.display
  | .unresolved missing => unresolvedHeading ++ ", ".intercalate missing.names
  | .failure _ => parseFailed

/-- The place counts from the left; before the first character it is the first, and behind the last
the one after it. -/
def caretLine (pos : Int) (source : String) : String :=
  String.ofList (List.replicate (min pos source.length).toNat ' ' ++ ['^'])

/-- The source, the mark and the message; a source of several lines is not shown. -/
def describeAt (message : String) (pos : Option Int) (source : String) : String :=
  match pos with
  | none => message
  | some i =>
    if source.toList.contains '\n' then message
    else source ++ "\n" ++ caretLine i source ++ "\n" ++ message

def Failure.describeIn (f : Failure) (source : String) : String :=
  describeAt f.message (some f.pos) source

/-- The text that a calculation shows. -/
def Library.answer (lib : Library) (implied : Bool) (source : String) (vars : Snapshot) : String :=
  (lib.calculate implied source vars).display

end Abacus
