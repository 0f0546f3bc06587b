import Abacus.Decimal

/-!
Unsigned decimal numerals as written: digits with at most one point among them, and an optional
power of ten. Which characters are digits is a parameter, so one grammar serves all scripts and
plain ASCII.
-/

namespace Abacus

/-- The power of ten of a numeral: its letter, its sign and its digits. -/
structure Power where
  letter : Char
  sign : Option Char
  digits : List Char
  deriving DecidableEq, Repr

/-- `fraction` is what follows the point, if there is one. -/
structure Numeral where
  whole : List Char
  fraction : Option (List Char)
  power : Option Power
  deriving DecidableEq, Repr

namespace Numeral

def powerText : Option Power → List Char
  | none => []
  | some p => p.letter :: (p.sign.toList ++ p.digits)

def fractionText : Option (List Char) → List Char
  | none => []
  | some ds => '.' :: ds

def text (x : Numeral) : List Char :=
  x.whole ++ (fractionText x.fraction ++ powerText x.power)

section

variable (digit? : Char → Option Nat)

def valueOf (ds : List Char) : Nat :=
  ds.foldl (fun n c => 10 * n + (digit? c).getD 0) 0

def powerValue : Option Power → Int
  | none => 0
  | some p => if p.sign = some '-' then -(valueOf digit? p.digits) else valueOf digit? p.digits

def value (x : Numeral) : Decimal :=
  let fraction := x.fraction.getD []
  ⟨valueOf digit? (x.whole ++ fraction), powerValue digit? x.power - fraction.length⟩

def takeDigits (cs : List Char) : List Char := cs.takeWhile fun c => (digit? c).isSome

def dropDigits (cs : List Char) : List Char := cs.dropWhile fun c => (digit? c).isSome

def splitSign : List Char → Option Char × List Char
  | '+' :: rest => (some '+', rest)
  | '-' :: rest => (some '-', rest)
  | rest => (none, rest)

/-- The power of ten that the text starts with; a letter with no digits after it is none. -/
def splitPower (cs : List Char) : Option Power × List Char :=
  match cs with
  | [] => (none, [])
  | c :: rest =>
    let (sign, tail) := splitSign rest
    if (c = 'e' ∨ c = 'E') ∧ takeDigits digit? tail ≠ [] then
      (some ⟨c, sign, takeDigits digit? tail⟩, dropDigits digit? tail)
    else (none, c :: rest)

/-- The point and the digits after it. -/
def splitFraction : List Char → Option (List Char) × List Char
  | '.' :: rest => (some (takeDigits digit? rest), dropDigits digit? rest)
  | rest => (none, rest)

/-- The longest numeral that the text starts with, and what follows it. A point needs a digit on one
side at least. -/
def split? (cs : List Char) : Option (Numeral × List Char) :=
  let whole := takeDigits digit? cs
  let (fraction, rest) := splitFraction digit? (dropDigits digit? cs)
  if whole = [] ∧ fraction.getD [] = [] then none
  else
    let (power, tail) := splitPower digit? rest
    some (⟨whole, fraction, power⟩, tail)

/-- The text as one numeral. -/
def read? (cs : List Char) : Option Decimal :=
  match split? digit? cs with
  | some (x, []) => some (x.value digit?)
  | _ => none

end

variable {digit? : Char → Option Nat}

theorem splitSign_append (cs : List Char) :
    (splitSign cs).1.toList ++ (splitSign cs).2 = cs := by
  unfold splitSign; split <;> rfl

theorem takeDigits_append (cs : List Char) : takeDigits digit? cs ++ dropDigits digit? cs = cs :=
  List.takeWhile_append_dropWhile

theorem splitPower_append (cs : List Char) :
    powerText (splitPower digit? cs).1 ++ (splitPower digit? cs).2 = cs := by
  cases cs with
  | nil => rfl
  | cons c rest =>
    unfold splitPower
    by_cases h : (c = 'e' ∨ c = 'E') ∧ takeDigits digit? (splitSign rest).2 ≠ []
    · simp only [if_pos h, powerText, List.cons_append, List.append_assoc, takeDigits_append,
        splitSign_append]
    · simp only [if_neg h, powerText, List.nil_append]

theorem splitFraction_append (cs : List Char) :
    fractionText (splitFraction digit? cs).1 ++ (splitFraction digit? cs).2 = cs := by
  unfold splitFraction
  split
  · simp [fractionText, takeDigits_append]
  · simp [fractionText]

/-- A numeral and what follows it make up the text. -/
theorem text_append_of_split? {cs rest : List Char} {x : Numeral}
    (h : split? digit? cs = some (x, rest)) : x.text ++ rest = cs := by
  unfold split? at h
  simp only at h
  split at h
  · simp at h
  · simp only [Option.some.injEq, Prod.mk.injEq] at h
    obtain ⟨rfl, rfl⟩ := h
    simp only [text, List.append_assoc, splitPower_append, splitFraction_append,
      takeDigits_append]

theorem text_ne_nil_of_split? {cs rest : List Char} {x : Numeral}
    (h : split? digit? cs = some (x, rest)) : x.text ≠ [] := by
  unfold split? at h
  simp only at h
  split at h
  · simp at h
  · rename_i hn
    simp only [Option.some.injEq, Prod.mk.injEq] at h
    obtain ⟨rfl, rfl⟩ := h
    intro ht
    simp only [text, List.append_eq_nil_iff] at ht
    refine hn ⟨ht.1, ?_⟩
    cases hf : (splitFraction digit? (dropDigits digit? cs)).1 with
    | none => rfl
    | some ds => rw [hf] at ht; simp [fractionText] at ht

theorem length_of_split? {cs rest : List Char} {x : Numeral}
    (h : split? digit? cs = some (x, rest)) : rest.length < cs.length := by
  rw [← text_append_of_split? h, List.length_append]
  have := List.length_pos_iff.2 (text_ne_nil_of_split? h)
  omega

end Numeral

end Abacus
