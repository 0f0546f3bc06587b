import Abacus.Decimal.Numeral
import Abacus.Text.Blank
import Abacus.Text.Word
import Abacus.Text.Quoted

/-!
The tokens of an expression: numbers, words, and single marks. A scan takes the longest number or
word at each place, skips white space, and stops at the first place where no token can begin.
-/

namespace Abacus

inductive Token.Kind
  | number (value : Double)
  | ident
  | plus
  | minus
  | star
  | slash
  | percent
  | caret
  | bang
  | lparen
  | rparen
  | comma
  deriving DecidableEq

/-- `pos` counts the characters before the token. -/
structure Token where
  kind : Token.Kind
  text : String
  pos : Nat
  deriving DecidableEq

namespace Token

def Kind.name : Kind → String
  | .number _ => "number"
  | .ident => "ident"
  | .plus => "plus"
  | .minus => "minus"
  | .star => "star"
  | .slash => "slash"
  | .percent => "percent"
  | .caret => "caret"
  | .bang => "bang"
  | .lparen => "lparen"
  | .rparen => "rparen"
  | .comma => "comma"

def mark? : Char → Option Kind
  | '+' => some .plus
  | '-' => some .minus
  | '*' => some .star
  | '/' => some .slash
  | '%' => some .percent
  | '^' => some .caret
  | '!' => some .bang
  | '(' => some .lparen
  | ')' => some .rparen
  | ',' => some .comma
  | _ => none

/-- The token as messages name it. -/
def describe (t : Token) : String := t.kind.name ++ " (" ++ Text.quoted t.text ++ ")"

inductive Fault
  | malformedNumber (c : Char)
  | unexpectedCharacter (c : Char)
  deriving DecidableEq

def Fault.message : Fault → String
  | .malformedNumber c => "Malformed number at " ++ Text.quoted (String.singleton c)
  | .unexpectedCharacter c => "Unexpected character: " ++ Text.quoted (String.singleton c)

/-- Where a scan stopped, and why. -/
structure ScanError where
  fault : Fault
  pos : Nat
  deriving DecidableEq

def ScanError.message (e : ScanError) : String := e.fault.message

def startsNumber (c : Char) (rest : List Char) : Bool :=
  Text.isDigit c || (c == '.' && rest.head?.any Text.isDigit)

/-- The token that begins at `c`, and what follows it. -/
def next (pos : Nat) (c : Char) (rest : List Char) : Except ScanError (Token × List Char) :=
  if startsNumber c rest then
    match Numeral.split? Text.digitValue? (c :: rest) with
    | some (x, tail) =>
      .ok (⟨.number ((x.value Text.digitValue?).toDouble false), String.ofList x.text, pos⟩, tail)
    | none => .error ⟨.malformedNumber c, pos⟩
  else if Text.isWordStart c then
    .ok (⟨.ident, String.ofList (c :: rest.takeWhile Text.isWordChar), pos⟩,
      rest.dropWhile Text.isWordChar)
  else
    match mark? c with
    | some k => .ok (⟨k, String.singleton c, pos⟩, rest)
    | none => .error ⟨.unexpectedCharacter c, pos⟩

theorem length_of_next {pos : Nat} {c : Char} {rest tail : List Char} {t : Token}
    (h : next pos c rest = .ok (t, tail)) : tail.length < (c :: rest).length := by
  unfold next at h
  split at h
  · split at h
    · rename_i hs
      simp only [Except.ok.injEq, Prod.mk.injEq] at h
      exact h.2 ▸ Numeral.length_of_split? hs
    · simp at h
  · split at h
    · simp only [Except.ok.injEq, Prod.mk.injEq] at h
      rw [← h.2, List.length_cons]
      exact Nat.lt_succ_of_le (List.dropWhile_suffix _).length_le
    · split at h
      · simp only [Except.ok.injEq, Prod.mk.injEq] at h
        simp [← h.2]
      · simp at h

def scanFrom (pos : Nat) : List Char → Except ScanError (List Token)
  | [] => .ok []
  | c :: rest =>
    if Text.isBlank c then scanFrom (pos + 1) rest
    else
      match h : next pos c rest with
      | .error e => .error e
      | .ok (t, tail) =>
        have : tail.length < (c :: rest).length := length_of_next h
        (scanFrom (pos + t.text.length) tail).map (t :: ·)
termination_by cs => cs.length
decreasing_by
  · simp
  · exact this

/-- The tokens of a text. -/
def scan (source : String) : Except ScanError (List Token) := scanFrom 0 source.toList

end Token

end Abacus
