import Mathlib.Tactic.Common
import Abacus.Display

/-!
What is shown is some text: the digits of a number, the words for what is no number, or a message.
-/

namespace Abacus.Proofs.ShownText

lemma signChars_ne_nil {negative : Bool} {cs : List Char} (h : cs ≠ []) :
    Double.signChars negative cs ≠ [] := by
  cases negative with
  | false => exact h
  | true => exact List.cons_ne_nil _ _

lemma chars_ne_nil (x : Decimal) : x.chars ≠ [] := by
  have hds : decimalDigits x.digits ≠ [] := Nat.toDigits_ne_nil
  unfold Decimal.chars
  dsimp only
  split
  · unfold Decimal.withPoint
    split
    · exact List.cons_ne_nil _ _
    · dsimp only
      split <;> simp
  · unfold Decimal.withExponent
    split
    · contradiction
    · exact List.cons_ne_nil _ _
    · exact List.cons_ne_nil _ _

lemma text_ne_empty (x : Double) : x.text ≠ "" := by
  rw [Double.text, Ne, String.ofList_eq_empty_iff]
  cases x with
  | nan => decide
  | inf s => exact signChars_ne_nil (by decide)
  | finite s x =>
    refine signChars_ne_nil ?_
    split
    · decide
    · exact chars_ne_nil _

lemma wholeText_ne_empty (s : Bool) (n : ℕ) : Double.wholeText s n ≠ "" := by
  rw [Double.wholeText, Ne, String.ofList_eq_empty_iff]
  exact signChars_ne_nil Nat.toDigits_ne_nil

lemma display_ne_empty (o : Outcome) : o.display ≠ "" := by
  cases o with
  | value v =>
    rw [Outcome.display]
    unfold Double.display
    split
    · split
      · exact wholeText_ne_empty _ _
      · exact text_ne_empty _
    · exact text_ne_empty _
  | unresolved missing =>
    intro h
    exact absurd (String.append_eq_empty_iff.mp h).1 (by decide)
  | failure f =>
    have hfailed : parseFailed ≠ "" := by decide
    exact hfailed

end Abacus.Proofs.ShownText
