import Abacus.Proofs.Recovery
import Abacus.Proofs.Unambiguity

/-!
Which sources have a tree, and which tree: a source whose tokens are known is accepted just if they
have a derivation, there is then only one, and the tree is its tree.
-/

namespace Abacus.Proofs.ExactGrammar

open Grammar

variable {implied : Bool} {source : String} {ts : List Token}

lemma derives_unique {d d' : Derivation implied .sum} (h : d.Derives ts) (h' : d'.Derives ts) :
    d' = d := by
  obtain ⟨ht, hf⟩ := Derivation.derives_iff.mp h
  obtain ⟨ht', hf'⟩ := Derivation.derives_iff.mp h'
  exact (Derivation.unique d' d hf'.stands hf.stands (by rw [ht, ht'])).1

/-- **The accepted sources are those with a derivation**, the derivation is unique, and the tree is
the tree of the derivation. -/
theorem parse_exact (h : Token.scan source = .ok ts) :
    ((∃ e, Expr.parse implied source = .ok e) ↔ ∃ d : Derivation implied .sum, d.Derives ts) ∧
      ∀ e, Expr.parse implied source = .ok e →
        ∃ d : Derivation implied .sum,
          d.Derives ts ∧ d.tree = e ∧ ∀ d', d'.Derives ts → d' = d := by
  simp only [parse_ok_iff h]
  refine ⟨⟨?_, ?_⟩, ?_⟩
  · rintro ⟨e, d, hd, -⟩
    exact ⟨d, hd⟩
  · rintro ⟨d, hd⟩
    exact ⟨d.tree, d, hd, rfl⟩
  · rintro e ⟨d, hd, he⟩
    exact ⟨d, hd, he, fun d' hd' => derives_unique hd hd'⟩

/-- A call on a name, a factorial and a sign in an exponent, with neighbours multiplied. -/
theorem parse_exact_neighbours :
    ∃ ts, Token.scan "2a(x)b^-3!" = .ok ts ∧ ∃ d : Derivation true .sum, d.Derives ts := by
  obtain ⟨ts, hs⟩ := exists_of_isOk (x := Token.scan "2a(x)b^-3!") (by decide +kernel)
  have hp := exists_of_isOk (x := Expr.parse true "2a(x)b^-3!") (by decide +kernel)
  exact ⟨ts, hs, (parse_exact hs).1.mp hp⟩

end Abacus.Proofs.ExactGrammar
