import Mathlib.Tactic.Common
import Abacus.Proofs.Fitting

/-!
The grammar is unambiguous: two derivations by one rule that begin the same source and go on as far
as they can are the same derivation, however deep they are. The next token decides at every place
which rule goes on.
-/

namespace Abacus.Grammar.Derivation

variable {implied : Bool} {r : Rule}

/-- The bangs of an operand are all that there are. -/
lemma bangs_unique {bs bs' rest rest' : List Token} (h : ∀ b ∈ bs, b.kind = .bang)
    (h' : ∀ b ∈ bs', b.kind = .bang) (hr : Clear isBang rest) (hr' : Clear isBang rest')
    (he : bs ++ rest = bs' ++ rest') : bs = bs' ∧ rest = rest' := by
  induction bs generalizing bs' with
  | nil =>
    cases bs' with
    | nil => exact ⟨rfl, he⟩
    | cons b bs' =>
      have hb := h' b (by simp)
      rw [List.nil_append, List.cons_append] at he
      simp [he, hb, isBang] at hr
  | cons b bs ih =>
    cases bs' with
    | nil =>
      have hb := h b (by simp)
      rw [List.nil_append, List.cons_append] at he
      simp [← he, hb, isBang] at hr'
    | cons b' bs' =>
      simp only [List.cons_append, List.cons.injEq] at he
      obtain ⟨rfl, he⟩ := he
      obtain ⟨rfl, hrest⟩ :=
        ih (fun b hb => h b (by simp [hb])) (fun b hb => h' b (by simp [hb])) he
      exact ⟨rfl, hrest⟩

lemma kind_eq {t t' : Token} {ts ts' : List Token} (he : t :: ts = t' :: ts') :
    t.kind = t'.kind := by
  rw [(List.cons.inj he).1]

/-- A name that stands for a variable begins no call. -/
lemma name_ne_call {t f o : Token} {ts rest : List Token} (hr : Clear isOpening rest)
    (ho : o.kind = .lparen) (he : t :: rest = f :: o :: ts) : False := by
  obtain ⟨-, rfl⟩ := List.cons.inj he
  simp [isOpening, ho] at hr

/-- A sign begins no power. -/
lemma sign_ne_power {t : Token} {s : Sign} (ht : sign? t.kind = some s) {ts rest rest' : List Token}
    (e : Derivation implied .power) (he : t :: ts ++ rest = e.tokens ++ rest') : False := by
  obtain ⟨a, as, ha, hk⟩ := e.exists_startsOperand (Or.inl rfl)
  rw [ha, List.cons_append, List.cons_append, List.cons.injEq] at he
  simp [he.1, (clear_of_startsOperand hk).2.2.2] at ht

/-- No power follows a product that has ended. -/
lemma power_extendsProduct {rest ts : List Token} (e : Derivation implied .power)
    (h : Clear extendsProduct rest) (he : rest = e.tokens ++ ts) : False := by
  obtain ⟨a, as, ha, hk⟩ := e.exists_startsOperand (Or.inl rfl)
  rw [ha, List.cons_append] at he
  simp [he, extendsProduct, hk] at h

/-- An operator of products begins no power. -/
lemma productOperator_ne_power {t : Token} {op : Operator} (ht : productOperator? t.kind = some op)
    {ts ts' : List Token} (e : Derivation implied .power) (he : t :: ts = e.tokens ++ ts') :
    False := by
  obtain ⟨a, as, ha, hk⟩ := e.exists_startsOperand (Or.inl rfl)
  rw [ha, List.cons_append, List.cons.injEq] at he
  simp [he.1, (clear_of_startsOperand hk).2.2.1] at ht

/-- **Unambiguity.** -/
theorem unique (d d' : Derivation implied r) {rest rest' : List Token} (h : d.Stands rest)
    (h' : d'.Stands rest') (he : d.tokens ++ rest = d'.tokens ++ rest') :
    d = d' ∧ rest = rest' := by
  induction d generalizing rest rest' with
  | sum first tail ihf iht =>
    cases d' with
    | sum first' tail' =>
      simp only [tokens, List.append_assoc] at he
      obtain ⟨rfl, h1⟩ := ihf first' h.1 h'.1 he
      obtain ⟨rfl, h2⟩ := iht tail' h.2 h'.2 h1
      exact ⟨rfl, h2⟩
  | sumEnd =>
    cases d' with
    | sumEnd => exact ⟨rfl, he⟩
    | sumLink t op ht term tail =>
      simp only [tokens, List.nil_append] at he
      subst he
      -- no operator may follow where the tail has ended
      simp [Stands, extendsSum, ht] at h
  | sumLink t op ht term tail ihf iht =>
    cases d' with
    | sumEnd =>
      simp only [tokens, List.nil_append] at he
      subst he
      simp [Stands, extendsSum, ht] at h'
    | sumLink t' op' ht' term' tail' =>
      simp only [tokens, List.cons_append, List.append_assoc, List.cons.injEq] at he
      obtain ⟨rfl, h0⟩ := he
      obtain rfl : op = op' := Option.some.inj (ht.symm.trans ht')
      obtain ⟨rfl, h1⟩ := ihf term' h.1 h'.1 h0
      obtain ⟨rfl, h2⟩ := iht tail' h.2 h'.2 h1
      exact ⟨rfl, h2⟩
  | product first tail ihf iht =>
    cases d' with
    | product first' tail' =>
      simp only [tokens, List.append_assoc] at he
      obtain ⟨rfl, h1⟩ := ihf first' h.1 h'.1 he
      obtain ⟨rfl, h2⟩ := iht tail' h.2 h'.2 h1
      exact ⟨rfl, h2⟩
  | productEnd =>
    cases d' with
    | productEnd => exact ⟨rfl, he⟩
    | productLink t op ht factor tail =>
      simp only [tokens, List.nil_append] at he
      subst he
      simp [Stands, extendsProduct, ht] at h
    | neighbour _ factor tail =>
      simp only [tokens, List.nil_append, List.append_assoc] at he
      exact (power_extendsProduct factor h he).elim
  | productLink t op ht factor tail ihf iht =>
    cases d' with
    | productEnd =>
      simp only [tokens, List.nil_append] at he
      subst he
      simp [Stands, extendsProduct, ht] at h'
    | productLink t' op' ht' factor' tail' =>
      simp only [tokens, List.cons_append, List.append_assoc, List.cons.injEq] at he
      obtain ⟨rfl, h0⟩ := he
      obtain rfl : op = op' := Option.some.inj (ht.symm.trans ht')
      obtain ⟨rfl, h1⟩ := ihf factor' h.1 h'.1 h0
      obtain ⟨rfl, h2⟩ := iht tail' h.2 h'.2 h1
      exact ⟨rfl, h2⟩
    | neighbour _ factor' tail' =>
      simp only [tokens, List.cons_append, List.append_assoc] at he
      exact (productOperator_ne_power ht factor' he).elim
  | neighbour _ factor tail ihf iht =>
    cases d' with
    | productEnd =>
      simp only [tokens, List.nil_append, List.append_assoc] at he
      exact (power_extendsProduct factor h' he.symm).elim
    | productLink t' op' ht' factor' tail' =>
      simp only [tokens, List.cons_append, List.append_assoc] at he
      exact (productOperator_ne_power ht' factor he.symm).elim
    | neighbour _ factor' tail' =>
      simp only [tokens, List.append_assoc] at he
      obtain ⟨rfl, h1⟩ := ihf factor' h.1 h'.1 he
      obtain ⟨rfl, h2⟩ := iht tail' h.2 h'.2 h1
      exact ⟨rfl, h2⟩
  | sign t s ht e ih =>
    cases d' with
    | sign t' s' ht' e' =>
      simp only [tokens, List.cons_append, List.cons.injEq] at he
      obtain ⟨rfl, h0⟩ := he
      obtain rfl : s = s' := Option.some.inj (ht.symm.trans ht')
      obtain ⟨rfl, h1⟩ := ih e' h h' h0
      exact ⟨rfl, h1⟩
    -- no power begins with a sign
    | unsigned e' => exact (sign_ne_power ht e' he).elim
  | unsigned e ih =>
    cases d' with
    | sign t' s' ht' e' => exact (sign_ne_power ht' e he.symm).elim
    | unsigned e' =>
      obtain ⟨rfl, h1⟩ := ih e' h h' he
      exact ⟨rfl, h1⟩
  | base e ih =>
    cases d' with
    | base e' =>
      obtain ⟨rfl, h1⟩ := ih e' h.1 h'.1 he
      exact ⟨rfl, h1⟩
    | raised e' t' ht' x' =>
      simp only [tokens, List.append_assoc, List.cons_append] at he
      obtain ⟨rfl, h1⟩ := ih e' h.1 h'.1 he
      -- what follows the base would be the operator, and it may not be
      have hc := h.2
      simp [h1, isCaret, ht'] at hc
  | raised e t ht x ihe ihx =>
    cases d' with
    | base e' =>
      simp only [tokens, List.append_assoc, List.cons_append] at he
      obtain ⟨rfl, h1⟩ := ihe e' h.1 h'.1 he
      have hc := h'.2
      simp [← h1, isCaret, ht] at hc
    | raised e' t' ht' x' =>
      simp only [tokens, List.append_assoc, List.cons_append] at he
      obtain ⟨rfl, h1⟩ := ihe e' h.1 h'.1 he
      obtain ⟨rfl, h2⟩ := List.cons.inj h1
      obtain ⟨rfl, h3⟩ := ihx x' h.2 h'.2 h2
      exact ⟨rfl, h3⟩
  | factorial e bs hb ih =>
    cases d' with
    | factorial e' bs' hb' =>
      simp only [tokens, List.append_assoc] at he
      obtain ⟨rfl, h1⟩ := ih e' h.1 h'.1 he
      obtain ⟨rfl, h2⟩ := bangs_unique hb hb' h.2 h'.2 h1
      exact ⟨rfl, h2⟩
  | number t v hk =>
    cases d' with
    | number t' v' hk' =>
      obtain ⟨rfl, h1⟩ := List.cons.inj he
      obtain rfl : v = v' := Token.Kind.number.inj (hk.symm.trans hk')
      exact ⟨rfl, h1⟩
    | name t' hk' | group t' _ hk' | call t' _ _ hk' | callTwo t' _ _ _ hk' =>
      have hkind := kind_eq he
      simp [hk, hk'] at hkind
  | name t hk =>
    cases d' with
    | name t' hk' =>
      obtain ⟨rfl, h1⟩ := List.cons.inj he
      exact ⟨rfl, h1⟩
    | number t' _ hk' | group t' _ hk' =>
      have hkind := kind_eq he
      simp [hk, hk'] at hkind
    | call t' o' c' hk' ho' | callTwo t' o' m' c' hk' ho' => exact (name_ne_call h ho' he).elim
  | group o c hk hc e ih =>
    cases d' with
    | group o' c' hk' hc' e' =>
      simp only [tokens, List.cons_append, List.append_assoc, List.nil_append,
        List.cons.injEq] at he
      obtain ⟨rfl, h0⟩ := he
      obtain ⟨rfl, h1⟩ := ih e' h h' h0
      obtain ⟨rfl, h2⟩ := List.cons.inj h1
      exact ⟨rfl, h2⟩
    | number t' _ hk' | name t' hk' | call t' _ _ hk' | callTwo t' _ _ _ hk' =>
      have hkind := kind_eq he
      simp [hk, hk'] at hkind
  | call f o c hk ho hc arg ih =>
    cases d' with
    | call f' o' c' hf' ho' hc' arg' =>
      simp only [tokens, List.cons_append, List.append_assoc, List.nil_append,
        List.cons.injEq] at he
      obtain ⟨rfl, rfl, h0⟩ := he
      obtain ⟨rfl, h1⟩ := ih arg' h h' h0
      obtain ⟨rfl, h2⟩ := List.cons.inj h1
      exact ⟨rfl, h2⟩
    | callTwo f' o' m' c' hf' ho' hm' hc' arg' arg'' =>
      simp only [tokens, List.cons_append, List.append_assoc, List.nil_append,
        List.cons.injEq] at he
      obtain ⟨rfl, rfl, h0⟩ := he
      obtain ⟨rfl, h1⟩ := ih arg' h h'.1 h0
      -- the first argument ends in one place, which holds a parenthesis or a comma
      have hkind := kind_eq h1
      simp [hc, hm'] at hkind
    | number t' _ hk' | group t' _ hk' =>
      have hkind := kind_eq he
      simp [hk, hk'] at hkind
    | name t' hk' => exact (name_ne_call h' ho he.symm).elim
  | callTwo f o m c hk ho hm hc arg arg' ih ih' =>
    cases d' with
    | call f' o' c' hf' ho' hc' arg'' =>
      simp only [tokens, List.cons_append, List.append_assoc, List.nil_append,
        List.cons.injEq] at he
      obtain ⟨rfl, rfl, h0⟩ := he
      obtain ⟨rfl, h1⟩ := ih arg'' h.1 h' h0
      have hkind := kind_eq h1
      simp [hm, hc'] at hkind
    | callTwo f' o' m' c' hf' ho' hm' hc' arg₁ arg₂ =>
      simp only [tokens, List.cons_append, List.append_assoc, List.nil_append,
        List.cons.injEq] at he
      obtain ⟨rfl, rfl, h0⟩ := he
      obtain ⟨rfl, h1⟩ := ih arg₁ h.1 h'.1 h0
      obtain ⟨rfl, h2⟩ := List.cons.inj h1
      obtain ⟨rfl, h3⟩ := ih' arg₂ h.2 h'.2 h2
      obtain ⟨rfl, h4⟩ := List.cons.inj h3
      exact ⟨rfl, h4⟩
    | number t' _ hk' | group t' _ hk' =>
      have hkind := kind_eq he
      simp [hk, hk'] at hkind
    | name t' hk' => exact (name_ne_call h' ho he.symm).elim

end Abacus.Grammar.Derivation
