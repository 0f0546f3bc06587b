import Mathlib.Tactic.Common
import Abacus.Proofs.Fitting

/-!
The reader follows the grammar: what a derivation that fits derives, the reader reads, and it makes
the tree of the derivation.
-/

namespace Abacus.Grammar

variable (g : Grammar)

/-- By the rule `r` the reader takes a first part of `ts` at level `n`, leaves `rest` and yields
`y`. -/
def Reads (n : ℕ) (ts rest : List Token) : (r : Rule) → (y : r.Yield) → Prop
  | .sum, e => ∃ h, g.sum n ts = .ok ⟨e, rest, h⟩
  | .sumTail, f => ∀ all left h, ∃ h', g.sumFrom n all ⟨left, ts, h⟩ = .ok ⟨f left, rest, h'⟩
  | .product, e => ∃ h, g.product n ts = .ok ⟨e, rest, h⟩
  | .productTail, f =>
    ∀ all left h, ∃ h', g.productFrom n all ⟨left, ts, h⟩ = .ok ⟨f left, rest, h'⟩
  | .signed, e => ∃ h, g.signed n ts = .ok ⟨e, rest, h⟩
  | .power, e => ∃ h, g.power n ts = .ok ⟨e, rest, h⟩
  | .factorial, e => ∃ h, g.factorial n ts = .ok ⟨e, rest, h⟩
  | .operand, e => ∃ h, g.operand n ts = .ok ⟨e, rest, h⟩

variable {g} {n : ℕ} {ts mid rest : List Token} {t : Token}

/-! ### One lemma for each way to go on -/

lemma reads_sum {e : Expr} {f : Expr → Expr} (h₁ : g.Reads n ts mid .product e)
    (h₂ : g.Reads n mid rest .sumTail f) : g.Reads n ts rest .sum (f e) := by
  obtain ⟨h, hp⟩ := h₁
  obtain ⟨h', hs⟩ := h₂ ts e h
  exact ⟨h', by rw [sum, hp]; exact hs⟩

lemma reads_sumEnd (h : Clear extendsSum ts) : g.Reads n ts ts .sumTail fun left => left := by
  intro all left hlt
  refine ⟨hlt, ?_⟩
  cases ts with
  | nil => rw [sumFrom]
  | cons t ts =>
    have ht : sumOperator? t.kind = none := by simpa [extendsSum] using h
    rw [sumFrom, ht]

lemma reads_sumLink {op : Operator} {e : Expr} {f : Expr → Expr}
    (ht : sumOperator? t.kind = some op) (h₁ : g.Reads n ts mid .product e)
    (h₂ : g.Reads n mid rest .sumTail f) :
    g.Reads n (t :: ts) rest .sumTail fun left => f (.binary op left e) := by
  intro all left hlt
  obtain ⟨h, hp⟩ := h₁
  have hmid : mid.length < all.length := by simp only [List.length_cons] at hlt; omega
  obtain ⟨h', hs⟩ := h₂ all (.binary op left e) hmid
  exact ⟨h', by rw [sumFrom, ht]; simp only [hp]; exact hs⟩

lemma reads_product {e : Expr} {f : Expr → Expr} (h₁ : g.Reads n ts mid .signed e)
    (h₂ : g.Reads n mid rest .productTail f) : g.Reads n ts rest .product (f e) := by
  obtain ⟨h, hp⟩ := h₁
  obtain ⟨h', hs⟩ := h₂ ts e h
  exact ⟨h', by rw [product, hp]; exact hs⟩

lemma reads_productEnd (h : Clear extendsProduct ts) :
    g.Reads n ts ts .productTail fun left => left := by
  intro all left hlt
  refine ⟨hlt, ?_⟩
  cases ts with
  | nil => rw [productFrom]
  | cons t ts =>
    have ht : productOperator? t.kind = none ∧ startsOperand t.kind = false := by
      simpa [extendsProduct] using h
    rw [productFrom, ht.1]
    simp [ht.2]

lemma reads_productLink {op : Operator} {e : Expr} {f : Expr → Expr}
    (ht : productOperator? t.kind = some op) (h₁ : g.Reads n ts mid .signed e)
    (h₂ : g.Reads n mid rest .productTail f) :
    g.Reads n (t :: ts) rest .productTail fun left => f (.binary op left e) := by
  intro all left hlt
  obtain ⟨h, hp⟩ := h₁
  have hmid : mid.length < all.length := by simp only [List.length_cons] at hlt; omega
  obtain ⟨h', hs⟩ := h₂ all (.binary op left e) hmid
  exact ⟨h', by rw [productFrom, ht]; simp only [hp]; exact hs⟩

lemma reads_neighbour {e : Expr} {f : Expr → Expr} (hi : g.implied = true)
    (ht : startsOperand t.kind = true) (h₁ : g.Reads n (t :: ts) mid .power e)
    (h₂ : g.Reads n mid rest .productTail f) :
    g.Reads n (t :: ts) rest .productTail fun left => f (.binary .implied left e) := by
  intro all left hlt
  obtain ⟨h, hp⟩ := h₁
  obtain ⟨h', hs⟩ := h₂ all (.binary .implied left e) (h.trans hlt)
  have hop : productOperator? t.kind = none := (clear_of_startsOperand ht).2.2.1
  exact ⟨h', by rw [productFrom, hop]; simp only [ht, hi, if_true, hp]; exact hs⟩

lemma enter_of_lt (hn : n < maxDepth) : enter n t = .ok (n + 1) := by simp [enter, hn]

lemma reads_sign {s : Sign} {e : Expr} (ht : sign? t.kind = some s) (hn : n < maxDepth)
    (h₁ : g.Reads (n + 1) ts rest .signed e) : g.Reads n (t :: ts) rest .signed (.signed s e) := by
  obtain ⟨h, hs⟩ := h₁
  exact ⟨h.trans (Nat.lt_succ_self _), by
    rw [signed, ht]; simp only [enter_of_lt hn, hs]⟩

lemma reads_unsigned {e : Expr} (ht : sign? t.kind = none)
    (h₁ : g.Reads n (t :: ts) rest .power e) : g.Reads n (t :: ts) rest .signed e := by
  obtain ⟨h, hp⟩ := h₁
  exact ⟨h, by rw [signed, ht]; exact hp⟩

lemma reads_base {e : Expr} (hc : Clear isCaret rest) (h₁ : g.Reads n ts rest .factorial e) :
    g.Reads n ts rest .power e := by
  obtain ⟨h, hf⟩ := h₁
  refine ⟨h, ?_⟩
  cases rest with
  | nil => rw [power, hf]
  | cons t rest =>
    have ht : t.kind ≠ .caret := by simpa [isCaret] using hc
    rw [power, hf]
    simp only [ht, if_false]

lemma reads_raised {e e' : Expr} (ht : t.kind = .caret) (hn : n < maxDepth)
    (h₁ : g.Reads n ts (t :: mid) .factorial e) (h₂ : g.Reads (n + 1) mid rest .signed e') :
    g.Reads n ts rest .power (.binary .pow e e') := by
  obtain ⟨h, hf⟩ := h₁
  obtain ⟨h', hs⟩ := h₂
  have hlt : rest.length < ts.length := by simp only [List.length_cons] at h; omega
  exact ⟨hlt, by rw [power, hf]; simp only [ht, if_true, enter_of_lt hn, hs]⟩

lemma bangs_eq {all bs : List Token} (hb : ∀ b ∈ bs, b.kind = .bang) (hr : Clear isBang rest)
    (e : Expr) (h : (bs ++ rest).length < all.length) :
    ∃ h', bangs all e (bs ++ rest) h = ⟨bs.foldl (fun left _ => .factorial left) e, rest, h'⟩ := by
  induction bs generalizing e with
  | nil =>
    refine ⟨h, ?_⟩
    cases rest with
    | nil => rfl
    | cons t rest =>
      have ht : t.kind ≠ .bang := by simpa [isBang] using hr
      simp [bangs, ht]
  | cons b bs ih =>
    have hlt : (bs ++ rest).length < all.length := by
      simp only [List.cons_append, List.length_cons] at h; omega
    obtain ⟨h', he⟩ := ih (fun b hb' => hb b (by simp [hb'])) (.factorial e) hlt
    have hk : b.kind = .bang := hb b (by simp)
    exact ⟨h', by simpa [bangs, hk] using he⟩

lemma reads_factorial {e : Expr} {bs : List Token} (hb : ∀ b ∈ bs, b.kind = .bang)
    (hr : Clear isBang rest) (h₁ : g.Reads n ts (bs ++ rest) .operand e) :
    g.Reads n ts rest .factorial (bs.foldl (fun left _ => .factorial left) e) := by
  obtain ⟨h, ho⟩ := h₁
  obtain ⟨h', he⟩ := bangs_eq hb hr e h
  exact ⟨h', by rw [factorial, ho]; simp only [he]⟩

lemma reads_number {v : Double} (ht : t.kind = .number v) :
    g.Reads n (t :: ts) ts .operand (.number v) :=
  ⟨Nat.lt_succ_self _, by rw [operand.eq_def]; simp only [ht]⟩

lemma reads_name (ht : t.kind = .ident) (h : Clear isOpening ts) :
    g.Reads n (t :: ts) ts .operand (.reference t.text t.pos) := by
  refine ⟨Nat.lt_succ_self _, ?_⟩
  cases ts with
  | nil => rw [operand, ht]
  | cons o ts =>
    have ho : o.kind ≠ .lparen := by simpa [isOpening] using h
    rw [operand, ht]
    simp only [ho, if_false]

lemma closing_eq (e : Expr) {c : Token} (hc : c.kind = .rparen)
    (h : (c :: rest).length < ts.length) :
    ∃ h', g.closing (⟨e, c :: rest, h⟩ : Reading ts) = .ok ⟨e, rest, h'⟩ :=
  ⟨by simp only [List.length_cons] at h; omega, by simp [closing, hc]⟩

lemma reads_group {e : Expr} {c : Token} (ht : t.kind = .lparen) (hc : c.kind = .rparen)
    (hn : n < maxDepth) (h₁ : g.Reads (n + 1) ts (c :: rest) .sum e) :
    g.Reads n (t :: ts) rest .operand e := by
  obtain ⟨h, hs⟩ := h₁
  have hlt : (c :: rest).length < (t :: ts).length := h.trans (Nat.lt_succ_self _)
  obtain ⟨h', hcl⟩ := closing_eq e hc hlt
  exact ⟨h', by rw [operand.eq_def]; simp only [ht, enter_of_lt hn, hs]; exact hcl⟩

lemma operand_of_call {f o : Token} (hf : f.kind = .ident) (ho : o.kind = .lparen) {e : Expr}
    (h : ∃ h, g.call n f o ts = .ok ⟨e, rest, h⟩) :
    g.Reads n (f :: o :: ts) rest .operand e := by
  obtain ⟨h, hc⟩ := h
  have hlt : rest.length < (f :: o :: ts).length := by simp only [List.length_cons]; omega
  exact ⟨hlt, by rw [operand, hf]; simp only [ho, if_true, hc]⟩

lemma operand_error_of_call {f o : Token} (hf : f.kind = .ident) (ho : o.kind = .lparen)
    {e : Failure} (h : g.call n f o ts = .error e) : g.operand n (f :: o :: ts) = .error e := by
  rw [operand, hf]
  simp only [ho, if_true, h]

lemma reads_call {f o c : Token} {e : Expr} (hf : f.kind = .ident) (ho : o.kind = .lparen)
    (hc : c.kind = .rparen) (hn : n < maxDepth) (h : ts.head?.any (·.kind = .rparen) = false)
    (h₁ : g.Reads (n + 1) ts (c :: rest) .sum e) :
    g.Reads n (f :: o :: ts) rest .operand (.call f.text f.pos [e]) := by
  obtain ⟨hlt, hs⟩ := h₁
  refine operand_of_call hf ho ?_
  obtain ⟨h', hcl⟩ := closing_eq (.call f.text f.pos [e]) hc hlt
  refine ⟨h', ?_⟩
  rw [call, h]
  simp only [enter_of_lt hn, hs, hc]
  simpa using hcl

lemma reads_callTwo {f o m c : Token} {e e' : Expr} (hf : f.kind = .ident) (ho : o.kind = .lparen)
    (hm : m.kind = .comma) (hc : c.kind = .rparen) (hn : n < maxDepth)
    (h : ts.head?.any (·.kind = .rparen) = false)
    (h₁ : g.Reads (n + 1) ts (m :: mid) .sum e) (h₂ : g.Reads (n + 1) mid (c :: rest) .sum e') :
    g.Reads n (f :: o :: ts) rest .operand (.call f.text f.pos [e, e']) := by
  obtain ⟨hlt, hs⟩ := h₁
  obtain ⟨hlt', hs'⟩ := h₂
  refine operand_of_call hf ho ?_
  have hlt'' : (c :: rest).length < ts.length := by
    simp only [List.length_cons] at hlt hlt' ⊢; omega
  obtain ⟨h', hcl⟩ := closing_eq (.call f.text f.pos [e, e']) hc hlt''
  refine ⟨h', ?_⟩
  rw [call, h]
  simp only [enter_of_lt hn, hs, hm, if_true, hs']
  simpa [hc] using hcl

/-! ### Rules that go on with nothing -/

lemma reads_signed_of_operand {e : Expr} {bs : List Token} (ht : sign? t.kind = none)
    (hb : ∀ b ∈ bs, b.kind = .bang) (hr : Clear isBang rest) (hc : Clear isCaret rest)
    (h : g.Reads n (t :: ts) (bs ++ rest) .operand e) :
    g.Reads n (t :: ts) rest .signed (bs.foldl (fun left _ => .factorial left) e) :=
  reads_unsigned ht (reads_base hc (reads_factorial hb hr h))

lemma reads_product_of_signed {e : Expr} (hr : Clear extendsProduct rest)
    (h : g.Reads n ts rest .signed e) : g.Reads n ts rest .product e :=
  reads_product h (reads_productEnd hr)

lemma reads_sum_of_product {e : Expr} (hr : Clear extendsSum rest)
    (h : g.Reads n ts rest .product e) : g.Reads n ts rest .sum e :=
  reads_sum h (reads_sumEnd hr)

lemma expression_of_reads {e : Expr} (h : g.Reads 0 ts [] .sum e) : g.expression ts = .ok e := by
  obtain ⟨hlt, hs⟩ := h
  have hne : ts ≠ [] := List.ne_nil_of_length_pos hlt
  rw [expression, hs]
  simp [hne]

/-! ### Whole derivations -/

/-- No argument begins with a closing parenthesis. -/
lemma head?_ne_rparen {implied : Bool} (d : Derivation implied .sum) (rest : List Token) :
    (d.tokens ++ rest).head?.any (·.kind = .rparen) = false := by
  obtain ⟨t, ts, hts, hk⟩ := d.exists_first
  have ht : t.kind ≠ .rparen := by
    intro ht
    simp [ht, startsOperand, sign?] at hk
  simp [hts, ht]

/-- **The reader reads what a derivation derives**, and makes its tree. -/
theorem reads_of_fits {r : Rule} (d : Derivation g.implied r) {n : ℕ} {rest : List Token}
    (h : d.Fits n rest) : g.Reads n (d.tokens ++ rest) rest r d.tree := by
  induction d generalizing n rest with
  | sum first tail ihf iht =>
    rw [Derivation.tokens, List.append_assoc]
    exact reads_sum (ihf h.1) (iht h.2)
  | sumEnd => exact reads_sumEnd h
  | sumLink t op ht term tail ihf iht =>
    rw [Derivation.tokens, List.cons_append, List.append_assoc]
    exact reads_sumLink ht (ihf h.1) (iht h.2)
  | product first tail ihf iht =>
    rw [Derivation.tokens, List.append_assoc]
    exact reads_product (ihf h.1) (iht h.2)
  | productEnd => exact reads_productEnd h
  | productLink t op ht factor tail ihf iht =>
    rw [Derivation.tokens, List.cons_append, List.append_assoc]
    exact reads_productLink ht (ihf h.1) (iht h.2)
  | neighbour hi factor tail ihf iht =>
    -- the rules look at the first token to see that a neighbour begins
    obtain ⟨t, ts, hts, hk⟩ := factor.exists_startsOperand (Or.inl rfl)
    have hf := ihf h.1
    rw [Derivation.tokens, List.append_assoc]
    rw [hts, List.cons_append] at hf ⊢
    exact reads_neighbour hi hk hf (iht h.2)
  | sign t s ht e ih => exact reads_sign ht h.1 (ih h.2)
  | unsigned e ih =>
    obtain ⟨t, ts, hts, hk⟩ := e.exists_startsOperand (Or.inl rfl)
    have he := ih h
    rw [Derivation.tokens]
    rw [hts, List.cons_append] at he ⊢
    exact reads_unsigned (clear_of_startsOperand hk).2.2.2 he
  | base e ih => exact reads_base h.2 (ih h.1)
  | raised e t ht x ihe ihx =>
    rw [Derivation.tokens, List.append_assoc, List.cons_append]
    exact reads_raised ht h.2.1 (ihe h.1) (ihx h.2.2)
  | factorial e bs hb ih =>
    rw [Derivation.tokens, List.append_assoc]
    exact reads_factorial hb h.2 (ih h.1)
  | number t v ht => exact reads_number ht
  | name t ht => exact reads_name ht h
  | group o c ho hc e ih =>
    rw [Derivation.tokens, List.cons_append, List.append_assoc, List.singleton_append]
    exact reads_group ho hc h.1 (ih h.2)
  | call f o c hf ho hc arg ih =>
    rw [Derivation.tokens, List.cons_append, List.cons_append, List.append_assoc,
      List.singleton_append]
    exact reads_call hf ho hc h.1 (head?_ne_rparen arg _) (ih h.2)
  | callTwo f o m c hf ho hm hc arg arg' ih ih' =>
    have h₂ := ih' h.2.2
    simp only [Derivation.tokens, List.cons_append, List.append_assoc, List.nil_append]
    exact reads_callTwo hf ho hm hc h.1 (head?_ne_rparen arg _) (ih h.2.1) h₂

end Abacus.Grammar
