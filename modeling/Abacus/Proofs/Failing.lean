import Mathlib.Tactic.Common
import Abacus.Proofs.Reading

/-!
How the reader fails: by one lemma for each rule and each part of it, a rule fails where a part of
it does, and a call and a closing parenthesis fail in no other ways than those listed.
-/

namespace Abacus.Grammar

variable (g : Grammar) {n : ℕ} {ts rest : List Token} {t : Token} {f : Failure}

/-- By the rule `r` the reader fails on `ts` at level `n`. -/
def Fails (n : ℕ) (ts : List Token) : (r : Rule) → Prop
  | .sum => ∃ f, g.sum n ts = .error f
  | .sumTail => ∀ all left h, ∃ f, g.sumFrom n all ⟨left, ts, h⟩ = .error f
  | .product => ∃ f, g.product n ts = .error f
  | .productTail => ∀ all left h, ∃ f, g.productFrom n all ⟨left, ts, h⟩ = .error f
  | .signed => ∃ f, g.signed n ts = .error f
  | .power => ∃ f, g.power n ts = .error f
  | .factorial => ∃ f, g.factorial n ts = .error f
  | .operand => ∃ f, g.operand n ts = .error f

variable {g}

/-! ### What goes on after a failure -/

lemma error_of_reading {ts' : List Token} {x : Result ts'} {k : Reading ts' → Result ts}
    (h : (match x with | .error f => .error f | .ok p => k p) = Except.error f) :
    x = .error f ∨ ∃ a mid hlt, x = .ok ⟨a, mid, hlt⟩ ∧ k ⟨a, mid, hlt⟩ = .error f := by
  cases x with
  | error _ => exact .inl (by simpa using h)
  | ok p => exact .inr ⟨p.tree, p.rest, p.shorter, rfl, h⟩

lemma enter_of_not_lt (hn : ¬ n < maxDepth) : enter n t = .error ⟨.tooDeep, t.pos⟩ := by
  simp [enter, hn]

lemma error_of_enter {k : ℕ → Result ts}
    (h : (match enter n t with | .error f => .error f | .ok m => k m) = Except.error f) :
    (¬ n < maxDepth ∧ f = ⟨.tooDeep, t.pos⟩) ∨ (n < maxDepth ∧ k (n + 1) = .error f) := by
  by_cases hn : n < maxDepth
  · rw [enter_of_lt hn] at h
    exact .inr ⟨hn, h⟩
  · rw [enter_of_not_lt hn] at h
    exact .inl ⟨hn, by simpa using h.symm⟩

/-- No closing parenthesis comes next. -/
def Unclosed (rest : List Token) : Prop := ∀ c ∈ rest.head?, c.kind ≠ .rparen

lemma error_of_closing {p : Reading ts} (h : g.closing p = .error f) :
    f.pos = g.placeOf p.rest ∧ Unclosed p.rest := by
  obtain ⟨e, rest, hlt⟩ := p
  cases rest with
  | nil =>
    simp only [closing, Except.error.injEq] at h
    subst h
    exact ⟨rfl, by simp [Unclosed]⟩
  | cons c rest =>
    by_cases hc : c.kind = .rparen
    · simp [closing, hc] at h
    · simp only [closing, hc, if_false, Except.error.injEq] at h
      subst h
      exact ⟨rfl, by simpa [Unclosed] using hc⟩

lemma exists_closing_error {p : Reading ts} (h : Unclosed p.rest) :
    ∃ f, g.closing p = .error f := by
  obtain ⟨e, rest, hlt⟩ := p
  cases rest with
  | nil => exact ⟨_, rfl⟩
  | cons c rest =>
    have hc : c.kind ≠ .rparen := by simpa [Unclosed] using h
    exact ⟨⟨.expectedClosing (some c), c.pos⟩, by simp only [closing, hc, if_false]⟩

lemma unclosed_congr {ext : List Token} (h : ext.head? = rest.head?) (hr : Unclosed rest) :
    Unclosed ext := by
  rwa [Unclosed, h]

/-! ### Calls -/

section Calls

variable {c m o : Token} {mid : List Token} {e : Expr}

lemma fails_of_call (ht : t.kind = .ident) (ho : o.kind = .lparen)
    (h : ∃ f, g.call n t o ts = .error f) : g.Fails n (t :: o :: ts) .operand := by
  obtain ⟨f, hf⟩ := h
  exact ⟨f, operand_error_of_call ht ho hf⟩

lemma call_empty (hc : c.kind = .rparen) :
    g.call n t o (c :: ts) = .error ⟨.noArguments t.text, c.pos⟩ := by
  rw [call]
  simp [hc, placeOf]

/-- An empty call and one with no level left fail by themselves. -/
lemma exists_call_error
    (h : n < maxDepth → ts.head?.any (·.kind = .rparen) = false → ∃ f, g.call n t o ts = .error f) :
    ∃ f, g.call n t o ts = .error f := by
  cases hh : ts.head?.any (·.kind = .rparen) with
  | true => exact ⟨_, by rw [call, hh, if_pos rfl]⟩
  | false =>
    by_cases hn : n < maxDepth
    · exact h hn hh
    · exact ⟨⟨.tooDeep, o.pos⟩, by
        rw [call, hh, enter_of_not_lt hn]; simp only [Bool.false_eq_true, if_false]⟩

lemma call_sum_error (h : g.Fails (n + 1) ts .sum) : ∃ f, g.call n t o ts = .error f := by
  obtain ⟨f, hs⟩ := h
  refine exists_call_error fun hn hh => ⟨f, ?_⟩
  rw [call, hh]
  simp only [Bool.false_eq_true, if_false, enter_of_lt hn, hs]

/-- After the first argument neither a comma nor the closing parenthesis comes. -/
lemma call_first_error (h : g.Reads (n + 1) ts rest .sum e) (hr : Unclosed rest)
    (hm : ∀ m ∈ rest.head?, m.kind ≠ .comma) : ∃ f, g.call n t o ts = .error f := by
  obtain ⟨hlt, hs⟩ := h
  refine exists_call_error fun hn hh => ?_
  obtain ⟨f, hf⟩ := exists_closing_error (g := g) (p := ⟨.call t.text t.pos [e], rest, hlt⟩) hr
  refine ⟨f, ?_⟩
  rw [call, hh]
  simp only [Bool.false_eq_true, if_false, enter_of_lt hn, hs]
  cases rest with
  | nil => exact hf
  | cons m rest =>
    have hk : m.kind ≠ .comma := by simpa using hm
    simp only [hk, if_false]
    exact hf

lemma call_second_error (h : g.Reads (n + 1) ts (m :: mid) .sum e) (hm : m.kind = .comma)
    (hs' : g.Fails (n + 1) mid .sum) : ∃ f, g.call n t o ts = .error f := by
  obtain ⟨⟨hlt, hs⟩, f, hs'⟩ := h, hs'
  refine exists_call_error fun hn hh => ⟨f, ?_⟩
  rw [call, hh]
  simp only [Bool.false_eq_true, if_false, enter_of_lt hn, hs, hm, if_true, hs']

lemma call_closing_error {e' : Expr} (h : g.Reads (n + 1) ts (m :: mid) .sum e)
    (hm : m.kind = .comma) (h' : g.Reads (n + 1) mid rest .sum e') (hr : Unclosed rest) :
    ∃ f, g.call n t o ts = .error f := by
  obtain ⟨⟨hlt, hs⟩, hlt', hs'⟩ := h, h'
  refine exists_call_error fun hn hh => ?_
  have hall : rest.length < ts.length := by simp only [List.length_cons] at hlt; omega
  obtain ⟨f, hf⟩ :=
    exists_closing_error (g := g) (p := ⟨.call t.text t.pos [e, e'], rest, hall⟩) hr
  rw [call, hh]
  simp only [Bool.false_eq_true, if_false, enter_of_lt hn, hs, hm, if_true, hs']
  split
  · exact ⟨_, rfl⟩
  · exact ⟨f, hf⟩

/-- The ways in which a call fails. -/
lemma error_of_call (h : g.call n t o ts = .error f) :
    (∃ c post, ts = c :: post ∧ c.kind = .rparen ∧ f = ⟨.noArguments t.text, c.pos⟩) ∨
      (¬ n < maxDepth ∧ f = ⟨.tooDeep, o.pos⟩) ∨
      n < maxDepth ∧
        (g.sum (n + 1) ts = .error f ∨
          ∃ e rest, g.Reads (n + 1) ts rest .sum e ∧
            ((f.pos = g.placeOf rest ∧ Unclosed rest ∧ ∀ m ∈ rest.head?, m.kind ≠ .comma) ∨
              ∃ m mid, rest = m :: mid ∧ m.kind = .comma ∧
                (g.sum (n + 1) mid = .error f ∨
                  ∃ e' rest', g.Reads (n + 1) mid rest' .sum e' ∧ f.pos = g.placeOf rest' ∧
                    Unclosed rest'))) := by
  rw [call] at h
  split at h
  · rename_i hh
    cases ts with
    | nil => simp at hh
    | cons c post =>
      simp only [placeOf, Except.error.injEq] at h
      -- no argument
      exact .inl ⟨c, post, rfl, by simpa using hh, h.symm⟩
  rcases error_of_enter h with ⟨hn, rfl⟩ | ⟨hn, h⟩
  · exact .inr (.inl ⟨hn, rfl⟩)
  refine .inr (.inr ⟨hn, ?_⟩)
  cases hs : g.sum (n + 1) ts with
  | error f' => exact .inl (by simpa [hs] using h)
  | ok p =>
    obtain ⟨e, rest, hlt⟩ := p
    simp only [hs] at h
    refine .inr ⟨e, rest, ⟨hlt, hs⟩, ?_⟩
    cases rest with
    | nil =>
      -- the tokens end in the first argument
      obtain ⟨hp, hr⟩ := error_of_closing h
      exact .inl ⟨hp, hr, by simp⟩
    | cons m mid =>
      simp only at h
      split at h
      · rename_i hm
        -- a comma, so there is a second argument
        refine .inr ⟨m, mid, rfl, hm, ?_⟩
        cases hs' : g.sum (n + 1) mid with
        | error f' => exact .inl (by simpa [hs'] using h)
        | ok p' =>
          obtain ⟨e', rest', hlt'⟩ := p'
          simp only [hs'] at h
          refine .inr ⟨e', rest', ⟨hlt', hs'⟩, ?_⟩
          split at h
          · -- a second comma is in the place of the parenthesis
            rename_i hc
            cases rest' with
            | nil => simp at hc
            | cons c rest' =>
              simp only [Except.error.injEq] at h
              subst h
              have hk : c.kind = .comma := by simpa using hc
              exact ⟨rfl, by simp [Unclosed, hk]⟩
          · exact error_of_closing h
      · -- another token in the place of the parenthesis
        rename_i hm
        obtain ⟨hp, hr⟩ := error_of_closing h
        exact .inl ⟨hp, hr, by simpa using hm⟩

end Calls

/-! ### Failures of the other rules -/

variable {mid : List Token} {e : Expr}

lemma operand_nil : g.operand n [] = .error ⟨.unexpected none, g.stop⟩ := by rw [operand]

lemma operand_unexpected (h : startsOperand t.kind = false) :
    g.operand n (t :: ts) = .error ⟨.unexpected (some t), t.pos⟩ := by
  rw [operand.eq_def]
  cases hk : t.kind <;> simp_all [startsOperand]

lemma fails_group_enter (ht : t.kind = .lparen) (hn : ¬ n < maxDepth) :
    g.Fails n (t :: ts) .operand :=
  ⟨⟨.tooDeep, t.pos⟩, by rw [operand.eq_def]; simp only [ht, enter_of_not_lt hn]⟩

lemma fails_group (ht : t.kind = .lparen) (hn : n < maxDepth) (h : g.Fails (n + 1) ts .sum) :
    g.Fails n (t :: ts) .operand := by
  obtain ⟨f, hs⟩ := h
  exact ⟨f, by rw [operand.eq_def]; simp only [ht, enter_of_lt hn, hs]⟩

lemma fails_group_closing (ht : t.kind = .lparen) (hn : n < maxDepth)
    (h : g.Reads (n + 1) ts rest .sum e) (hr : Unclosed rest) : g.Fails n (t :: ts) .operand := by
  obtain ⟨hlt, hs⟩ := h
  obtain ⟨f, hf⟩ := exists_closing_error (g := g)
    (p := (⟨e, rest, hlt.trans (Nat.lt_succ_self _)⟩ : Reading (t :: ts))) hr
  exact ⟨f, by rw [operand.eq_def]; simp only [ht, enter_of_lt hn, hs]; exact hf⟩

lemma fails_factorial (h : g.Fails n ts .operand) : g.Fails n ts .factorial := by
  obtain ⟨f, hf⟩ := h
  exact ⟨f, by rw [factorial, hf]⟩

lemma fails_base (h : g.Fails n ts .factorial) : g.Fails n ts .power := by
  obtain ⟨f, hf⟩ := h
  exact ⟨f, by rw [power, hf]⟩

lemma fails_raised_enter (ht : t.kind = .caret) (hn : ¬ n < maxDepth)
    (h : g.Reads n ts (t :: mid) .factorial e) : g.Fails n ts .power := by
  obtain ⟨hlt, hf⟩ := h
  exact ⟨⟨.tooDeep, t.pos⟩, by rw [power, hf]; simp only [ht, if_true, enter_of_not_lt hn]⟩

lemma fails_raised (ht : t.kind = .caret) (hn : n < maxDepth)
    (h : g.Reads n ts (t :: mid) .factorial e) (hx : g.Fails (n + 1) mid .signed) :
    g.Fails n ts .power := by
  obtain ⟨⟨hlt, hf⟩, f, hs⟩ := h, hx
  exact ⟨f, by rw [power, hf]; simp only [ht, if_true, enter_of_lt hn, hs]⟩

lemma fails_unsigned (ht : ∀ t ∈ ts.head?, sign? t.kind = none) (h : g.Fails n ts .power) :
    g.Fails n ts .signed := by
  obtain ⟨f, hf⟩ := h
  refine ⟨f, ?_⟩
  cases ts with
  | nil => rw [signed, hf]
  | cons t ts => rw [signed, ht t rfl]; exact hf

lemma fails_sign_enter {s : Sign} (ht : sign? t.kind = some s) (hn : ¬ n < maxDepth) :
    g.Fails n (t :: ts) .signed :=
  ⟨⟨.tooDeep, t.pos⟩, by rw [signed, ht]; simp only [enter_of_not_lt hn]⟩

lemma fails_sign {s : Sign} (ht : sign? t.kind = some s) (hn : n < maxDepth)
    (h : g.Fails (n + 1) ts .signed) : g.Fails n (t :: ts) .signed := by
  obtain ⟨f, hf⟩ := h
  exact ⟨f, by rw [signed, ht]; simp only [enter_of_lt hn, hf]⟩

/-! ### Failures of chains -/

lemma fails_productLink {op : Operator} (ht : productOperator? t.kind = some op)
    (h : g.Fails n ts .signed) : g.Fails n (t :: ts) .productTail := by
  obtain ⟨f, hf⟩ := h
  exact fun all left hlt => ⟨f, by rw [productFrom, ht]; simp only [hf]⟩

lemma fails_productLink_tail {op : Operator} (ht : productOperator? t.kind = some op)
    (h : g.Reads n ts mid .signed e) (h' : g.Fails n mid .productTail) :
    g.Fails n (t :: ts) .productTail := by
  obtain ⟨hs, hf⟩ := h
  intro all left hlt
  have hmid : mid.length < all.length := by simp only [List.length_cons] at hlt; omega
  obtain ⟨f, hf'⟩ := h' all (.binary op left e) hmid
  exact ⟨f, by rw [productFrom, ht]; simp only [hf]; exact hf'⟩

lemma fails_missing (hi : g.implied = false) (ht : startsOperand t.kind = true) :
    g.Fails n (t :: ts) .productTail := by
  have hop : productOperator? t.kind = none := (clear_of_startsOperand ht).2.2.1
  exact fun all left hlt => ⟨⟨.missingOperator t, t.pos⟩, by
    rw [productFrom, hop]; simp only [ht, hi, if_true, Bool.false_eq_true, if_false]⟩

lemma fails_neighbour (hi : g.implied = true) (ht : startsOperand t.kind = true)
    (h : g.Fails n (t :: ts) .power) : g.Fails n (t :: ts) .productTail := by
  have hop : productOperator? t.kind = none := (clear_of_startsOperand ht).2.2.1
  obtain ⟨f, hf⟩ := h
  exact fun all left hlt => ⟨f, by rw [productFrom, hop]; simp only [ht, hi, if_true, hf]⟩

lemma fails_neighbour_tail (hi : g.implied = true) (ht : startsOperand t.kind = true)
    (h : g.Reads n (t :: ts) mid .power e) (h' : g.Fails n mid .productTail) :
    g.Fails n (t :: ts) .productTail := by
  have hop : productOperator? t.kind = none := (clear_of_startsOperand ht).2.2.1
  obtain ⟨hs, hf⟩ := h
  intro all left hlt
  obtain ⟨f, hf'⟩ := h' all (.binary .implied left e) (hs.trans hlt)
  exact ⟨f, by rw [productFrom, hop]; simp only [ht, hi, if_true, hf]; exact hf'⟩

lemma fails_product (h : g.Fails n ts .signed) : g.Fails n ts .product := by
  obtain ⟨f, hf⟩ := h
  exact ⟨f, by rw [product, hf]⟩

lemma fails_product_tail (h : g.Reads n ts mid .signed e) (h' : g.Fails n mid .productTail) :
    g.Fails n ts .product := by
  obtain ⟨hs, hf⟩ := h
  obtain ⟨f, hf'⟩ := h' ts e hs
  exact ⟨f, by rw [product, hf]; exact hf'⟩

lemma fails_sumLink {op : Operator} (ht : sumOperator? t.kind = some op)
    (h : g.Fails n ts .product) : g.Fails n (t :: ts) .sumTail := by
  obtain ⟨f, hf⟩ := h
  exact fun all left hlt => ⟨f, by rw [sumFrom, ht]; simp only [hf]⟩

lemma fails_sumLink_tail {op : Operator} (ht : sumOperator? t.kind = some op)
    (h : g.Reads n ts mid .product e) (h' : g.Fails n mid .sumTail) :
    g.Fails n (t :: ts) .sumTail := by
  obtain ⟨hs, hf⟩ := h
  intro all left hlt
  have hmid : mid.length < all.length := by simp only [List.length_cons] at hlt; omega
  obtain ⟨f, hf'⟩ := h' all (.binary op left e) hmid
  exact ⟨f, by rw [sumFrom, ht]; simp only [hf]; exact hf'⟩

lemma fails_sum (h : g.Fails n ts .product) : g.Fails n ts .sum := by
  obtain ⟨f, hf⟩ := h
  exact ⟨f, by rw [sum, hf]⟩

lemma fails_sum_tail (h : g.Reads n ts mid .product e) (h' : g.Fails n mid .sumTail) :
    g.Fails n ts .sum := by
  obtain ⟨hs, hf⟩ := h
  obtain ⟨f, hf'⟩ := h' ts e hs
  exact ⟨f, by rw [sum, hf]; exact hf'⟩

end Abacus.Grammar
