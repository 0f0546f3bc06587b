import Abacus.Proofs.ExactGrammar
import Abacus.Proofs.ImpliedProducts

/-!
A product of neighbours is a product whose star is left out. Where stars are put back before the
right operands of all such products, the tokens are read with and without the rule for neighbours,
and both times as the same tree with its products written.
-/

namespace Abacus.Proofs.WrittenProducts

open Grammar PlainWalk

/-! ### Trees -/

mutual

/-- The tree with each product of neighbours as a written product. -/
def explicit : Expr → Expr
  | .number v => .number v
  | .reference name pos => .reference name pos
  | .binary op l r => .binary (if op = .implied then .mul else op) (explicit l) (explicit r)
  | .signed s e => .signed s (explicit e)
  | .factorial e => .factorial (explicit e)
  | .call name pos args => .call name pos (explicitAll args)

def explicitAll : List Expr → List Expr
  | [] => []
  | e :: rest => explicit e :: explicitAll rest

end

lemma apply_explicit (s : Scope) (op : Operator) :
    s.apply (if op = .implied then .mul else op) = s.apply op := by
  cases op <;> rfl

mutual

lemma plain_explicit (s : Scope) (e : Expr) : plain s (explicit e) = plain s e := by
  match e with
  | .number v => rfl
  | .reference name _ => rfl
  | .binary op l r =>
    simp only [explicit, plain, plain_explicit s l, plain_explicit s r, apply_explicit]
  | .signed sign e => simp only [explicit, plain, plain_explicit s e]
  | .factorial e => simp only [explicit, plain, plain_explicit s e]
  | .call name _ args => simp only [explicit, plain, plainAll_explicit s args]

lemma plainAll_explicit (s : Scope) (es : List Expr) :
    plainAll s (explicitAll es) = plainAll s es := by
  match es with
  | [] => rfl
  | e :: rest => simp only [explicitAll, plainAll, plain_explicit s e, plainAll_explicit s rest]

end

/-- A written product is the product of the neighbours. -/
lemma outcome_explicit (s : Scope) (e : Expr) : s.outcome (explicit e) = s.outcome e := by
  rw [Scope.outcome, Scope.outcome, eval_eq, eval_eq, plain_explicit]

/-! ### Tokens -/

def markFirst : List (Token × Bool) → List (Token × Bool)
  | [] => []
  | (t, _) :: ms => (t, true) :: ms

/-- The tokens of a derivation; those that begin the right operand of a product of neighbours are
marked. -/
def marks {r : Rule} : Derivation true r → List (Token × Bool)
  | .sum first tail => marks first ++ marks tail
  | .sumEnd => []
  | .sumLink t _ _ term tail => (t, false) :: (marks term ++ marks tail)
  | .product first tail => marks first ++ marks tail
  | .productEnd => []
  | .productLink t _ _ factor tail => (t, false) :: (marks factor ++ marks tail)
  | .neighbour _ factor tail => markFirst (marks factor) ++ marks tail
  | .sign t _ _ e => (t, false) :: marks e
  | .unsigned e => marks e
  | .base e => marks e
  | .raised e t _ exponent => marks e ++ (t, false) :: marks exponent
  | .factorial e bangs _ => marks e ++ bangs.map (·, false)
  | .number t _ _ => [(t, false)]
  | .name t _ => [(t, false)]
  | .group o c _ _ e => (o, false) :: (marks e ++ [(c, false)])
  | .call f o c _ _ _ arg => (f, false) :: (o, false) :: (marks arg ++ [(c, false)])
  | .callTwo f o m c _ _ _ _ arg arg' =>
    (f, false) :: (o, false) :: (marks arg ++ (m, false) :: (marks arg' ++ [(c, false)]))

/-- A star of any sort has been put right before each marked token, and nothing else. -/
inductive Starred : List (Token × Bool) → List Token → Prop
  | nil : Starred [] []
  | plain {t ms us} (h : Starred ms us) : Starred ((t, false) :: ms) (t :: us)
  | star {t ms us} (s : Token) (hs : s.kind = .star) (h : Starred ms us) :
      Starred ((t, true) :: ms) (s :: t :: us)

variable {r : Rule} {ms ns : List (Token × Bool)} {us : List Token} {t : Token}

lemma starred_nil (h : Starred [] us) : us = [] := by
  cases h
  rfl

lemma starred_cons (h : Starred ((t, false) :: ms) us) : ∃ vs, Starred ms vs ∧ us = t :: vs := by
  cases h with
  | plain h => exact ⟨_, h, rfl⟩

lemma starred_marked (h : Starred ((t, true) :: ms) us) :
    ∃ s vs, s.kind = .star ∧ Starred ms vs ∧ us = s :: t :: vs := by
  cases h with
  | star s hs h => exact ⟨s, _, hs, h, rfl⟩

lemma starred_append (h : Starred (ms ++ ns) us) :
    ∃ vs ws, Starred ms vs ∧ Starred ns ws ∧ us = vs ++ ws := by
  induction ms generalizing us with
  | nil => exact ⟨[], us, .nil, h, rfl⟩
  | cons m ms ih =>
    obtain ⟨t, b⟩ := m
    cases h with
    | plain h =>
      obtain ⟨vs, ws, hv, hw, rfl⟩ := ih h
      exact ⟨t :: vs, ws, .plain hv, hw, rfl⟩
    | star s hs h =>
      obtain ⟨vs, ws, hv, hw, rfl⟩ := ih h
      exact ⟨s :: t :: vs, ws, .star s hs hv, hw, rfl⟩

lemma starred_bangs {bangs : List Token} (h : Starred (bangs.map (·, false)) us) : us = bangs := by
  induction bangs generalizing us with
  | nil => exact starred_nil h
  | cons b bangs ih =>
    obtain ⟨vs, hv, rfl⟩ := starred_cons h
    rw [ih hv]

/-- Stars can always be put in. -/
lemma exists_starred (ms : List (Token × Bool)) : ∃ us, Starred ms us := by
  induction ms with
  | nil => exact ⟨[], .nil⟩
  | cons m ms ih =>
    obtain ⟨⟨t, b⟩, us, h⟩ := m, ih
    cases b with
    | false => exact ⟨_, .plain h⟩
    | true => exact ⟨_, .star ⟨.star, "*", t.pos⟩ rfl h⟩

lemma fst_markFirst (ms : List (Token × Bool)) : (markFirst ms).map (·.1) = ms.map (·.1) := by
  cases ms <;> rfl

lemma fst_marks (d : Derivation true r) : (marks d).map (·.1) = d.tokens := by
  induction d with
  | _ => simp [marks, Derivation.tokens, fst_markFirst, Function.comp_def, *]

/-- What has no sign before it begins with a token that has no mark. -/
lemma exists_marks_cons (d : Derivation true r)
    (h : r = .power ∨ r = .factorial ∨ r = .operand) :
    ∃ t ms, marks d = (t, false) :: ms ∧ startsOperand t.kind = true := by
  induction d with
  | base e ih => exact ih (by simp)
  | raised e t _ x ih _ =>
    obtain ⟨a, ms, ha, hk⟩ := ih (by simp)
    exact ⟨a, _, by rw [marks, ha]; rfl, hk⟩
  | factorial e bangs _ ih =>
    obtain ⟨a, ms, ha, hk⟩ := ih (by simp)
    exact ⟨a, _, by rw [marks, ha]; rfl, hk⟩
  | number t v hk => exact ⟨t, [], rfl, by simp [hk, startsOperand]⟩
  | name t hk => exact ⟨t, [], rfl, by simp [hk, startsOperand]⟩
  | group o c ho _ e => exact ⟨o, _, rfl, by simp [ho, startsOperand]⟩
  | call f o c hf => exact ⟨f, _, rfl, by simp [hf, startsOperand]⟩
  | callTwo f o m c hf => exact ⟨f, _, rfl, by simp [hf, startsOperand]⟩
  | _ => simp at h

/-- A marked token begins an operand. -/
lemma startsOperand_of_marked (d : Derivation true r) :
    ∀ m ∈ marks d, m.2 = true → startsOperand m.1.kind = true := by
  induction d with
  | neighbour h factor tail ihf iht =>
    obtain ⟨t, ms, hms, hk⟩ := exists_marks_cons factor (Or.inl rfl)
    rw [hms] at ihf
    simp only [marks, hms, markFirst, List.cons_append, List.mem_cons, List.mem_append]
    grind
  | _ =>
    simp only [marks, List.mem_append, List.mem_cons, List.mem_map]
    grind

/-! ### Derivations -/

/-- The token after `rest'` is the one after `rest`, or a star where an operand begins. -/
def Follows (rest rest' : List Token) : Prop :=
  rest'.head? = rest.head? ∨
    (∃ t ∈ rest.head?, startsOperand t.kind = true) ∧ ∃ s ∈ rest'.head?, s.kind = .star

lemma clear_of_follows {p : Token.Kind → Bool} {rest rest' : List Token} (hp : p .star = false)
    (h : Follows rest rest') (hc : Clear p rest) : Clear p rest' := by
  rcases h with h | ⟨-, s, hs, hk⟩
  · rwa [Clear, h]
  · intro t ht
    obtain rfl := Option.mem_unique hs ht
    rw [hk, hp]

/-- A product that has ended is followed by the same token. -/
lemma clear_extendsProduct_of_follows {rest rest' : List Token} (h : Follows rest rest')
    (hc : Clear extendsProduct rest) : Clear extendsProduct rest' := by
  rcases h with h | ⟨⟨t, ht, hk⟩, -⟩
  · rwa [Clear, h]
  · have hx := hc t ht
    simp [extendsProduct, hk] at hx

lemma follows_cons (t : Token) {rest rest' : List Token} : Follows (t :: rest) (t :: rest') :=
  .inl rfl

lemma follows_append {rest rest' : List Token}
    (hm : ∀ m ∈ ms, m.2 = true → startsOperand m.1.kind = true) (hs : Starred ms us)
    (h : Follows rest rest') : Follows (ms.map (·.1) ++ rest) (us ++ rest') := by
  cases hs with
  | nil => exact h
  | plain _ => exact .inl rfl
  | star s hk _ => exact .inr ⟨⟨_, rfl, hm _ (by simp) rfl⟩, s, rfl, hk⟩

lemma follows_tokens (d : Derivation true r) {rest rest' : List Token} (hs : Starred (marks d) us)
    (h : Follows rest rest') : Follows (d.tokens ++ rest) (us ++ rest') := by
  rw [← fst_marks]
  exact follows_append (startsOperand_of_marked d) hs h

/-- The same trees but for the products of neighbours, which are written in the second. -/
def Agrees : (r : Rule) → r.Yield → r.Yield → Prop
  | .sumTail, f, f' => ∀ left, f' (explicit left) = explicit (f left)
  | .productTail, f, f' => ∀ left, f' (explicit left) = explicit (f left)
  | .sum, e, e' => e' = explicit e
  | .product, e, e' => e' = explicit e
  | .signed, e, e' => e' = explicit e
  | .power, e, e' => e' = explicit e
  | .factorial, e, e' => e' = explicit e
  | .operand, e, e' => e' = explicit e

lemma explicit_bangs (bangs : List Token) (e : Expr) :
    bangs.foldl (fun left _ => .factorial left) (explicit e) =
      explicit (bangs.foldl (fun left _ => .factorial left) e) := by
  induction bangs generalizing e with
  | nil => rfl
  | cons b bangs ih => exact ih (.factorial e)

lemma explicit_sum {k : Token.Kind} {op : Operator} (h : sumOperator? k = some op) (l e : Expr) :
    explicit (.binary op l e) = .binary op (explicit l) (explicit e) := by
  have hop : op ≠ .implied := by
    rintro rfl
    cases k <;> simp [sumOperator?] at h
  rw [explicit, if_neg hop]

lemma explicit_product {k : Token.Kind} {op : Operator} (h : productOperator? k = some op)
    (l e : Expr) : explicit (.binary op l e) = .binary op (explicit l) (explicit e) := by
  have hop : op ≠ .implied := by
    rintro rfl
    cases k <;> simp [productOperator?] at h
  rw [explicit, if_neg hop]

/-- The tokens with stars have a derivation that writes the products, and it fits wherever the first
one did. -/
lemma exists_written (d : Derivation true r) (hs : Starred (marks d) us) :
    ∃ d' : Derivation false r, d'.tokens = us ∧ Agrees r d.tree d'.tree ∧
      ∀ n rest rest', Follows rest rest' → d.Fits n rest → d'.Fits n rest' := by
  induction d generalizing us with
  | sum first tail ihf iht =>
    obtain ⟨vs, ws, hv, hw, rfl⟩ := starred_append hs
    obtain ⟨f', rfl, hf, hff⟩ := ihf hv
    obtain ⟨t', rfl, ht, htf⟩ := iht hw
    refine ⟨.sum f' t', rfl, ?_, fun n rest rest' hr h => ?_⟩
    · simp only [Agrees, Derivation.tree] at hf ht ⊢
      rw [hf, ht]
    · exact ⟨hff _ _ _ (follows_tokens tail hw hr) h.1, htf _ _ _ hr h.2⟩
  | sumEnd =>
    obtain rfl := starred_nil hs
    exact ⟨.sumEnd, rfl, fun left => rfl, fun n rest rest' hr h => clear_of_follows rfl hr h⟩
  | sumLink t op hop term tail ihf iht =>
    obtain ⟨us₁, hs₁, rfl⟩ := starred_cons hs
    obtain ⟨vs, ws, hv, hw, rfl⟩ := starred_append hs₁
    obtain ⟨f', rfl, hf, hff⟩ := ihf hv
    obtain ⟨t', rfl, ht, htf⟩ := iht hw
    refine ⟨.sumLink t op hop f' t', rfl, fun left => ?_, fun n rest rest' hr h => ?_⟩
    · simp only [Agrees, Derivation.tree] at hf ht ⊢
      rw [hf, ← explicit_sum hop, ht]
    · exact ⟨hff _ _ _ (follows_tokens tail hw hr) h.1, htf _ _ _ hr h.2⟩
  | product first tail ihf iht =>
    obtain ⟨vs, ws, hv, hw, rfl⟩ := starred_append hs
    obtain ⟨f', rfl, hf, hff⟩ := ihf hv
    obtain ⟨t', rfl, ht, htf⟩ := iht hw
    refine ⟨.product f' t', rfl, ?_, fun n rest rest' hr h => ?_⟩
    · simp only [Agrees, Derivation.tree] at hf ht ⊢
      rw [hf, ht]
    · exact ⟨hff _ _ _ (follows_tokens tail hw hr) h.1, htf _ _ _ hr h.2⟩
  | productEnd =>
    obtain rfl := starred_nil hs
    exact ⟨.productEnd, rfl, fun left => rfl,
      fun n rest rest' hr h => clear_extendsProduct_of_follows hr h⟩
  | productLink t op hop factor tail ihf iht =>
    obtain ⟨us₁, hs₁, rfl⟩ := starred_cons hs
    obtain ⟨vs, ws, hv, hw, rfl⟩ := starred_append hs₁
    obtain ⟨f', rfl, hf, hff⟩ := ihf hv
    obtain ⟨t', rfl, ht, htf⟩ := iht hw
    refine ⟨.productLink t op hop f' t', rfl, fun left => ?_, fun n rest rest' hr h => ?_⟩
    · simp only [Agrees, Derivation.tree] at hf ht ⊢
      rw [hf, ← explicit_product hop, ht]
    · exact ⟨hff _ _ _ (follows_tokens tail hw hr) h.1, htf _ _ _ hr h.2⟩
  | neighbour hi factor tail ihf iht =>
    -- the star becomes the operator of a link whose factor has no sign
    obtain ⟨t, ms, hms, -⟩ := exists_marks_cons factor (Or.inl rfl)
    rw [marks, hms, markFirst, List.cons_append] at hs
    obtain ⟨s, us₁, hk, hs₁, rfl⟩ := starred_marked hs
    obtain ⟨vs, ws, hv, hw, rfl⟩ := starred_append hs₁
    rw [hms] at ihf
    obtain ⟨f', hft, hf, hff⟩ := ihf (.plain hv)
    obtain ⟨t', rfl, ht, htf⟩ := iht hw
    have hop : productOperator? s.kind = some .mul := by rw [hk]; rfl
    refine ⟨.productLink s .mul hop (.unsigned f') t', ?_, fun left => ?_,
      fun n rest rest' hr h => ?_⟩
    · simp only [Derivation.tokens, hft, List.cons_append]
    · simp only [Agrees, Derivation.tree] at hf ht ⊢
      rw [hf, ← ht]
      rfl
    · exact ⟨hff _ _ _ (follows_tokens tail hw hr) h.1, htf _ _ _ hr h.2⟩
  | sign t s hk e ih =>
    obtain ⟨us₁, hs₁, rfl⟩ := starred_cons hs
    obtain ⟨e', rfl, he, hef⟩ := ih hs₁
    refine ⟨.sign t s hk e', rfl, ?_, fun n rest rest' hr h => ⟨h.1, hef _ _ _ hr h.2⟩⟩
    simp only [Agrees, Derivation.tree] at he ⊢
    rw [he, explicit]
  | unsigned e ih =>
    obtain ⟨e', rfl, he, hef⟩ := ih hs
    exact ⟨.unsigned e', rfl, he, hef⟩
  | base e ih =>
    obtain ⟨e', rfl, he, hef⟩ := ih hs
    exact ⟨.base e', rfl, he,
      fun n rest rest' hr h => ⟨hef _ _ _ hr h.1, clear_of_follows rfl hr h.2⟩⟩
  | raised e t hk x ihe ihx =>
    obtain ⟨vs, ws, hv, hw, rfl⟩ := starred_append hs
    obtain ⟨ws₁, hw₁, rfl⟩ := starred_cons hw
    obtain ⟨e', rfl, he, hef⟩ := ihe hv
    obtain ⟨x', rfl, hx, hxf⟩ := ihx hw₁
    refine ⟨.raised e' t hk x', rfl, ?_, fun n rest rest' hr h => ?_⟩
    · simp only [Agrees, Derivation.tree] at he hx ⊢
      rw [he, hx, explicit, if_neg (by decide)]
    · -- the operator follows the base in both, so no star comes between
      exact ⟨hef _ _ _ (follows_cons t) h.1, h.2.1, hxf _ _ _ hr h.2.2⟩
  | factorial e bangs hb ih =>
    obtain ⟨vs, ws, hv, hw, rfl⟩ := starred_append hs
    obtain rfl := starred_bangs hw
    obtain ⟨e', rfl, he, hef⟩ := ih hv
    refine ⟨.factorial e' ws hb, rfl, ?_, fun n rest rest' hr h => ?_⟩
    · simp only [Agrees, Derivation.tree] at he ⊢
      rw [he, explicit_bangs]
    · refine ⟨hef _ _ _ ?_ h.1, clear_of_follows rfl hr h.2⟩
      cases ws with
      | nil => exact hr
      | cons b ws => exact .inl rfl
  | number t v hk =>
    obtain ⟨us₁, hs₁, rfl⟩ := starred_cons hs
    obtain rfl := starred_nil hs₁
    exact ⟨.number t v hk, rfl, rfl, fun _ _ _ _ _ => trivial⟩
  | name t hk =>
    obtain ⟨us₁, hs₁, rfl⟩ := starred_cons hs
    obtain rfl := starred_nil hs₁
    exact ⟨.name t hk, rfl, rfl, fun n rest rest' hr h => clear_of_follows rfl hr h⟩
  | group o c ho hc e ih =>
    obtain ⟨us₁, hs₁, rfl⟩ := starred_cons hs
    obtain ⟨vs, ws, hv, hw, rfl⟩ := starred_append hs₁
    obtain ⟨ws₁, hw₁, rfl⟩ := starred_cons hw
    obtain rfl := starred_nil hw₁
    obtain ⟨e', rfl, he, hef⟩ := ih hv
    exact ⟨.group o c ho hc e', rfl, he,
      fun n rest rest' hr h => ⟨h.1, hef _ _ _ (follows_cons c) h.2⟩⟩
  | call f o c hf ho hc arg ih =>
    obtain ⟨us₁, hs₁, rfl⟩ := starred_cons hs
    obtain ⟨us₂, hs₂, rfl⟩ := starred_cons hs₁
    obtain ⟨vs, ws, hv, hw, rfl⟩ := starred_append hs₂
    obtain ⟨ws₁, hw₁, rfl⟩ := starred_cons hw
    obtain rfl := starred_nil hw₁
    obtain ⟨a', rfl, ha, haf⟩ := ih hv
    refine ⟨.call f o c hf ho hc a', rfl, ?_,
      fun n rest rest' hr h => ⟨h.1, haf _ _ _ (follows_cons c) h.2⟩⟩
    simp only [Agrees, Derivation.tree] at ha ⊢
    rw [ha]
    rfl
  | callTwo f o m c hf ho hm hc arg arg' ih ih' =>
    obtain ⟨us₁, hs₁, rfl⟩ := starred_cons hs
    obtain ⟨us₂, hs₂, rfl⟩ := starred_cons hs₁
    obtain ⟨vs, ws, hv, hw, rfl⟩ := starred_append hs₂
    obtain ⟨ws₁, hw₁, rfl⟩ := starred_cons hw
    obtain ⟨xs, ys, hx, hy, rfl⟩ := starred_append hw₁
    obtain ⟨ys₁, hy₁, rfl⟩ := starred_cons hy
    obtain rfl := starred_nil hy₁
    obtain ⟨a', rfl, ha, haf⟩ := ih hv
    obtain ⟨b', rfl, hb, hbf⟩ := ih' hx
    refine ⟨.callTwo f o m c hf ho hm hc a' b', rfl, ?_, fun n rest rest' hr h =>
      ⟨h.1, haf _ _ _ (follows_cons m) h.2.1, hbf _ _ _ (follows_cons c) h.2.2⟩⟩
    simp only [Agrees, Derivation.tree] at ha hb ⊢
    rw [ha, hb]
    rfl

/-! ### Whole sources -/

lemma derives_written {d : Derivation true .sum} {ts : List Token} (hd : d.Derives ts)
    (hs : Starred (marks d) us) :
    ∃ d' : Derivation false .sum, d'.Derives us ∧ d'.tree = explicit d.tree := by
  obtain ⟨-, hfit⟩ := Derivation.derives_iff.mp hd
  obtain ⟨d', ht, htree, hfit'⟩ := exists_written d hs
  exact ⟨d', Derivation.derives_iff.mpr ⟨ht, hfit' 0 [] [] (.inl rfl) hfit⟩, htree⟩

lemma derives_lift_of_written {d : Derivation true .sum} {ts : List Token} (hd : d.Derives ts)
    (hs : Starred (marks d) us) (implied : Bool) :
    ∃ d' : Derivation implied .sum, d'.Derives us ∧ d'.tree = explicit d.tree := by
  obtain ⟨d', hd', htree⟩ := derives_written hd hs
  cases implied with
  | false => exact ⟨d', hd', htree⟩
  | true =>
    exact ⟨ImpliedProducts.lift d', ImpliedProducts.derives_lift hd',
      (ImpliedProducts.tree_lift d').trans htree⟩

/-- **A product of neighbours is a product whose star is left out.** Tokens that are read with the
rule for neighbours have one derivation. With a star before each right operand of a product of
neighbours they are read with the rule and without it, as the tree with its products written, and
the outcome of that tree is the same. -/
theorem expression_starred {stop : ℕ} {ts : List Token} {e : Expr}
    (h : expression ⟨true, stop⟩ ts = .ok e) :
    ∃ d : Derivation true .sum, d.Derives ts ∧ d.tree = e ∧ (∀ d', d'.Derives ts → d' = d) ∧
      (marks d).map (·.1) = ts ∧ (∃ us, Starred (marks d) us) ∧
      ∀ us, Starred (marks d) us →
        (∀ implied, expression ⟨implied, stop⟩ us = .ok (explicit e)) ∧
          ∀ s : Scope, s.outcome (explicit e) = s.outcome e := by
  obtain ⟨d, hd, rfl⟩ := expression_ok_iff.mp h
  refine ⟨d, hd, rfl, fun d' hd' => ExactGrammar.derives_unique hd hd', ?_,
    exists_starred (marks d), fun us hs => ⟨?_, ?_⟩⟩
  · rw [fst_marks, hd.tokens]
  · exact fun implied => expression_ok_iff.mpr (derives_lift_of_written hd hs implied)
  · exact fun s => outcome_explicit s d.tree

/-- A number before a name: the star goes between them. -/
theorem expression_starred_pair :
    expression ⟨true, 2⟩ [⟨.number .one, "1", 0⟩, ⟨.ident, "x", 1⟩] =
        .ok (.binary .implied (.number .one) (.reference "x" 1)) ∧
      expression ⟨false, 2⟩ [⟨.number .one, "1", 0⟩, ⟨.star, "*", 1⟩, ⟨.ident, "x", 1⟩] =
        .ok (.binary .mul (.number .one) (.reference "x" 1)) := by
  let a : Derivation true .factorial :=
    .factorial (.number ⟨.number .one, "1", 0⟩ .one rfl) [] (by simp)
  let x : Derivation true .factorial := .factorial (.name ⟨.ident, "x", 1⟩ rfl) [] (by simp)
  let d : Derivation true .sum :=
    .sum (.product (.unsigned (.base a)) (.neighbour rfl (.base x) .productEnd)) .sumEnd
  have hd : d.Derives d.tokens := Derivation.derives_iff.mpr ⟨rfl, by
    simp [d, a, x, Derivation.Fits, Derivation.tokens, isBang, isCaret]⟩
  have h : expression ⟨true, 2⟩ d.tokens = .ok d.tree := expression_ok_iff.mpr ⟨d, hd, rfl⟩
  obtain ⟨d', -, -, hunique, -, -, hstarred⟩ := expression_starred h
  obtain rfl := hunique d hd
  exact ⟨h, (hstarred _ (.plain (.star ⟨.star, "*", 1⟩ rfl .nil))).1 false⟩

end Abacus.Proofs.WrittenProducts
