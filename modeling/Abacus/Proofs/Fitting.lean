import Mathlib.Data.List.Chain
import Mathlib.Tactic.Common
import Abacus.Proofs.Derivation

/-!
What a derivation has to meet where it stands. A derivation stands before a rest of the source if
no name in it is followed by a parenthesis, and every chain in it ends where its next token could
not go on with it; it fits at a level if no part of it lies too deep there as well. The derivations
of a whole source are those that fit at level zero before nothing.
-/

namespace Abacus.Grammar

/-- The next token, if there is one, is not of the sort `p`. -/
def Clear (p : Token.Kind → Bool) (rest : List Token) : Prop := ∀ t ∈ rest.head?, p t.kind = false

def isBang (k : Token.Kind) : Bool := k = .bang

def isCaret (k : Token.Kind) : Bool := k = .caret

def isOpening (k : Token.Kind) : Bool := k = .lparen

def extendsProduct (k : Token.Kind) : Bool := (productOperator? k).isSome || startsOperand k

def extendsSum (k : Token.Kind) : Bool := (sumOperator? k).isSome

/-- No next token goes on with what the rule has derived. -/
def Ends : Rule → List Token → Prop
  | .operand, _ => True
  | .factorial, rest => Clear isBang rest
  | .power, rest => Clear isBang rest ∧ Clear isCaret rest
  | .signed, rest => Clear isBang rest ∧ Clear isCaret rest
  | .product, rest => Clear isBang rest ∧ Clear isCaret rest ∧ Clear extendsProduct rest
  | .productTail, rest => Clear isBang rest ∧ Clear isCaret rest ∧ Clear extendsProduct rest
  | .sum, rest =>
    Clear isBang rest ∧ Clear isCaret rest ∧ Clear extendsProduct rest ∧ Clear extendsSum rest
  | .sumTail, rest =>
    Clear isBang rest ∧ Clear isCaret rest ∧ Clear extendsProduct rest ∧ Clear extendsSum rest

@[simp] lemma clear_nil (p : Token.Kind → Bool) : Clear p [] := by simp [Clear]

@[simp] lemma clear_cons {p : Token.Kind → Bool} {t : Token} {ts : List Token} :
    Clear p (t :: ts) ↔ p t.kind = false := by simp [Clear]

lemma ends_nil (r : Rule) : Ends r [] := by cases r <;> simp [Ends]

/-! ### Kinds of tokens -/

lemma clear_of_sumOperator {k : Token.Kind} {op : Operator} (h : sumOperator? k = some op) :
    isBang k = false ∧ isCaret k = false ∧ extendsProduct k = false := by
  cases k <;> simp_all [sumOperator?, isBang, isCaret, extendsProduct, productOperator?,
    startsOperand]

lemma clear_of_productOperator {k : Token.Kind} {op : Operator}
    (h : productOperator? k = some op) :
    isBang k = false ∧ isCaret k = false ∧ startsOperand k = false := by
  cases k <;> simp_all [productOperator?, isBang, isCaret, startsOperand]

lemma clear_of_startsOperand {k : Token.Kind} (h : startsOperand k = true) :
    isBang k = false ∧ isCaret k = false ∧ productOperator? k = none ∧ sign? k = none := by
  cases k <;> simp_all [startsOperand, isBang, isCaret, productOperator?, sign?]

lemma ends_of_rparen {t : Token} (h : t.kind = .rparen) (rest : List Token) :
    Ends .sum (t :: rest) := by
  simp [Ends, h, isBang, isCaret, extendsProduct, extendsSum, productOperator?, startsOperand,
    sumOperator?]

lemma ends_of_comma {t : Token} (h : t.kind = .comma) (rest : List Token) :
    Ends .sum (t :: rest) := by
  simp [Ends, h, isBang, isCaret, extendsProduct, extendsSum, productOperator?, startsOperand,
    sumOperator?]

namespace Derivation

variable {implied : Bool} {r : Rule}

/-! ### First tokens -/

/-- The first token of what has no sign before it. -/
lemma exists_startsOperand (d : Derivation implied r)
    (h : r = .power ∨ r = .factorial ∨ r = .operand) :
    ∃ t ts, d.tokens = t :: ts ∧ startsOperand t.kind = true := by
  induction d with
  | base e ih => exact ih (by simp)
  | raised e t _ x ih _ =>
    obtain ⟨a, as, ha, hk⟩ := ih (by simp)
    exact ⟨a, as ++ t :: x.tokens, by simp [tokens, ha], hk⟩
  | factorial e bangs _ ih =>
    obtain ⟨a, as, ha, hk⟩ := ih (by simp)
    exact ⟨a, as ++ bangs, by simp [tokens, ha], hk⟩
  | number t v hk => exact ⟨t, [], rfl, by simp [hk, startsOperand]⟩
  | name t hk => exact ⟨t, [], rfl, by simp [hk, startsOperand]⟩
  | group o c ho _ e => exact ⟨o, e.tokens ++ [c], rfl, by simp [ho, startsOperand]⟩
  | call f o c hf _ _ arg => exact ⟨f, _, rfl, by simp [hf, startsOperand]⟩
  | callTwo f o m c hf _ _ _ arg arg' => exact ⟨f, _, rfl, by simp [hf, startsOperand]⟩
  | _ => simp at h

lemma exists_first (d : Derivation implied .sum) :
    ∃ t ts, d.tokens = t :: ts ∧ (startsOperand t.kind = true ∨ (sign? t.kind).isSome) := by
  cases d with
  | sum term tail =>
    cases term with
    | product factor more =>
      cases factor with
      | sign t s ht e => exact ⟨t, _, rfl, Or.inr (by simp [ht])⟩
      | unsigned e =>
        obtain ⟨t, ts, hts, hk⟩ := e.exists_startsOperand (Or.inl rfl)
        exact ⟨t, _, by rw [tokens, tokens, tokens, hts]; rfl, Or.inl hk⟩

/-- The first leaf lies at the level of the derivation. -/
lemma exists_leaves_cons (d : Derivation implied r) (n : ℕ) (h : r ≠ .sumTail)
    (h' : r ≠ .productTail) : ∃ t b ls, d.leaves n = ⟨t, n, b⟩ :: ls := by
  induction d with
  | sumEnd | sumLink => exact absurd rfl h
  | productEnd | productLink | neighbour => exact absurd rfl h'
  | sum _ _ ih _ | product _ _ ih _ | raised _ _ _ _ ih _ | factorial _ _ _ ih =>
    obtain ⟨t, b, ls, hl⟩ := ih (by simp) (by simp)
    exact ⟨t, b, _, by rw [leaves, hl]; rfl⟩
  | unsigned e ih => exact ih (by simp) (by simp)
  | base e ih => exact ih (by simp) (by simp)
  | _ => exact ⟨_, _, _, rfl⟩

lemma lt_maxDepth {d : Derivation implied r} {n : ℕ} (h : r ≠ .sumTail) (h' : r ≠ .productTail)
    (hl : ∀ l ∈ d.leaves (n + 1), l.level ≤ maxDepth) : n < maxDepth := by
  obtain ⟨t, b, ls, hd⟩ := d.exists_leaves_cons (n + 1) h h'
  exact hl ⟨t, n + 1, b⟩ (by simp [hd])

lemma map_token_leaves (d : Derivation implied r) (n : ℕ) :
    (d.leaves n).map (·.token) = d.tokens := by
  induction d generalizing n with
  | _ => simp [leaves, tokens, Function.comp_def, *]

/-! ### Fitting -/

/-- Each group, argument list, signed operand and exponent still has a level to go to, a chain ends
only where it has to, and a name is not the name of a call. -/
@[grind =]
def Fits {r : Rule} : Derivation implied r → ℕ → List Token → Prop
  | .sum first tail, n, rest => first.Fits n (tail.tokens ++ rest) ∧ tail.Fits n rest
  | .sumEnd, _, rest => Clear extendsSum rest
  | .sumLink _ _ _ term tail, n, rest => term.Fits n (tail.tokens ++ rest) ∧ tail.Fits n rest
  | .product first tail, n, rest => first.Fits n (tail.tokens ++ rest) ∧ tail.Fits n rest
  | .productEnd, _, rest => Clear extendsProduct rest
  | .productLink _ _ _ factor tail, n, rest =>
    factor.Fits n (tail.tokens ++ rest) ∧ tail.Fits n rest
  | .neighbour _ factor tail, n, rest => factor.Fits n (tail.tokens ++ rest) ∧ tail.Fits n rest
  | .sign _ _ _ e, n, rest => n < maxDepth ∧ e.Fits (n + 1) rest
  | .unsigned e, n, rest => e.Fits n rest
  | .base e, n, rest => e.Fits n rest ∧ Clear isCaret rest
  | .raised e t _ exponent, n, rest =>
    e.Fits n (t :: (exponent.tokens ++ rest)) ∧ n < maxDepth ∧ exponent.Fits (n + 1) rest
  | .factorial e bangs _, n, rest => e.Fits n (bangs ++ rest) ∧ Clear isBang rest
  | .number _ _ _, _, _ => True
  | .name _ _, _, rest => Clear isOpening rest
  | .group _ c _ _ e, n, rest => n < maxDepth ∧ e.Fits (n + 1) (c :: rest)
  | .call _ _ c _ _ _ arg, n, rest => n < maxDepth ∧ arg.Fits (n + 1) (c :: rest)
  | .callTwo _ _ m c _ _ _ _ arg arg', n, rest =>
    n < maxDepth ∧ arg.Fits (n + 1) (m :: (arg'.tokens ++ c :: rest)) ∧
      arg'.Fits (n + 1) (c :: rest)

/-- A chain ends only where it has to, and a name is not the name of a call, at whatever level. -/
@[grind =]
def Stands {r : Rule} : Derivation implied r → List Token → Prop
  | .sum first tail, rest => first.Stands (tail.tokens ++ rest) ∧ tail.Stands rest
  | .sumEnd, rest => Clear extendsSum rest
  | .sumLink _ _ _ term tail, rest => term.Stands (tail.tokens ++ rest) ∧ tail.Stands rest
  | .product first tail, rest => first.Stands (tail.tokens ++ rest) ∧ tail.Stands rest
  | .productEnd, rest => Clear extendsProduct rest
  | .productLink _ _ _ factor tail, rest =>
    factor.Stands (tail.tokens ++ rest) ∧ tail.Stands rest
  | .neighbour _ factor tail, rest => factor.Stands (tail.tokens ++ rest) ∧ tail.Stands rest
  | .sign _ _ _ e, rest => e.Stands rest
  | .unsigned e, rest => e.Stands rest
  | .base e, rest => e.Stands rest ∧ Clear isCaret rest
  | .raised e t _ exponent, rest =>
    e.Stands (t :: (exponent.tokens ++ rest)) ∧ exponent.Stands rest
  | .factorial e bangs _, rest => e.Stands (bangs ++ rest) ∧ Clear isBang rest
  | .number _ _ _, _ => True
  | .name _ _, rest => Clear isOpening rest
  | .group _ c _ _ e, rest => e.Stands (c :: rest)
  | .call _ _ c _ _ _ arg, rest => arg.Stands (c :: rest)
  | .callTwo _ _ m c _ _ _ _ arg arg', rest =>
    arg.Stands (m :: (arg'.tokens ++ c :: rest)) ∧ arg'.Stands (c :: rest)

lemma Fits.stands {d : Derivation implied r} {n : ℕ} {rest : List Token} (h : d.Fits n rest) :
    d.Stands rest := by
  induction d generalizing n rest with
  | sumEnd | productEnd | number | name => exact h
  | unsigned _ ih => exact ih h
  | sign _ _ _ _ ih | group _ _ _ _ _ ih | call _ _ _ _ _ _ _ ih => exact ih h.2
  | base _ ih | factorial _ _ _ ih => exact ⟨ih h.1, h.2⟩
  | sum _ _ ihf iht | product _ _ ihf iht | neighbour _ _ _ ihf iht => exact ⟨ihf h.1, iht h.2⟩
  | sumLink _ _ _ _ _ ihf iht | productLink _ _ _ _ _ ihf iht => exact ⟨ihf h.1, iht h.2⟩
  | raised _ _ _ _ ihe ihx => exact ⟨ihe h.1, ihx h.2.2⟩
  | callTwo _ _ _ _ _ _ _ _ _ _ ih ih' => exact ⟨ih h.2.1, ih' h.2.2⟩

lemma fits_of_stands (d : Derivation implied r) {n : ℕ} {rest : List Token} (h : d.Stands rest)
    (hl : ∀ l ∈ d.leaves n, l.level ≤ maxDepth) : d.Fits n rest := by
  induction d generalizing n rest with
  | sumEnd | productEnd | number | name => exact h
  | unsigned _ ih => exact ih h hl
  | base _ ih => exact ⟨ih h.1 hl, h.2⟩
  | factorial _ _ _ ih => exact ⟨ih h.1 (List.forall_mem_append.mp hl).1, h.2⟩
  | sum _ _ ihf iht | product _ _ ihf iht | neighbour _ _ _ ihf iht =>
    obtain ⟨hf, ht⟩ := List.forall_mem_append.mp hl
    exact ⟨ihf h.1 hf, iht h.2 ht⟩
  | sumLink _ _ _ _ _ ihf iht | productLink _ _ _ _ _ ihf iht =>
    obtain ⟨hf, ht⟩ := List.forall_mem_append.mp (List.forall_mem_cons.mp hl).2
    exact ⟨ihf h.1 hf, iht h.2 ht⟩
  | sign _ _ _ _ ih =>
    have he := (List.forall_mem_cons.mp hl).2
    exact ⟨lt_maxDepth (by simp) (by simp) he, ih h he⟩
  | raised _ _ _ _ ihe ihx =>
    obtain ⟨he, hx⟩ := List.forall_mem_append.mp hl
    have hx := (List.forall_mem_cons.mp hx).2
    exact ⟨ihe h.1 he, lt_maxDepth (by simp) (by simp) hx, ihx h.2 hx⟩
  | group _ _ _ _ _ ih =>
    simp only [leaves, List.forall_mem_cons, List.forall_mem_append] at hl
    obtain ⟨-, he, -⟩ := hl
    exact ⟨lt_maxDepth (by simp) (by simp) he, ih h he⟩
  | call _ _ _ _ _ _ _ ih =>
    simp only [leaves, List.forall_mem_cons, List.forall_mem_append] at hl
    obtain ⟨-, -, ha, -⟩ := hl
    exact ⟨lt_maxDepth (by simp) (by simp) ha, ih h ha⟩
  | callTwo _ _ _ _ _ _ _ _ _ _ ih ih' =>
    simp only [leaves, List.forall_mem_cons, List.forall_mem_append] at hl
    obtain ⟨-, -, ha, -, ha', -⟩ := hl
    exact ⟨lt_maxDepth (by simp) (by simp) ha, ih h.1 ha, ih' h.2 ha'⟩

/-- Tokens that stand nowhere in particular. -/
def loose (ts : List Token) : List Leaf := ts.map (⟨·, 0, false⟩)

lemma callsOnly_loose (ts : List Token) : CallsOnly (loose ts) := by
  induction ts with
  | nil => exact .nil
  | cons t ts ih =>
    refine List.isChain_cons.mpr ⟨?_, ih⟩
    simp

lemma callsOnly_cons {t : Token} {n : ℕ} {ls : List Leaf} :
    CallsOnly (⟨t, n, false⟩ :: ls) ↔ CallsOnly ls := by
  simp [CallsOnly, List.isChain_cons]

lemma callsOnly_name {t : Token} {n : ℕ} {rest : List Token} :
    CallsOnly (⟨t, n, true⟩ :: loose rest) ↔ Clear isOpening rest := by
  rw [CallsOnly, List.isChain_cons]
  have h := callsOnly_loose rest
  cases rest with
  | nil => simp [loose]
  | cons u us => simp_all [CallsOnly, loose, Clear, isOpening]

/-- A first part sees of what follows it no more than the tokens. -/
lemma callsOnly_append {ls ms : List Leaf} :
    CallsOnly (ls ++ ms) ↔ CallsOnly (ls ++ loose (ms.map (·.token))) ∧ CallsOnly ms := by
  have h := callsOnly_loose (ms.map (·.token))
  unfold CallsOnly at h ⊢
  rw [List.isChain_append, List.isChain_append]
  cases ms with
  | nil => simp [loose]
  | cons m ms =>
    simp only [loose, List.map_cons, List.head?_cons, Option.mem_def, Option.some.injEq] at h ⊢
    constructor
    · rintro ⟨hl, hm, hlm⟩
      exact ⟨⟨hl, h, by simpa using hlm⟩, hm⟩
    · rintro ⟨⟨hl, _, hlm⟩, hm⟩
      exact ⟨hl, hm, by simpa using hlm⟩

@[simp] lemma map_token_loose (ts : List Token) : (loose ts).map (·.token) = ts := by
  simp [loose, Function.comp_def]

lemma callsOnly_leaves {d : Derivation implied r} {r' : Rule} {d' : Derivation implied r'}
    {n m : ℕ} {ls : List Leaf} :
    CallsOnly (d.leaves n ++ (d'.leaves m ++ ls)) ↔
      CallsOnly (d.leaves n ++ loose (d'.tokens ++ ls.map (·.token))) ∧
        CallsOnly (d'.leaves m ++ ls) := by
  rw [callsOnly_append, List.map_append, map_token_leaves]

lemma callsOnly_mark {d : Derivation implied r} {n m : ℕ} {t : Token} {ls : List Leaf} :
    CallsOnly (d.leaves n ++ ⟨t, m, false⟩ :: ls) ↔
      CallsOnly (d.leaves n ++ loose (t :: ls.map (·.token))) ∧ CallsOnly ls := by
  rw [callsOnly_append, List.map_cons, callsOnly_cons]

lemma callsOnly_bangs {d : Derivation implied r} {n : ℕ} {bangs rest : List Token} :
    CallsOnly (d.leaves n ++ (bangs.map (⟨·, n, false⟩) ++ loose rest)) ↔
      CallsOnly (d.leaves n ++ loose (bangs ++ rest)) := by
  have h : CallsOnly (bangs.map (⟨·, n, false⟩) ++ loose rest) := by
    induction bangs with
    | nil => exact callsOnly_loose rest
    | cons b bangs ih => exact callsOnly_cons.mpr ih
  rw [callsOnly_append]
  simp [h, Function.comp_def]

lemma levels_of_fits (d : Derivation implied r) {n : ℕ} {rest : List Token} (hn : n ≤ maxDepth)
    (h : d.Fits n rest) : ∀ l ∈ d.leaves n, l.level ≤ maxDepth := by
  induction d generalizing n rest with
  | sumEnd | productEnd => simp [leaves]
  | sum | product | sumLink | productLink | neighbour =>
    simp only [Fits] at h
    simp only [leaves, List.mem_append, List.mem_cons]
    grind
  | unsigned | base | number | name =>
    simp only [Fits] at h
    simp only [leaves, List.mem_cons]
    grind
  | sign | group | call =>
    simp only [Fits] at h
    simp only [leaves, List.mem_append, List.mem_cons]
    grind
  | factorial | raised | callTwo =>
    simp only [Fits] at h
    simp only [leaves, List.mem_append, List.mem_cons, List.mem_map]
    grind

lemma Stands.callsOnly {d : Derivation implied r} {rest : List Token} (h : d.Stands rest)
    (n : ℕ) : CallsOnly (d.leaves n ++ loose rest) := by
  induction d generalizing n rest with
  | sumEnd | productEnd => exact callsOnly_loose rest
  | number t => exact callsOnly_cons.mpr (callsOnly_loose rest)
  | name t => exact callsOnly_name.mpr h
  | unsigned e ih => exact ih h n
  | base e ih => exact ih h.1 n
  | factorial e bangs _ ih =>
    rw [leaves, List.append_assoc, callsOnly_bangs]
    exact ih h.1 n
  | sum _ _ ihf iht | product _ _ ihf iht | neighbour _ _ _ ihf iht =>
    rw [leaves, List.append_assoc, callsOnly_leaves, map_token_loose]
    exact ⟨ihf h.1 n, iht h.2 n⟩
  | sumLink _ _ _ _ _ ihf iht | productLink _ _ _ _ _ ihf iht =>
    rw [leaves, List.cons_append, callsOnly_cons, List.append_assoc, callsOnly_leaves,
      map_token_loose]
    exact ⟨ihf h.1 n, iht h.2 n⟩
  | sign t s _ e ih => exact callsOnly_cons.mpr (ih h (n + 1))
  | raised e t _ x ihe ihx =>
    simp only [leaves, List.append_assoc, List.cons_append, callsOnly_mark, List.map_append,
      map_token_leaves, map_token_loose]
    exact ⟨ihe h.1 n, ihx h.2 (n + 1)⟩
  | group o c _ _ e ih =>
    simp only [leaves, List.cons_append, List.append_assoc, List.nil_append, callsOnly_cons,
      callsOnly_mark, map_token_loose]
    exact ⟨ih h (n + 1), callsOnly_loose rest⟩
  | call f o c _ _ _ arg ih =>
    simp only [leaves, List.cons_append, List.append_assoc, List.nil_append, callsOnly_cons,
      callsOnly_mark, map_token_loose]
    exact ⟨ih h (n + 1), callsOnly_loose rest⟩
  | callTwo f o m c _ _ _ _ arg arg' ih ih' =>
    simp only [leaves, List.cons_append, List.append_assoc, List.nil_append, callsOnly_cons,
      callsOnly_mark, List.map_append, List.map_cons, map_token_leaves, map_token_loose]
    exact ⟨ih h.1 (n + 1), ih' h.2 (n + 1), callsOnly_loose rest⟩

/-- What follows a first part in a chain does not go on with that part. -/
lemma ends_sumTail (d : Derivation implied .sumTail) {rest : List Token} (h : Ends .sum rest) :
    Ends .product (d.tokens ++ rest) := by
  cases d with
  | sumEnd => exact ⟨h.1, h.2.1, h.2.2.1⟩
  | sumLink t op ht term tail =>
    obtain ⟨hb, hc, hp⟩ := clear_of_sumOperator ht
    exact ⟨clear_cons.mpr hb, clear_cons.mpr hc, clear_cons.mpr hp⟩

lemma ends_productTail (d : Derivation implied .productTail) {rest : List Token}
    (h : Ends .product rest) : Ends .signed (d.tokens ++ rest) := by
  cases d with
  | productEnd => exact ⟨h.1, h.2.1⟩
  | productLink t op ht factor tail =>
    obtain ⟨hb, hc, -⟩ := clear_of_productOperator ht
    exact ⟨clear_cons.mpr hb, clear_cons.mpr hc⟩
  | neighbour _ factor tail =>
    obtain ⟨t, ts, hts, hk⟩ := factor.exists_startsOperand (Or.inl rfl)
    obtain ⟨hb, hc, -⟩ := clear_of_startsOperand hk
    rw [tokens, hts]
    exact ⟨clear_cons.mpr hb, clear_cons.mpr hc⟩

lemma stands_of_callsOnly (d : Derivation implied r) {n : ℕ} {rest : List Token}
    (hc : CallsOnly (d.leaves n ++ loose rest)) (he : Ends r rest) : d.Stands rest := by
  induction d generalizing n rest with
  | sumEnd => exact he.2.2.2
  | productEnd => exact he.2.2
  | number => trivial
  | name t => exact callsOnly_name.mp hc
  | unsigned e ih => exact ih hc he
  | base e ih => exact ⟨ih hc he.1, he.2⟩
  | factorial e bangs _ ih =>
    rw [leaves, List.append_assoc, callsOnly_bangs] at hc
    exact ⟨ih hc trivial, he⟩
  | sum first tail ihf iht =>
    rw [leaves, List.append_assoc, callsOnly_leaves, map_token_loose] at hc
    -- the tail begins with an operator or ends at once, and the first term ends there
    exact ⟨ihf hc.1 (ends_sumTail tail he), iht hc.2 he⟩
  | product first tail ihf iht | neighbour _ first tail ihf iht =>
    rw [leaves, List.append_assoc, callsOnly_leaves, map_token_loose] at hc
    exact ⟨ihf hc.1 (ends_productTail tail he), iht hc.2 he⟩
  | sumLink t op _ term tail ihf iht =>
    rw [leaves, List.cons_append, callsOnly_cons, List.append_assoc, callsOnly_leaves,
      map_token_loose] at hc
    exact ⟨ihf hc.1 (ends_sumTail tail he), iht hc.2 he⟩
  | productLink t op _ factor tail ihf iht =>
    rw [leaves, List.cons_append, callsOnly_cons, List.append_assoc, callsOnly_leaves,
      map_token_loose] at hc
    exact ⟨ihf hc.1 (ends_productTail tail he), iht hc.2 he⟩
  | sign t s _ e ih => exact ih (callsOnly_cons.mp hc) he
  | raised e t ht x ihe ihx =>
    simp only [leaves, List.append_assoc, List.cons_append, callsOnly_mark, List.map_append,
      map_token_leaves, map_token_loose] at hc
    have hend : Ends .factorial (t :: (x.tokens ++ rest)) := clear_cons.mpr (by simp [ht, isBang])
    exact ⟨ihe hc.1 hend, ihx hc.2 he⟩
  | group o c _ hcl e ih =>
    simp only [leaves, List.cons_append, List.append_assoc, List.nil_append, callsOnly_cons,
      callsOnly_mark, map_token_loose] at hc
    exact ih hc.1 (ends_of_rparen hcl rest)
  | call f o c _ _ hcl arg ih =>
    simp only [leaves, List.cons_append, List.append_assoc, List.nil_append, callsOnly_cons,
      callsOnly_mark, map_token_loose] at hc
    exact ih hc.1 (ends_of_rparen hcl rest)
  | callTwo f o m c _ _ hm hcl arg arg' ih ih' =>
    simp only [leaves, List.cons_append, List.append_assoc, List.nil_append, callsOnly_cons,
      callsOnly_mark, List.map_append, List.map_cons, map_token_leaves, map_token_loose] at hc
    exact ⟨ih hc.1 (ends_of_comma hm _), ih' hc.2.1 (ends_of_rparen hcl rest)⟩

lemma callsOnly_iff_stands {d : Derivation implied .sum} :
    CallsOnly (d.leaves 0) ↔ d.Stands [] := by
  constructor
  · intro h
    exact stands_of_callsOnly d (by simpa [loose] using h) (ends_nil .sum)
  · intro h
    simpa [loose] using h.callsOnly 0

/-- **The derivations of a source are those that fit at level zero before nothing.** -/
theorem derives_iff {d : Derivation implied .sum} {ts : List Token} :
    d.Derives ts ↔ d.tokens = ts ∧ d.Fits 0 [] := by
  constructor
  · intro h
    exact ⟨h.tokens, fits_of_stands d (callsOnly_iff_stands.mp h.calls) h.levels⟩
  · rintro ⟨ht, hf⟩
    exact ⟨ht, callsOnly_iff_stands.mpr hf.stands, levels_of_fits d (Nat.zero_le _) hf⟩

end Derivation

end Abacus.Grammar
