import Abacus.Outcome
import Abacus.Proofs.Completion
import Abacus.Proofs.ExactGrammar
import Abacus.Proofs.PlainWalk

/-!
Calls that stand for products. A call of one argument is an operand of its own, so its product is
made before anything that binds the operand. If it begins a product and has neither bangs nor an
exponent, nothing binds it closer than the product does but signs, and a sign of a factor is the
sign of the product. There the name can be put in parentheses: the call becomes a product of
neighbours that is made where the call was made.
-/

namespace Abacus.Proofs.ImpliedCalls

open Grammar PlainWalk

/-! ### Names in parentheses -/

/-- A call of one argument by the name is a product: no function has the name, and a number does. -/
def standsFor (s : Scope) (name : String) : Bool :=
  s.implied && (s.functions.unary name).isNone && (s.number? name).isSome

variable (s : Scope)

/-- The tokens of a derivation. Marked are the names of the calls that are products and begin one,
perhaps behind signs, with no bang and no exponent of their own; `first` tells whether the
derivation itself begins a product. -/
def marks (first : Bool) {r : Rule} : Derivation true r → List (Token × Bool)
  | .sum term tail => marks true term ++ marks true tail
  | .sumEnd => []
  | .sumLink t _ _ term tail => (t, false) :: (marks true term ++ marks true tail)
  | .product factor tail => marks true factor ++ marks true tail
  | .productEnd => []
  | .productLink t _ _ factor tail => (t, false) :: (marks false factor ++ marks true tail)
  | .neighbour _ factor tail => marks false factor ++ marks true tail
  | .sign t _ _ e => (t, false) :: marks first e
  | .unsigned e => marks first e
  | .base e => marks first e
  | .raised e t _ exponent => marks false e ++ (t, false) :: marks false exponent
  | .factorial e bangs _ => marks (first && bangs.isEmpty) e ++ bangs.map (·, false)
  | .number t _ _ => [(t, false)]
  | .name t _ => [(t, false)]
  | .group o c _ _ e => (o, false) :: (marks true e ++ [(c, false)])
  | .call f o c _ _ _ arg =>
    (f, first && standsFor s f.text) :: (o, false) :: (marks true arg ++ [(c, false)])
  | .callTwo f o m c _ _ _ _ arg arg' =>
    (f, false) :: (o, false) :: (marks true arg ++ (m, false) :: (marks true arg' ++ [(c, false)]))

/-- Some of the marked tokens have been put in parentheses. -/
inductive Enclosed : List (Token × Bool) → List Token → Prop
  | nil : Enclosed [] []
  | keep {t b ms us} (h : Enclosed ms us) : Enclosed ((t, b) :: ms) (t :: us)
  | enclose {t ms us} (o c : Token) (ho : o.kind = .lparen) (hc : c.kind = .rparen)
      (h : Enclosed ms us) : Enclosed ((t, true) :: ms) (o :: t :: c :: us)

variable {s} {r : Rule} {first : Bool} {ms ns : List (Token × Bool)} {us vs ws rest : List Token}
  {t : Token}

lemma enclosed_nil (h : Enclosed [] us) : us = [] := by
  cases h
  rfl

lemma enclosed_cons (h : Enclosed ((t, false) :: ms) us) : ∃ vs, Enclosed ms vs ∧ us = t :: vs := by
  cases h with
  | keep h => exact ⟨_, h, rfl⟩

lemma enclosed_head {b : Bool} (h : Enclosed ((t, b) :: ms) us) :
    ∃ vs, Enclosed ms vs ∧ (us = t :: vs ∨
      b = true ∧ ∃ o c, o.kind = .lparen ∧ c.kind = .rparen ∧ us = o :: t :: c :: vs) := by
  cases h with
  | keep h => exact ⟨_, h, .inl rfl⟩
  | enclose o c ho hc h => exact ⟨_, h, .inr ⟨rfl, o, c, ho, hc, rfl⟩⟩

lemma enclosed_append (h : Enclosed (ms ++ ns) us) :
    ∃ vs ws, Enclosed ms vs ∧ Enclosed ns ws ∧ us = vs ++ ws := by
  induction ms generalizing us with
  | nil => exact ⟨[], us, .nil, h, rfl⟩
  | cons m ms ih =>
    rw [List.cons_append] at h
    cases h with
    | keep h =>
      obtain ⟨vs, ws, hv, hw, rfl⟩ := ih h
      exact ⟨_ :: vs, ws, .keep hv, hw, rfl⟩
    | enclose o c ho hc h =>
      obtain ⟨vs, ws, hv, hw, rfl⟩ := ih h
      exact ⟨_ :: _ :: _ :: vs, ws, .enclose o c ho hc hv, hw, rfl⟩

lemma enclosed_bangs {bangs : List Token} (h : Enclosed (bangs.map (·, false)) us) :
    us = bangs := by
  induction bangs generalizing us with
  | nil => exact enclosed_nil h
  | cons b bangs ih =>
    obtain ⟨vs, hv, rfl⟩ := enclosed_cons h
    rw [ih hv]

lemma enclosed_last (h : Enclosed (ms ++ [(t, false)]) us) :
    ∃ vs, Enclosed ms vs ∧ us = vs ++ [t] := by
  obtain ⟨vs, ws, hv, hw, rfl⟩ := enclosed_append h
  obtain ⟨xs, hx, rfl⟩ := enclosed_cons hw
  obtain rfl := enclosed_nil hx
  exact ⟨vs, hv, rfl⟩

/-- Nothing has to be put in parentheses. -/
lemma Enclosed.refl (ms : List (Token × Bool)) : Enclosed ms (ms.map (·.1)) := by
  induction ms with
  | nil => exact .nil
  | cons m ms ih => exact .keep ih

lemma Enclosed.append (h : Enclosed ms vs) (h' : Enclosed ns ws) :
    Enclosed (ms ++ ns) (vs ++ ws) := by
  induction h with
  | nil => exact h'
  | keep _ ih => exact .keep ih
  | enclose o c ho hc _ ih => exact .enclose o c ho hc ih

lemma fst_marks (d : Derivation true r) (first : Bool) :
    (marks s first d).map (·.1) = d.tokens := by
  induction d generalizing first with
  | _ => simp [marks, Derivation.tokens, Function.comp_def, *]

/-! ### First tokens -/

/-- The first of the tokens, if there is one, is not marked. -/
def Unmarked (ms : List (Token × Bool)) : Prop := ∀ m ∈ ms.head?, m.2 = false

lemma unmarked_cons : Unmarked ((t, false) :: ms) := by simp [Unmarked]

lemma Unmarked.append (h : Unmarked ms) (h' : Unmarked ns) : Unmarked (ms ++ ns) := by
  cases ms with
  | nil => exact h'
  | cons m ms => exact h

/-- What begins no product begins with a token that is not marked, and so does the rest of a
chain. -/
lemma unmarked_marks (d : Derivation true r) : r ≠ .sum → r ≠ .product →
    (r = .sumTail ∨ r = .productTail ∨ first = false) → Unmarked (marks s first d) := by
  induction d generalizing first with
  | sum => exact fun h => absurd rfl h
  | product => exact fun _ h => absurd rfl h
  | sumEnd | productEnd => exact fun _ _ _ => by simp [marks, Unmarked]
  | sumLink | productLink | sign | number | name | group | callTwo =>
    exact fun _ _ _ => unmarked_cons
  | neighbour _ factor tail ihf iht =>
    intro _ _ _
    exact (ihf (by simp) (by simp) (by simp)).append (iht (by simp) (by simp) (by simp))
  | unsigned e ih | base e ih =>
    exact fun _ _ h => ih (by simp) (by simp) (by simpa using h)
  | raised e t _ x ihe _ =>
    exact fun _ _ _ => (ihe (by simp) (by simp) (by simp)).append unmarked_cons
  | factorial e bangs _ ih =>
    intro _ _ h
    have hfirst : first = false := by simpa using h
    refine (ih (by simp) (by simp) (by simp [hfirst])).append ?_
    cases bangs <;> simp [Unmarked]
  | call f o c _ _ _ arg =>
    intro _ _ h
    have hfirst : first = false := by simpa using h
    simp [marks, Unmarked, hfirst]

lemma Enclosed.head? (h : Enclosed ms us) (hu : Unmarked ms) (rest : List Token) :
    (us ++ rest).head? = (ms.map (·.1) ++ rest).head? := by
  cases h with
  | nil => rfl
  | keep _ => rfl
  | enclose => simp [Unmarked] at hu

/-- The rest of a chain begins with the same token as before. -/
lemma head?_tail {d : Derivation true r} (hr : r = .sumTail ∨ r = .productTail)
    (h : Enclosed (marks s first d) us) (rest : List Token) :
    (us ++ rest).head? = (d.tokens ++ rest).head? := by
  have hu : Unmarked (marks s first d) := by
    rcases hr with rfl | rfl <;> exact unmarked_marks d (by simp) (by simp) (by simp)
  rw [← fst_marks d first]
  exact h.head? hu rest

/-! ### Trees -/

/-- The two evaluate alike; for the rest of a chain, with what is to the left. -/
def Same (s : Scope) : (r : Rule) → r.Yield → r.Yield → Prop
  | .sumTail, f, f' =>
    ∀ left left', plain s left = plain s left' → plain s (f left) = plain s (f' left')
  | .productTail, f, f' =>
    ∀ left left', plain s left = plain s left' → plain s (f left) = plain s (f' left')
  | .sum, e, e' => plain s e = plain s e'
  | .product, e, e' => plain s e = plain s e'
  | .signed, e, e' => plain s e = plain s e'
  | .power, e, e' => plain s e = plain s e'
  | .factorial, e, e' => plain s e = plain s e'
  | .operand, e, e' => plain s e = plain s e'

/-- The first evaluates as the product of the second and a group. -/
def Splits (s : Scope) : (r : Rule) → r.Yield → r.Yield → Expr → Prop
  | .signed, e, e', g => plain s e = plain s (.binary .implied e' g)
  | .power, e, e', g => plain s e = plain s (.binary .implied e' g)
  | .factorial, e, e', g => plain s e = plain s (.binary .implied e' g)
  | .operand, e, e', g => plain s e = plain s (.binary .implied e' g)
  | .sum, _, _, _ => False
  | .product, _, _, _ => False
  | .sumTail, _, _, _ => False
  | .productTail, _, _, _ => False

lemma plain_binary (op : Operator) {l l' e e' : Expr} (hl : plain s l = plain s l')
    (he : plain s e = plain s e') : plain s (.binary op l e) = plain s (.binary op l' e') := by
  rw [plain, plain, hl, he]

lemma plain_bangs (bangs : List Token) {e e' : Expr} (h : plain s e = plain s e') :
    plain s (bangs.foldl (fun left _ => .factorial left) e) =
      plain s (bangs.foldl (fun left _ => .factorial left) e') := by
  induction bangs generalizing e e' with
  | nil => exact h
  | cons b bangs ih => exact ih (by rw [plain, plain, h])

lemma plain_call (name : String) (pos : ℕ) {a a' : Expr} (h : plain s a = plain s a') :
    plain s (.call name pos [a]) = plain s (.call name pos [a']) := by
  simp only [plain, plainAll, h]

/-- The call is the product. -/
lemma plain_call_product {name : String} (h : standsFor s name = true) (pos : ℕ) {a a' : Expr}
    (ha : plain s a = plain s a') :
    plain s (.call name pos [a]) = plain s (.binary .implied (.reference name pos) a') := by
  obtain ⟨⟨hi, hu⟩, hn⟩ : (s.implied = true ∧ s.functions.unary name = none) ∧
      (s.number? name).isSome = true := by simpa [standsFor] using h
  obtain ⟨v, hv⟩ := Option.isSome_iff_exists.mp hn
  simp [plain, plainAll, ha, Scope.call, Scope.reference, Scope.apply, hi, hu, hv]

lemma neg_mul (x y : Double) : -x * y = -(x * y) := by
  have hratio : ∀ (b : Bool) (n d : ℕ), Double.ofRatio (!b) n d = (Double.ofRatio b n d).neg := by
    intro b n d
    unfold Double.ofRatio
    cases Magnitude.nearest? n d <;> rfl
  have hxor : ∀ b b' : Bool, (!b ^^ b') = !(b ^^ b') := by decide
  change x.neg.mul y = (x.mul y).neg
  cases x with
  | nan => rfl
  | inf b =>
    cases y with
    | nan => rfl
    | inf b' => simp only [Double.neg, Double.mul, hxor]
    | finite b' n =>
      simp only [Double.neg, Double.mul, hxor]
      -- the product with zero has no sign of its own
      split <;> rfl
  | finite b m =>
    cases y with
    | nan => rfl
    | inf b' =>
      simp only [Double.neg, Double.mul, hxor]
      split <;> rfl
    | finite b' n => simp only [Double.neg, Double.mul, hxor, hratio]

/-- The sign of a factor is the sign of the product. -/
lemma plain_signed_product (sign : Sign) {e e' g : Expr}
    (h : plain s e = plain s (.binary .implied e' g)) :
    plain s (.signed sign e) = plain s (.binary .implied (.signed sign e') g) := by
  have happly : ∀ x y, sign.apply (x * y) = sign.apply x * y := by
    intro x y
    cases sign with
    | plus => rfl
    | minus => exact (neg_mul x y).symm
  simp [plain, h, Scope.apply, happly]

/-! ### Derivations -/

/-- A level further out there is room for at least as much. -/
lemma fits_of_succ (d : Derivation true r) {n : ℕ} (h : d.Fits (n + 1) rest) : d.Fits n rest := by
  induction d generalizing n rest with
  | sumEnd | productEnd | name => exact h
  | number => trivial
  | sum _ _ ihf iht | product _ _ ihf iht | neighbour _ _ _ ihf iht
  | sumLink _ _ _ _ _ ihf iht | productLink _ _ _ _ _ ihf iht => exact ⟨ihf h.1, iht h.2⟩
  | sign _ _ _ _ ih | group _ _ _ _ _ ih | call _ _ _ _ _ _ _ ih =>
    exact ⟨Nat.lt_of_succ_lt h.1, ih h.2⟩
  | unsigned _ ih => exact ih h
  | base _ ih | factorial _ _ _ ih => exact ⟨ih h.1, h.2⟩
  | raised _ _ _ _ ihe ihx => exact ⟨ihe h.1, Nat.lt_of_succ_lt h.2.1, ihx h.2.2⟩
  | callTwo _ _ _ _ _ _ _ _ _ _ ih ih' => exact ⟨Nat.lt_of_succ_lt h.1, ih h.2.1, ih' h.2.2⟩

/-- The second derivation can stand for the first. -/
structure Whole (s : Scope) (d d' : Derivation true r) : Prop where
  same : Same s r d.tree d'.tree
  fits : ∀ {n rest}, d.Fits n rest → d'.Fits n rest

/-- The second derivation and the group can stand for the first in a product. -/
structure Parted (s : Scope) (d d' : Derivation true r) (g : Derivation true .operand) : Prop where
  opening : ∃ o ts, g.tokens = o :: ts ∧ o.kind = .lparen
  splits : Splits s r d.tree d'.tree g.tree
  fits : ∀ {n rest}, d.Fits n rest → d'.Fits n (g.tokens ++ rest) ∧ g.Fits n rest ∧ Ends r rest

/-- What comes before the rest of a chain fits before what stands for it. -/
lemma Whole.before {r' : Rule} {d d' : Derivation true r} {tail : Derivation true r'} {n : ℕ}
    (hr : r' = .sumTail ∨ r' = .productTail) (h : Whole s d d')
    (ht : Enclosed (marks s first tail) us) (hf : d.Fits n (tail.tokens ++ rest)) :
    d'.Fits n (us ++ rest) :=
  fits_congr d' (head?_tail hr ht rest) (h.fits hf)

/-- The name alone, as a sum. -/
def nameSum (f : Token) (hf : f.kind = .ident) : Derivation true .sum :=
  .sum (.product (.unsigned (.base (.factorial (.name f hf) [] no_bangs))) .productEnd) .sumEnd

lemma fits_nameSum {f : Token} (hf : f.kind = .ident) {n : ℕ} (h : Ends .sum rest) :
    (nameSum f hf).Fits n rest :=
  ⟨⟨⟨⟨clear_isOpening h, h.1⟩, h.2.1⟩, h.2.2.1⟩, h.2.2.2⟩

/-- The name of the call in parentheses and its argument in parentheses. -/
lemma parted_call {f o c o' c' : Token} (hf : f.kind = .ident) (ho : o.kind = .lparen)
    (hc : c.kind = .rparen) (ho' : o'.kind = .lparen) (hc' : c'.kind = .rparen)
    {arg arg' : Derivation true .sum} (h : Whole s arg arg') (hs : standsFor s f.text = true) :
    Parted s (.call f o c hf ho hc arg) (.group o' c' ho' hc' (nameSum f hf))
      (.group o c ho hc arg') where
  opening := ⟨o, _, rfl, ho⟩
  splits := plain_call_product hs f.pos h.same
  fits hfit := ⟨⟨hfit.1, fits_nameSum hf (ends_of_rparen hc' _)⟩, ⟨hfit.1, h.fits hfit.2⟩, trivial⟩

lemma Parted.factorial {d d' g : Derivation true .operand} (h : Parted s d d' g) :
    Parted s (.factorial d [] no_bangs) (.factorial d' [] no_bangs) g where
  opening := h.opening
  splits := h.splits
  fits hfit := by
    obtain ⟨hd, hg, -⟩ := h.fits hfit.1
    obtain ⟨o, ts, hts, ho⟩ := h.opening
    exact ⟨⟨hd, by simp [hts, ho, isBang]⟩, hg, hfit.2⟩

lemma Parted.base {d d' : Derivation true .factorial} {g : Derivation true .operand}
    (h : Parted s d d' g) : Parted s (.base d) (.base d') g where
  opening := h.opening
  splits := h.splits
  fits hfit := by
    obtain ⟨hd, hg, hbang⟩ := h.fits hfit.1
    obtain ⟨o, ts, hts, ho⟩ := h.opening
    exact ⟨⟨hd, by simp [hts, ho, isCaret]⟩, hg, hbang, hfit.2⟩

lemma Parted.unsigned {d d' : Derivation true .power} {g : Derivation true .operand}
    (h : Parted s d d' g) : Parted s (.unsigned d) (.unsigned d') g :=
  ⟨h.opening, h.splits, h.fits⟩

lemma Parted.sign {d d' : Derivation true .signed} {g : Derivation true .operand} (t : Token)
    (sign : Sign) (ht : sign? t.kind = some sign) (h : Parted s d d' g) :
    Parted s (.sign t sign ht d) (.sign t sign ht d') g where
  opening := h.opening
  splits := plain_signed_product sign h.splits
  fits hfit := by
    obtain ⟨hd, hg, hends⟩ := h.fits hfit.2
    exact ⟨⟨hfit.1, hd⟩, fits_of_succ g hg, hends⟩

/-- The group becomes a neighbour of the factor. -/
def neighbours (factor : Derivation true .signed) (g : Derivation true .operand)
    (tail : Derivation true .productTail) : Derivation true .product :=
  .product factor (.neighbour rfl (.base (.factorial g [] no_bangs)) tail)

lemma tokens_neighbours (factor : Derivation true .signed) (g : Derivation true .operand)
    (tail : Derivation true .productTail) :
    (neighbours factor g tail).tokens = factor.tokens ++ g.tokens ++ tail.tokens := by
  simp [neighbours, Derivation.tokens]

lemma Parted.product {d d' : Derivation true .signed} {g : Derivation true .operand}
    {tail tail' : Derivation true .productTail} (h : Parted s d d' g) (htail : Whole s tail tail')
    (ht : Enclosed (marks s true tail) tail'.tokens) :
    Whole s (.product d tail) (neighbours d' g tail') where
  same := htail.same _ _ h.splits
  fits {n rest} hfit := by
    obtain ⟨hd, hg, hbang, hcaret⟩ := h.fits hfit.1
    obtain ⟨o, ts, hts, -⟩ := h.opening
    have hhead := head?_tail (.inr rfl) ht rest
    have hclear : ∀ p, Clear p (tail.tokens ++ rest) → Clear p (tail'.tokens ++ rest) :=
      fun p hp => by rwa [Clear, hhead]
    refine ⟨fits_congr d' ?_ hd, ⟨⟨?_, hclear _ hbang⟩, hclear _ hcaret⟩, htail.fits hfit.2⟩
    · simp [Derivation.tokens, hts]
    · exact fits_congr g hhead hg

/-- There is a derivation of the tokens that can stand for this one. -/
def Replaced (s : Scope) (d : Derivation true r) (us : List Token) : Prop :=
  ∃ d', d'.tokens = us ∧ Whole s d d'

/-- The tokens are those of a derivation and of a group that can stand for this one in a product. -/
def Broken (s : Scope) (d : Derivation true r) (us : List Token) : Prop :=
  ∃ d' g, d'.tokens ++ g.tokens = us ∧ Parted s d d' g

/-- A chain is not broken: it has the product in it that its first factor is broken for. -/
lemma not_broken {d : Derivation true r}
    (hr : r = .sum ∨ r = .product ∨ r = .sumTail ∨ r = .productTail) : ¬ Broken s d us := by
  rintro ⟨d', g, -, h⟩
  rcases hr with rfl | rfl | rfl | rfl <;> exact h.splits

/-- **Names in parentheses**: a derivation has another one that stands for it, or it begins a
product and has two factors that stand for it there. -/
lemma replaced_or_broken (d : Derivation true r) (h : Enclosed (marks s first d) us) :
    Replaced s d us ∨ (first = true ∧ Broken s d us) := by
  induction d generalizing first us with
  | sum term tail ihf iht =>
    obtain ⟨vs, ws, hv, hw, rfl⟩ := enclosed_append h
    obtain ⟨f', rfl, hf⟩ := (ihf hv).resolve_right fun hb => not_broken (by simp) hb.2
    obtain ⟨t', rfl, ht⟩ := (iht hw).resolve_right fun hb => not_broken (by simp) hb.2
    exact .inl ⟨.sum f' t', rfl, ht.same _ _ hf.same, fun hfit =>
      ⟨hf.before (.inl rfl) hw hfit.1, ht.fits hfit.2⟩⟩
  | sumEnd =>
    obtain rfl := enclosed_nil h
    exact .inl ⟨.sumEnd, rfl, fun _ _ hl => hl, id⟩
  | productEnd =>
    obtain rfl := enclosed_nil h
    exact .inl ⟨.productEnd, rfl, fun _ _ hl => hl, id⟩
  | sumLink t op hop term tail ihf iht =>
    obtain ⟨us, hu, rfl⟩ := enclosed_cons h
    obtain ⟨vs, ws, hv, hw, rfl⟩ := enclosed_append hu
    obtain ⟨f', rfl, hf⟩ := (ihf hv).resolve_right fun hb => not_broken (by simp) hb.2
    obtain ⟨t', rfl, ht⟩ := (iht hw).resolve_right fun hb => not_broken (by simp) hb.2
    exact .inl ⟨.sumLink t op hop f' t', rfl,
      fun _ _ hl => ht.same _ _ (plain_binary op hl hf.same), fun hfit =>
        ⟨hf.before (.inl rfl) hw hfit.1, ht.fits hfit.2⟩⟩
  | product factor tail ihf iht =>
    obtain ⟨vs, ws, hv, hw, rfl⟩ := enclosed_append h
    obtain ⟨t', rfl, ht⟩ := (iht hw).resolve_right fun hb => not_broken (by simp) hb.2
    rcases ihf hv with ⟨f', rfl, hf⟩ | ⟨-, f', g, rfl, hf⟩
    · exact .inl ⟨.product f' t', rfl, ht.same _ _ hf.same, fun hfit =>
        ⟨hf.before (.inr rfl) hw hfit.1, ht.fits hfit.2⟩⟩
    · -- the marked call leads the product and comes apart into two neighbours
      exact .inl ⟨neighbours f' g t', tokens_neighbours f' g t', hf.product ht hw⟩
  | productLink t op hop factor tail ihf iht =>
    obtain ⟨us, hu, rfl⟩ := enclosed_cons h
    obtain ⟨vs, ws, hv, hw, rfl⟩ := enclosed_append hu
    -- behind an operator no factor is the first
    obtain ⟨f', rfl, hf⟩ := (ihf hv).resolve_right (by simp)
    obtain ⟨t', rfl, ht⟩ := (iht hw).resolve_right fun hb => not_broken (by simp) hb.2
    exact .inl ⟨.productLink t op hop f' t', rfl,
      fun _ _ hl => ht.same _ _ (plain_binary op hl hf.same), fun hfit =>
        ⟨hf.before (.inr rfl) hw hfit.1, ht.fits hfit.2⟩⟩
  | neighbour hi factor tail ihf iht =>
    obtain ⟨vs, ws, hv, hw, rfl⟩ := enclosed_append h
    obtain ⟨f', rfl, hf⟩ := (ihf hv).resolve_right (by simp)
    obtain ⟨t', rfl, ht⟩ := (iht hw).resolve_right fun hb => not_broken (by simp) hb.2
    exact .inl ⟨.neighbour hi f' t', rfl,
      fun _ _ hl => ht.same _ _ (plain_binary .implied hl hf.same), fun hfit =>
        ⟨hf.before (.inr rfl) hw hfit.1, ht.fits hfit.2⟩⟩
  | sign t sign ht e ih =>
    obtain ⟨us, hu, rfl⟩ := enclosed_cons h
    rcases ih hu with ⟨e', rfl, he⟩ | ⟨hfirst, e', g, rfl, he⟩
    · refine .inl ⟨.sign t sign ht e', rfl, ?_, fun hfit => ⟨hfit.1, he.fits hfit.2⟩⟩
      have hsame : plain s e.tree = plain s e'.tree := he.same
      simp only [Same, Derivation.tree, plain, hsame]
    · exact .inr ⟨hfirst, .sign t sign ht e', g, rfl, he.sign t sign ht⟩
  | unsigned e ih =>
    rcases ih h with ⟨e', rfl, he⟩ | ⟨hfirst, e', g, rfl, he⟩
    · exact .inl ⟨.unsigned e', rfl, he.same, he.fits⟩
    · exact .inr ⟨hfirst, .unsigned e', g, rfl, he.unsigned⟩
  | base e ih =>
    rcases ih h with ⟨e', rfl, he⟩ | ⟨hfirst, e', g, rfl, he⟩
    · exact .inl ⟨.base e', rfl, he.same, fun hfit => ⟨he.fits hfit.1, hfit.2⟩⟩
    · exact .inr ⟨hfirst, .base e', g, rfl, he.base⟩
  | raised e t ht x ihe ihx =>
    obtain ⟨vs, ws, hv, hw, rfl⟩ := enclosed_append h
    obtain ⟨xs, hxs, rfl⟩ := enclosed_cons hw
    obtain ⟨e', rfl, he⟩ := (ihe hv).resolve_right (by simp)
    obtain ⟨x', rfl, hx⟩ := (ihx hxs).resolve_right (by simp)
    refine .inl ⟨.raised e' t ht x', rfl, plain_binary .pow he.same hx.same, fun hfit => ?_⟩
    have hbase := he.fits hfit.1
    exact ⟨fits_congr e' (by rfl) hbase, hfit.2.1, hx.fits hfit.2.2⟩
  | factorial e bangs hb ih =>
    obtain ⟨vs, ws, hv, hw, rfl⟩ := enclosed_append h
    obtain rfl := enclosed_bangs hw
    rcases ih hv with ⟨e', rfl, he⟩ | ⟨hfirst, e', g, rfl, he⟩
    · exact .inl ⟨.factorial e' ws hb, rfl, plain_bangs ws he.same, fun hfit =>
        ⟨he.fits hfit.1, hfit.2⟩⟩
    · -- a call comes apart only if no mark follows it
      obtain ⟨rfl, hnil⟩ : first = true ∧ ws = [] := by simpa using hfirst
      subst hnil
      exact .inr ⟨rfl, .factorial e' [] no_bangs, g, by simp [Derivation.tokens], he.factorial⟩
  | number t v ht =>
    obtain ⟨us, hu, rfl⟩ := enclosed_cons h
    obtain rfl := enclosed_nil hu
    exact .inl ⟨.number t v ht, rfl, rfl, id⟩
  | name t ht =>
    obtain ⟨us, hu, rfl⟩ := enclosed_cons h
    obtain rfl := enclosed_nil hu
    exact .inl ⟨.name t ht, rfl, rfl, id⟩
  | group o c ho hc e ih =>
    obtain ⟨us, hu, rfl⟩ := enclosed_cons h
    obtain ⟨vs, hv, rfl⟩ := enclosed_last hu
    obtain ⟨e', rfl, he⟩ := (ih hv).resolve_right fun hb => not_broken (by simp) hb.2
    exact .inl ⟨.group o c ho hc e', rfl, he.same, fun hfit => ⟨hfit.1, he.fits hfit.2⟩⟩
  | call f o c hf ho hc arg ih =>
    obtain ⟨us₁, hu₁, hus⟩ := enclosed_head h
    obtain ⟨us₂, hu₂, rfl⟩ := enclosed_cons hu₁
    obtain ⟨vs, hv, rfl⟩ := enclosed_last hu₂
    obtain ⟨a', rfl, ha⟩ := (ih hv).resolve_right fun hb => not_broken (by simp) hb.2
    -- the name is as it was, or it is enclosed and its argument becomes a neighbour
    rcases hus with rfl | ⟨hmark, o', c', ho', hc', rfl⟩
    · exact .inl ⟨.call f o c hf ho hc a', rfl, plain_call f.text f.pos ha.same, fun hfit =>
        ⟨hfit.1, ha.fits hfit.2⟩⟩
    · obtain ⟨hfirst, hstands⟩ := Bool.and_eq_true_iff.mp hmark
      exact .inr ⟨hfirst, _, _, rfl, parted_call hf ho hc ho' hc' ha hstands⟩
  | callTwo f o m c hf ho hm hc arg arg' ih ih' =>
    obtain ⟨us₁, hu₁, rfl⟩ := enclosed_cons h
    obtain ⟨us₂, hu₂, rfl⟩ := enclosed_cons hu₁
    obtain ⟨vs, ws, hv, hw, rfl⟩ := enclosed_append hu₂
    obtain ⟨ws₁, hw₁, rfl⟩ := enclosed_cons hw
    obtain ⟨ws₂, hw₂, rfl⟩ := enclosed_last hw₁
    obtain ⟨a, rfl, ha⟩ := (ih hv).resolve_right fun hb => not_broken (by simp) hb.2
    obtain ⟨b, rfl, hb⟩ := (ih' hw₂).resolve_right fun hb => not_broken (by simp) hb.2
    refine .inl ⟨.callTwo f o m c hf ho hm hc a b, rfl, ?_, fun hfit => ?_⟩
    · have hsame : plain s arg.tree = plain s a.tree := ha.same
      have hsame' : plain s arg'.tree = plain s b.tree := hb.same
      simp only [Same, Derivation.tree, plain, plainAll, hsame, hsame']
    · have harg := ha.fits hfit.2.1
      exact ⟨hfit.1, fits_congr a (by rfl) harg, hb.fits hfit.2.2⟩

/-- **Names of marked calls can be put in parentheses**: what is read so has the same outcome. -/
theorem derives_enclosed {d : Derivation true .sum} {ts : List Token} (hd : d.Derives ts)
    (h : Enclosed (marks s true d) us) :
    ∃ d' : Derivation true .sum, d'.Derives us ∧ s.outcome d'.tree = s.outcome d.tree := by
  obtain ⟨-, hfit⟩ := Derivation.derives_iff.mp hd
  obtain ⟨d', htokens, hsame, hfit'⟩ :=
    (replaced_or_broken d h).resolve_right fun hb => not_broken (by simp) hb.2
  refine ⟨d', Derivation.derives_iff.mpr ⟨htokens, hfit' hfit⟩, ?_⟩
  have htree : plain s d.tree = plain s d'.tree := hsame
  rw [Scope.outcome, Scope.outcome, eval_eq, eval_eq, htree]

end Abacus.Proofs.ImpliedCalls
