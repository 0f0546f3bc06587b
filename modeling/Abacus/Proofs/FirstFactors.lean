import Mathlib.Data.List.DropRight
import Abacus.Proofs.ImpliedCalls

/-!
Where a product begins. Whether a call is the first factor of its product, and free of bangs and of
an exponent, is seen from the tokens around it: the token before it, or before the signs in front
of it, and the token behind its closing parenthesis.
-/

namespace Abacus.Proofs.ImpliedCalls

open Grammar

/-! ### The tokens around a factor -/

def isSign (t : Token) : Bool := (sign? t.kind).isSome

/-- The last token of an operand and its bangs. -/
def endsOperand : Token.Kind → Bool
  | .number _ => true
  | .ident => true
  | .rparen => true
  | .bang => true
  | _ => false

/-- An operator that has a signed factor or exponent on its right. -/
def takesSigned (k : Token.Kind) : Bool := (productOperator? k).isSome || k = .caret

/-- A factor behind the tokens is the first of its product: no operand ends right before it, and
neither it nor the signs before it stand behind an operator of products or powers. -/
@[mk_iff]
structure BeginsProduct (before : List Token) : Prop where
  operand : ∀ t ∈ before.getLast?, endsOperand t.kind = false
  operator : ∀ t ∈ (before.rdropWhile isSign).getLast?, takesSigned t.kind = false

/-- Neither a bang nor an exponent is next. -/
@[mk_iff]
structure Free (rest : List Token) : Prop where
  bang : Clear isBang rest
  caret : Clear isCaret rest

instance (before : List Token) : Decidable (BeginsProduct before) :=
  decidable_of_iff' _ (beginsProduct_iff before)

instance (p : Token.Kind → Bool) (rest : List Token) : Decidable (Clear p rest) :=
  inferInstanceAs (Decidable (∀ t ∈ rest.head?, p t.kind = false))

instance (rest : List Token) : Decidable (Free rest) := decidable_of_iff' _ (free_iff rest)

def FollowsOperand (before : List Token) : Prop := ∃ t ∈ before.getLast?, endsOperand t.kind = true

def FollowsOperator (before : List Token) : Prop :=
  ∃ t ∈ (before.rdropWhile isSign).getLast?, takesSigned t.kind = true

variable {before pre rest : List Token} {t : Token}

lemma FollowsOperand.not_beginsProduct (h : FollowsOperand before) : ¬ BeginsProduct before := by
  obtain ⟨t, ht, hk⟩ := h
  exact fun hb => by simp [hb.operand t ht] at hk

lemma FollowsOperator.not_beginsProduct (h : FollowsOperator before) :
    ¬ BeginsProduct before := by
  obtain ⟨t, ht, hk⟩ := h
  exact fun hb => by simp [hb.operator t ht] at hk

lemma FollowsOperator.sign (h : FollowsOperator before) (ht : isSign t = true) :
    FollowsOperator (before ++ [t]) := by
  rwa [FollowsOperator, List.rdropWhile_concat_pos _ _ _ ht]

lemma followsOperator_concat (h : takesSigned t.kind = true) :
    FollowsOperator (before ++ [t]) := by
  have hsign : ¬ isSign t = true := by
    revert h
    rw [takesSigned, isSign]
    cases t.kind <;> simp [productOperator?, sign?]
  refine ⟨t, ?_, h⟩
  rw [List.rdropWhile_concat_neg _ _ _ hsign]
  simp

lemma FollowsOperand.append {ts : List Token} (h : FollowsOperand ts) (before : List Token) :
    FollowsOperand (before ++ ts) := by
  obtain ⟨t, ht, hk⟩ := h
  exact ⟨t, by simp_all [List.getLast?_append], hk⟩

lemma followsOperand_concat (ts : List Token) (h : endsOperand t.kind = true) :
    FollowsOperand (ts ++ [t]) := ⟨t, by simp, h⟩

/-- An operand ends where a factor does. -/
lemma followsOperand_tokens {r : Rule} (d : Derivation true r)
    (h : r = .signed ∨ r = .power ∨ r = .factorial ∨ r = .operand) : FollowsOperand d.tokens := by
  induction d with
  | sign t s _ e ih => exact (ih (by simp)).append [t]
  | unsigned e ih | base e ih => exact ih (by simp)
  | raised e t _ x _ ih =>
    have hx := (ih (by simp)).append [t]
    exact hx.append e.tokens
  | factorial e bangs hb ih =>
    rcases List.eq_nil_or_concat bangs with rfl | ⟨bs, b, rfl⟩
    · simpa [Derivation.tokens] using ih (by simp)
    · have hlast : endsOperand b.kind = true := by simp [hb b (by simp), endsOperand]
      have hbangs := (followsOperand_concat bs hlast).append e.tokens
      simpa [Derivation.tokens] using hbangs
  | number t v ht => exact followsOperand_concat [] (by simp [ht, endsOperand])
  | name t ht => exact followsOperand_concat [] (by simp [ht, endsOperand])
  | group o c _ hc e =>
    exact followsOperand_concat (o :: e.tokens) (by simp [hc, endsOperand])
  | call f o c _ _ hc arg =>
    exact followsOperand_concat (f :: o :: arg.tokens) (by simp [hc, endsOperand])
  | callTwo f o m c _ _ _ hc arg arg' =>
    have hlast : endsOperand c.kind = true := by simp [hc, endsOperand]
    have hall := followsOperand_concat (f :: o :: (arg.tokens ++ m :: arg'.tokens)) hlast
    simpa [Derivation.tokens] using hall
  | _ => simp at h

/-- What the tokens around a derivation are if it begins no product, and what they are before the
rest of a product in any case. -/
def Placed (first : Bool) : Rule → List Token → List Token → Prop
  | .productTail, before, _ => FollowsOperand before
  | .signed, before, _ => first = false → FollowsOperator before
  | .power, before, rest => first = false → BeginsProduct before → ¬ Free rest
  | .factorial, before, rest => first = false → BeginsProduct before → ¬ Free rest
  | .operand, before, rest => first = false → BeginsProduct before → ¬ Free rest
  | _, _, _ => True

/-! ### One token of many -/

/-- Where the tokens hold `f` with `after` behind it, and a product begins there, `f` is marked. -/
def Catches (f : Token) (after before ts rest : List Token) (ms : List (Token × Bool)) : Prop :=
  ∀ pre X, ts = pre ++ f :: X → X ++ rest = after → BeginsProduct (before ++ pre) →
    ∃ ms₁ ms₂, ms = ms₁ ++ (f, true) :: ms₂ ∧ ms₁.map (·.1) = pre

variable {f : Token} {after as bs : List Token} {ms ns : List (Token × Bool)}

lemma catches_nil : Catches f after before [] rest [] := by
  intro pre X h
  simp at h

lemma Catches.append (h : Catches f after before as (bs ++ rest) ms)
    (h' : Catches f after (before ++ as) bs rest ns) (hms : ms.map (·.1) = as) :
    Catches f after before (as ++ bs) rest (ms ++ ns) := by
  intro pre X hsplit hafter hbegins
  have hright : ∀ pre', pre = as ++ pre' → bs = pre' ++ f :: X →
      ∃ ms₁ ms₂, ms ++ ns = ms₁ ++ (f, true) :: ms₂ ∧ ms₁.map (·.1) = pre := by
    rintro pre' rfl hbs
    obtain ⟨ms₁, ms₂, rfl, rfl⟩ := h' pre' X hbs hafter (by rwa [List.append_assoc])
    exact ⟨ms ++ ms₁, ms₂, by simp, by simp [hms]⟩
  -- the name stands among the second tokens, at their start, or among the first
  rcases List.append_eq_append_iff.mp hsplit with ⟨ys, hpre, hbs⟩ | ⟨ys, has, hf⟩
  · exact hright ys hpre hbs
  · cases ys with
    | nil => exact hright [] (by simpa using has.symm) (by simpa using hf.symm)
    | cons y ys =>
      obtain ⟨rfl, hX⟩ := List.cons.inj hf
      have hys : ys ++ (bs ++ rest) = after := by rw [← List.append_assoc, ← hafter, hX]; rfl
      obtain ⟨ms₁, ms₂, rfl, rfl⟩ := h pre ys has hys hbegins
      exact ⟨ms₁, ms₂ ++ ns, by simp, rfl⟩

lemma Catches.cons {b : Bool}
    (hhead : t = f → bs ++ rest = after → BeginsProduct before → b = true)
    (h : Catches f after (before ++ [t]) bs rest ms) :
    Catches f after before (t :: bs) rest ((t, b) :: ms) := by
  intro pre X hsplit hafter hbegins
  cases pre with
  | nil =>
    obtain ⟨rfl, rfl⟩ := List.cons.inj hsplit
    have hb : b = true := hhead rfl hafter (by simpa using hbegins)
    exact ⟨[], ms, by rw [hb]; rfl, rfl⟩
  | cons p pre =>
    obtain ⟨rfl, hbs⟩ := List.cons.inj hsplit
    obtain ⟨ms₁, ms₂, rfl, rfl⟩ := h pre X hbs hafter (by simpa using hbegins)
    exact ⟨(t, b) :: ms₁, ms₂, rfl, rfl⟩

lemma Catches.other {b : Bool} (hne : t.kind ≠ f.kind)
    (h : Catches f after (before ++ [t]) bs rest ms) :
    Catches f after before (t :: bs) rest ((t, b) :: ms) :=
  h.cons fun ht => absurd (congrArg Token.kind ht) hne

lemma Catches.last {b : Bool} (hne : t.kind ≠ f.kind)
    (h : Catches f after before as (t :: rest) ms) (hms : ms.map (·.1) = as) :
    Catches f after before (as ++ [t]) rest (ms ++ [(t, b)]) :=
  h.append (catches_nil.other hne) hms

lemma catches_bangs (hf : f.kind = .ident) (hb : ∀ b ∈ bs, b.kind = .bang) :
    Catches f after before bs rest (bs.map (·, false)) := by
  induction bs generalizing before with
  | nil => exact catches_nil
  | cons b bs ih =>
    have hne : b.kind ≠ f.kind := by simp [hb b (by simp), hf]
    exact (ih fun b hb' => hb b (List.mem_cons_of_mem _ hb')).other hne

/-! ### Calls -/

section Call

variable {s : Scope} {o c : Token} {args : Derivation true .sum} {post : List Token}
  (hf : f.kind = .ident) (ho : o.kind = .lparen) (hc : c.kind = .rparen)
  (hargs : args.Fits 0 (c :: post)) (hfree : Free post) (hs : standsFor s f.text = true)

include hf ho hc hargs hfree hs in
/-- **A call that begins its product is marked**, if nothing binds it closer. -/
lemma catches_marks {r : Rule} {first : Bool} (d : Derivation true r) {n : ℕ}
    (hfit : d.Fits n rest) (hplaced : Placed first r before rest) :
    Catches f (o :: (args.tokens ++ c :: post)) before d.tokens rest (marks s first d) := by
  induction d generalizing first n before rest with
  | sum term tail ihf iht =>
    exact (ihf hfit.1 trivial).append (iht hfit.2 trivial) (fst_marks term _)
  | product factor tail ihf iht =>
    -- every later factor stands behind an operand, so it begins no product
    have hends := (followsOperand_tokens factor (by simp)).append before
    exact (ihf hfit.1 (by simp [Placed])).append (iht hfit.2 hends) (fst_marks factor _)
  | sumEnd | productEnd => exact catches_nil
  | sumLink t op ht term tail ihf iht =>
    have hne : t.kind ≠ f.kind := by
      rw [hf]
      rintro h
      simp [h, sumOperator?] at ht
    exact ((ihf hfit.1 trivial).append (iht hfit.2 trivial) (fst_marks term _)).other hne
  | productLink t op ht factor tail ihf iht =>
    have hne : t.kind ≠ f.kind := by
      rw [hf]
      rintro h
      simp [h, productOperator?] at ht
    -- a factor behind an operator is no first one
    have hoperator : FollowsOperator (before ++ [t]) :=
      followsOperator_concat (by simp [takesSigned, ht])
    have hends := (followsOperand_tokens factor (by simp)).append (before ++ [t])
    exact ((ihf hfit.1 fun _ => hoperator).append (iht hfit.2 hends) (fst_marks factor _)).other hne
  | neighbour hi factor tail ihf iht =>
    have hends := (followsOperand_tokens factor (by simp)).append before
    exact (ihf hfit.1 fun _ hb => absurd hb hplaced.not_beginsProduct).append (iht hfit.2 hends)
      (fst_marks factor _)
  | sign t sign ht e ih =>
    have hne : t.kind ≠ f.kind := by
      rw [hf]
      rintro h
      simp [h, sign?] at ht
    refine Catches.other hne (ih hfit.2 fun hfirst => ?_)
    exact (hplaced hfirst).sign (by simp [isSign, ht])
  | unsigned e ih =>
    exact ih hfit fun hfirst hb => absurd hb (hplaced hfirst).not_beginsProduct
  | base e ih => exact ih hfit.1 hplaced
  | raised e t ht x ihe ihx =>
    -- what is raised is followed by an operator of powers, so it is not free
    have hcaret : ¬ Free (t :: (x.tokens ++ rest)) := fun h => by
      simpa [isCaret, ht] using h.caret
    have hoperator : FollowsOperator (before ++ e.tokens ++ [t]) :=
      followsOperator_concat (by simp [takesSigned, ht])
    exact (ihe hfit.1 fun _ _ => hcaret).append
      (Catches.other (by simp [ht, hf]) (ihx hfit.2.2 fun _ => hoperator)) (fst_marks e _)
  | factorial e bangs hb ih =>
    refine (ih hfit.1 fun hfirst => ?_).append (catches_bangs hf hb) (fst_marks e _)
    cases bangs with
    | nil => exact hplaced (by simpa using hfirst)
    | cons b bangs =>
      have hbang : ¬ Free (b :: (bangs ++ rest)) := fun h => by
        simpa [isBang, hb b (by simp)] using h.bang
      exact fun _ => hbang
  | number t v ht => exact catches_nil.other (by simp [ht, hf])
  | name t ht =>
    refine catches_nil.cons fun _ hafter => ?_
    have hopening : Clear isOpening rest := hfit
    rw [List.nil_append] at hafter
    simp [hafter, isOpening, ho] at hopening
  | group o' c' ho' hc' e ih =>
    refine Catches.other (by simp [ho', hf]) (Catches.last (by simp [hc', hf]) ?_ (fst_marks e _))
    exact ih hfit.2 trivial
  | call f' o' c' hf' ho' hc' arg ih =>
    refine Catches.cons (fun hname hafter hbegins => ?_) (Catches.other (by simp [ho', hf])
      (Catches.last (by simp [hc', hf]) (ih hfit.2 trivial) (fst_marks arg _)))
    -- the two derivations of the argument are one, and the call is free and begins a product
    obtain ⟨-, hargs'⟩ := List.cons.inj hafter
    obtain ⟨-, hpost⟩ := Derivation.unique arg args hfit.2.stands hargs.stands
      (by simpa using hargs')
    obtain ⟨-, rfl⟩ := List.cons.inj hpost
    have hfirst : first = true := by
      by_contra hfirst
      exact hplaced (by simpa using hfirst) hbegins hfree
    rw [hfirst, hname, hs]
    rfl
  | callTwo f' o' m c' hf' ho' hm hc' arg arg' ih ih' =>
    have hrest : m :: (arg'.tokens ++ [c']) ++ rest = m :: (arg'.tokens ++ c' :: rest) := by simp
    refine Catches.cons (fun _ hafter _ => ?_) (Catches.other (by simp [ho', hf])
      (Catches.append (hrest ▸ ih hfit.2.1 trivial) (Catches.other (by simp [hm, hf])
        (Catches.last (by simp [hc', hf]) (ih' hfit.2.2 trivial) (fst_marks arg' _)))
        (fst_marks arg _)))
    -- the first argument ends at a comma, and the other derivation at a parenthesis
    obtain ⟨-, hargs'⟩ := List.cons.inj hafter
    obtain ⟨-, hpost⟩ := Derivation.unique arg args hfit.2.1.stands hargs.stands
      (by simpa using hargs')
    obtain ⟨rfl, -⟩ := List.cons.inj hpost
    simp [hm] at hc

include hf ho hc hargs hfree hs in
/-- **The name of a call that begins its product can be put in parentheses.** -/
theorem derives_parenthesised {d : Derivation true .sum}
    (hd : d.Derives (pre ++ f :: o :: (args.tokens ++ c :: post))) (hbegins : BeginsProduct pre)
    {o' c' : Token} (ho' : o'.kind = .lparen) (hc' : c'.kind = .rparen) :
    ∃ d' : Derivation true .sum,
      d'.Derives (pre ++ o' :: f :: c' :: o :: (args.tokens ++ c :: post)) ∧
        s.outcome d'.tree = s.outcome d.tree := by
  obtain ⟨htokens, hfit⟩ := Derivation.derives_iff.mp hd
  have hcatches : Catches f (o :: (args.tokens ++ c :: post)) [] d.tokens [] (marks s true d) :=
    catches_marks hf ho hc hargs hfree hs d hfit trivial
  obtain ⟨ms, ms', hmarks, rfl⟩ := hcatches pre _ htokens (List.append_nil _) hbegins
  have hrest : ms'.map (·.1) = o :: (args.tokens ++ c :: post) := by
    have hall := fst_marks (s := s) d true
    rw [hmarks, htokens] at hall
    simpa using hall
  refine derives_enclosed hd ?_
  rw [hmarks, ← hrest]
  exact (Enclosed.refl ms).append (.enclose o' c' ho' hc' (Enclosed.refl ms'))

end Call

end Abacus.Proofs.ImpliedCalls
