import Abacus.Proofs.Fitting
import Abacus.Proofs.Uses

/-!
What a list of tokens names, and in which order. The names used as variables are the words with no
parenthesis right after them. A call belongs to its closing parenthesis, which one pass over the
tokens finds by keeping the parentheses that are still open. Both lists are those of the tree.
-/

namespace Abacus.Proofs.SourceOrder

open Grammar Uses

/-- The words that no parenthesis follows. -/
def names : List Token → List String
  | [] => []
  | t :: ts =>
    if t.kind = .ident ∧ ts.head?.all (·.kind ≠ .lparen) then t.text :: names ts else names ts

/-- A parenthesis that is still open: the word right before it, if there is one, and how many
commas stand in it so far. -/
structure Opened where
  name : Option String
  commas : ℕ

/-- The calls in the order of their closing parentheses, with the number of arguments; `before` is
the word that comes before the tokens, and the innermost open parenthesis is the first. -/
def closings (before : Option String) (opened : List Opened) : List Token → List (String × ℕ)
  | [] => []
  | t :: ts =>
    match t.kind, opened with
    | .ident, _ => closings (some t.text) opened ts
    | .lparen, _ => closings none (⟨before, 0⟩ :: opened) ts
    | .comma, p :: outer => closings none (⟨p.name, p.commas + 1⟩ :: outer) ts
    | .rparen, ⟨some name, commas⟩ :: outer => (name, commas + 1) :: closings none outer ts
    | .rparen, ⟨none, _⟩ :: outer => closings none outer ts
    | _, _ => closings none opened ts

/-- The calls of a source. -/
def closedCalls (ts : List Token) : List (String × ℕ) := closings none [] ts

/-! ### One token -/

variable {t : Token} {ts : List Token} {b : Option String} {opened : List Opened}

lemma names_cons_name (h : t.kind = .ident) (hc : Clear isOpening ts) :
    names (t :: ts) = t.text :: names ts := by
  have hall : ts.head?.all (·.kind ≠ .lparen) := by
    cases ts with
    | nil => rfl
    | cons o ts => simpa [isOpening] using hc
  rw [names, if_pos ⟨h, hall⟩]

lemma names_cons_call {o : Token} (h : o.kind = .lparen) :
    names (t :: o :: ts) = names (o :: ts) := by
  rw [names, if_neg]
  simp [h]

lemma names_cons_of_ne (h : t.kind ≠ .ident) : names (t :: ts) = names ts := by
  rw [names, if_neg (fun hc => h hc.1)]

/-- A token that the list of calls does not depend on. -/
def isInert : Token.Kind → Bool
  | .ident => false
  | .lparen => false
  | .rparen => false
  | .comma => false
  | _ => true

lemma names_inert (h : isInert t.kind = true) : names (t :: ts) = names ts := by
  refine names_cons_of_ne fun hk => ?_
  simp [hk, isInert] at h

lemma isInert_of_sumOperator {k : Token.Kind} {op : Operator} (h : sumOperator? k = some op) :
    isInert k = true := by
  cases k <;> simp_all [sumOperator?, isInert]

lemma isInert_of_productOperator {k : Token.Kind} {op : Operator}
    (h : productOperator? k = some op) : isInert k = true := by
  cases k <;> simp_all [productOperator?, isInert]

lemma isInert_of_sign {k : Token.Kind} {s : Sign} (h : sign? k = some s) : isInert k = true := by
  cases k <;> simp_all [sign?, isInert]

lemma closings_inert (h : isInert t.kind = true) :
    closings b opened (t :: ts) = closings none opened ts := by
  cases hk : t.kind <;> simp_all [isInert, closings]

lemma closings_word (h : t.kind = .ident) :
    closings b opened (t :: ts) = closings (some t.text) opened ts := by
  simp [closings, h]

lemma closings_opening (h : t.kind = .lparen) :
    closings b opened (t :: ts) = closings none (⟨b, 0⟩ :: opened) ts := by
  simp [closings, h]

lemma closings_comma (h : t.kind = .comma) (p : Opened) :
    closings b (p :: opened) (t :: ts) = closings none (⟨p.name, p.commas + 1⟩ :: opened) ts := by
  simp [closings, h]

lemma closings_call (h : t.kind = .rparen) (name : String) (n : ℕ) :
    closings b (⟨some name, n⟩ :: opened) (t :: ts) = (name, n + 1) :: closings none opened ts := by
  simp [closings, h]

lemma closings_group (h : t.kind = .rparen) (n : ℕ) :
    closings b (⟨none, n⟩ :: opened) (t :: ts) = closings none opened ts := by
  simp [closings, h]

/-- The word before matters to a parenthesis only. -/
lemma closings_of_clear (h : Clear isOpening ts) :
    closings b opened ts = closings none opened ts := by
  cases ts with
  | nil => rfl
  | cons t ts =>
    have ht : t.kind ≠ .lparen := by simpa [isOpening] using h
    unfold closings
    split <;> first | rfl | contradiction

/-! ### Derivations -/

variable {implied : Bool} {r : Rule}

/-- The uses of what a rule has derived; for the rest of a chain those that it adds. -/
def usesOf {r : Rule} : Derivation implied r → List Use
  | .sum first tail => usesOf first ++ usesOf tail
  | .sumEnd => []
  | .sumLink _ _ _ term tail => usesOf term ++ usesOf tail
  | .product first tail => usesOf first ++ usesOf tail
  | .productEnd => []
  | .productLink _ _ _ factor tail => usesOf factor ++ usesOf tail
  | .neighbour _ factor tail => usesOf factor ++ usesOf tail
  | .sign _ _ _ e => usesOf e
  | .unsigned e => usesOf e
  | .base e => usesOf e
  | .raised e _ _ exponent => usesOf e ++ usesOf exponent
  | .factorial e _ _ => usesOf e
  | .number _ _ _ => []
  | .name t _ => [.reference t.text]
  | .group _ _ _ _ e => usesOf e
  | .call f _ _ _ _ _ arg => usesOf arg ++ [.call f.text 1]
  | .callTwo f _ _ _ _ _ _ _ arg arg' => usesOf arg ++ usesOf arg' ++ [.call f.text 2]

/-- What a rule yields has these uses; the rest of a chain adds them to those on its left. -/
def Yields (us : List Use) : (r : Rule) → (y : r.Yield) → Prop
  | .sumTail, f => ∀ left, uses (f left) = uses left ++ us
  | .productTail, f => ∀ left, uses (f left) = uses left ++ us
  | .sum, e => uses e = us
  | .product, e => uses e = us
  | .signed, e => uses e = us
  | .power, e => uses e = us
  | .factorial, e => uses e = us
  | .operand, e => uses e = us

lemma uses_bangs (bs : List Token) (e : Expr) :
    uses (bs.foldl (fun left _ => .factorial left) e) = uses e := by
  induction bs generalizing e with
  | nil => rfl
  | cons b bs ih => rw [List.foldl_cons, ih, uses]

lemma yields_tree (d : Derivation implied r) : Yields (usesOf d) r d.tree := by
  induction d with
  | sum first tail ihf iht => exact (iht first.tree).trans (by rw [ihf]; rfl)
  | sumEnd => exact fun left => (List.append_nil _).symm
  | sumLink t op _ term tail ihf iht =>
    intro left
    rw [Derivation.tree, iht, uses, ihf, List.append_assoc, usesOf]
  | product first tail ihf iht => exact (iht first.tree).trans (by rw [ihf]; rfl)
  | productEnd => exact fun left => (List.append_nil _).symm
  | productLink t op _ factor tail ihf iht =>
    intro left
    rw [Derivation.tree, iht, uses, ihf, List.append_assoc, usesOf]
  | neighbour _ factor tail ihf iht =>
    intro left
    rw [Derivation.tree, iht, uses, ihf, List.append_assoc, usesOf]
  | sign t s _ e ih => exact ih
  | unsigned e ih => exact ih
  | base e ih => exact ih
  | raised e t _ x ihe ihx => exact congrArg₂ (· ++ ·) ihe ihx
  | factorial e bs _ ih => exact (uses_bangs bs e.tree).trans ih
  | number => rfl
  | name => rfl
  | group o c _ _ e ih => exact ih
  | call f o c _ _ _ arg ih =>
    have ha : uses arg.tree = usesOf arg := ih
    simp [Yields, Derivation.tree, uses, usesAll, ha, usesOf]
  | callTwo f o m c _ _ _ _ arg arg' ih ih' =>
    have ha : uses arg.tree = usesOf arg := ih
    have ha' : uses arg'.tree = usesOf arg' := ih'
    simp [Yields, Derivation.tree, uses, usesAll, ha, ha', usesOf]

/-- A call has one argument or two. -/
lemma arity_of_mem (d : Derivation implied r) : ∀ c ∈ calls (usesOf d), c.2 = 1 ∨ c.2 = 2 := by
  induction d with
  | sumEnd | productEnd | number | name => simp [usesOf, calls]
  | sign _ _ _ _ ih | unsigned _ ih | base _ ih | factorial _ _ _ ih | group _ _ _ _ _ ih =>
    exact ih
  | call f o c _ _ _ arg ih =>
    rw [usesOf, calls_append]
    exact List.forall_mem_append.mpr ⟨ih, by simp [calls]⟩
  | callTwo f o m c _ _ _ _ arg arg' ih ih' =>
    rw [usesOf, calls_append, calls_append]
    exact List.forall_mem_append.mpr ⟨List.forall_mem_append.mpr ⟨ih, ih'⟩, by simp [calls]⟩
  | sum _ _ ih ih' | sumLink _ _ _ _ _ ih ih' | product _ _ ih ih' | productLink _ _ _ _ _ ih ih'
  | neighbour _ _ _ ih ih' | raised _ _ _ _ ih ih' =>
    rw [usesOf, calls_append]
    exact List.forall_mem_append.mpr ⟨ih, ih'⟩

/-! ### The tokens of a derivation -/

lemma names_bangs {bs : List Token} (hb : ∀ b ∈ bs, b.kind = .bang) (rest : List Token) :
    names (bs ++ rest) = names rest := by
  induction bs with
  | nil => rfl
  | cons b bs ih =>
    rw [List.cons_append, names_cons_of_ne (by simp [hb b (by simp)])]
    exact ih fun b hb' => hb b (List.mem_cons_of_mem _ hb')

lemma closings_bangs {bs : List Token} (hb : ∀ b ∈ bs, b.kind = .bang) (rest : List Token) :
    closings none opened (bs ++ rest) = closings none opened rest := by
  induction bs with
  | nil => rfl
  | cons b bs ih =>
    rw [List.cons_append, closings_inert (by simp [hb b (by simp), isInert])]
    exact ih fun b hb' => hb b (List.mem_cons_of_mem _ hb')

/-- The words among the tokens of a derivation that fits are the names of its variables. -/
lemma names_tokens (d : Derivation implied r) {n : ℕ} {rest : List Token} (h : d.Fits n rest) :
    names (d.tokens ++ rest) = references (usesOf d) ++ names rest := by
  induction d generalizing n rest with
  | sum first tail ihf iht | product first tail ihf iht | neighbour _ first tail ihf iht =>
    rw [Derivation.tokens, List.append_assoc, ihf h.1, iht h.2, usesOf, references_append,
      List.append_assoc]
  | sumEnd | productEnd => rfl
  | sumLink t op ht term tail ihf iht =>
    rw [Derivation.tokens, List.cons_append, names_inert (isInert_of_sumOperator ht),
      List.append_assoc, ihf h.1, iht h.2, usesOf, references_append, List.append_assoc]
  | productLink t op ht factor tail ihf iht =>
    rw [Derivation.tokens, List.cons_append, names_inert (isInert_of_productOperator ht),
      List.append_assoc, ihf h.1, iht h.2, usesOf, references_append, List.append_assoc]
  | sign t s ht e ih =>
    rw [Derivation.tokens, List.cons_append, names_inert (isInert_of_sign ht), ih h.2, usesOf]
  | unsigned e ih => exact ih h
  | base e ih => exact ih h.1
  | raised e t ht x ihe ihx =>
    rw [Derivation.tokens, List.append_assoc, List.cons_append, ihe h.1,
      names_cons_of_ne (by simp [ht]), ihx h.2.2, usesOf, references_append, List.append_assoc]
  | factorial e bs hb ih =>
    rw [Derivation.tokens, List.append_assoc, ih h.1, names_bangs hb, usesOf]
  | number t v ht => exact names_cons_of_ne (by simp [ht])
  -- a name counts where no parenthesis follows, and there it is derived as a reference
  | name t ht => exact names_cons_name ht h
  | group o c ho hc e ih =>
    rw [Derivation.tokens, List.cons_append, names_cons_of_ne (by simp [ho]), List.append_assoc,
      List.singleton_append, ih h.2, names_cons_of_ne (by simp [hc]), usesOf]
  | call f o c hf ho hc arg ih =>
    rw [Derivation.tokens, List.cons_append, List.cons_append, names_cons_call ho,
      names_cons_of_ne (by simp [ho]), List.append_assoc, List.singleton_append, ih h.2,
      names_cons_of_ne (by simp [hc]), usesOf, references_append, List.append_assoc]
    rfl
  | callTwo f o m c hf ho hm hc arg arg' ih ih' =>
    simp only [Derivation.tokens, List.cons_append, List.append_assoc, List.nil_append]
    rw [names_cons_call ho, names_cons_of_ne (by simp [ho]), ih h.2.1,
      names_cons_of_ne (by simp [hm]), ih' h.2.2, names_cons_of_ne (by simp [hc]), usesOf,
      references_append, references_append, List.append_assoc, List.append_assoc]
    rfl

/-- The calls that close among the tokens of a derivation that fits are its calls, and the
parentheses open before it are open after it. -/
lemma closings_tokens (d : Derivation implied r) {n : ℕ} {rest : List Token} (h : d.Fits n rest)
    (opened : List Opened) :
    closings none opened (d.tokens ++ rest) = calls (usesOf d) ++ closings none opened rest := by
  induction d generalizing n rest opened with
  | sum first tail ihf iht | product first tail ihf iht | neighbour _ first tail ihf iht =>
    rw [Derivation.tokens, List.append_assoc, ihf h.1, iht h.2, usesOf, calls_append,
      List.append_assoc]
  | sumEnd | productEnd => rfl
  | sumLink t op ht term tail ihf iht =>
    rw [Derivation.tokens, List.cons_append, closings_inert (isInert_of_sumOperator ht),
      List.append_assoc, ihf h.1, iht h.2, usesOf, calls_append, List.append_assoc]
  | productLink t op ht factor tail ihf iht =>
    rw [Derivation.tokens, List.cons_append, closings_inert (isInert_of_productOperator ht),
      List.append_assoc, ihf h.1, iht h.2, usesOf, calls_append, List.append_assoc]
  | sign t s ht e ih =>
    rw [Derivation.tokens, List.cons_append, closings_inert (isInert_of_sign ht), ih h.2, usesOf]
  | unsigned e ih => exact ih h opened
  | base e ih => exact ih h.1 opened
  | raised e t ht x ihe ihx =>
    rw [Derivation.tokens, List.append_assoc, List.cons_append, ihe h.1,
      closings_inert (by simp [ht, isInert]), ihx h.2.2, usesOf, calls_append, List.append_assoc]
  | factorial e bs hb ih =>
    rw [Derivation.tokens, List.append_assoc, ih h.1, closings_bangs hb, usesOf]
  | number t v ht => exact closings_inert (by simp [ht, isInert])
  | name t ht => exact (closings_word ht).trans (closings_of_clear h)
  | group o c ho hc e ih =>
    rw [Derivation.tokens, List.cons_append, closings_opening ho, List.append_assoc,
      List.singleton_append, ih h.2, closings_group hc, usesOf]
  | call f o c hf ho hc arg ih =>
    rw [Derivation.tokens, List.cons_append, List.cons_append, closings_word hf,
      closings_opening ho, List.append_assoc, List.singleton_append, ih h.2, closings_call hc,
      usesOf, calls_append, List.append_assoc]
    rfl
  | callTwo f o m c hf ho hm hc arg arg' ih ih' =>
    simp only [Derivation.tokens, List.cons_append, List.append_assoc, List.nil_append]
    rw [closings_word hf, closings_opening ho, ih h.2.1, closings_comma hm, ih' h.2.2,
      closings_call hc, usesOf, calls_append, calls_append, List.append_assoc, List.append_assoc]
    rfl

/-- **The uses of a tree in the order of its source.** -/
theorem uses_of_derives {d : Derivation implied .sum} (h : d.Derives ts) :
    references (uses d.tree) = names ts ∧ calls (uses d.tree) = closedCalls ts ∧
      ∀ c ∈ closedCalls ts, c.2 = 1 ∨ c.2 = 2 := by
  obtain ⟨rfl, hf⟩ := Derivation.derives_iff.mp h
  have hy : uses d.tree = usesOf d := yields_tree d
  have hn := names_tokens d hf
  have hc := closings_tokens d hf []
  simp only [List.append_nil, names, closings] at hn hc
  rw [hy, closedCalls, hn, hc]
  exact ⟨rfl, rfl, arity_of_mem d⟩

end Abacus.Proofs.SourceOrder
