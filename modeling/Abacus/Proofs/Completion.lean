import Mathlib.Tactic.Common
import Abacus.Proofs.Fitting

/-!
What begins a phrase. A derivation completes the tokens that it starts with; it is taken to fit
wherever a sum ends, so that the phrase it is part of can be completed in turn.
-/

namespace Abacus.Grammar

variable {implied : Bool} {r : Rule}

def oneOperand : Derivation implied .operand := .number ⟨.number .one, "1", 0⟩ .one rfl

def oneSigned : Derivation implied .signed := .unsigned (.base (.factorial oneOperand [] no_bangs))

def oneSum : Derivation implied .sum := .sum (.product oneSigned .productEnd) .sumEnd

def closer : Token := ⟨.rparen, ")", 0⟩

/-- The derivation `d` at level `n` goes on from the tokens `us`, and fits wherever a sum ends;
`last`, if it is given, is the last of these tokens in its place. -/
structure Completes (d : Derivation implied r) (n : ℕ) (us : List Token) (last : Option Leaf) :
    Prop where
  leaves : ∃ ls ms, d.leaves n = ls ++ (last.toList ++ ms) ∧
    (ls ++ last.toList).map (·.token) = us
  opening : us = [] → Clear isOpening d.tokens
  fits : ∀ rest, Ends .sum rest → d.Fits n rest

variable {n : ℕ} {us rest : List Token} {last : Option Leaf}

lemma Completes.tokens {d : Derivation implied r} (h : Completes d n us last) :
    ∃ ext, d.tokens = us ++ ext := by
  obtain ⟨ls, ms, hl, hus⟩ := h.leaves
  refine ⟨ms.map (·.token), ?_⟩
  rw [← Derivation.map_token_leaves d n, hl, ← hus, ← List.map_append, List.append_assoc]

lemma clear_isOpening (h : Ends .sum rest) : Clear isOpening rest := by
  intro t ht
  have hx := h.2.2.1 t ht
  cases hk : t.kind <;> simp_all [extendsProduct, startsOperand, isOpening]

/-- The end of a sum ends everything in it. -/
lemma ends_of_sum (h : Ends .sum rest) : Ends r rest := by
  obtain ⟨hb, hc, hp, hs⟩ := h
  cases r <;> simp [Ends, hb, hc, hp, hs]

lemma completes_oneOperand : Completes (oneOperand : Derivation implied .operand) n [] none where
  leaves := ⟨[], _, rfl, rfl⟩
  opening _ := by simp [oneOperand, Derivation.tokens, isOpening]
  fits _ _ := trivial

lemma completes_oneSigned : Completes (oneSigned : Derivation implied .signed) n [] none where
  leaves := ⟨[], _, rfl, rfl⟩
  opening _ := by simp [oneSigned, oneOperand, Derivation.tokens, isOpening]
  fits _ h := ⟨⟨trivial, h.1⟩, h.2.1⟩

lemma fits_oneSum (h : Ends .sum rest) : (oneSum : Derivation implied .sum).Fits n rest :=
  ⟨⟨⟨⟨trivial, h.1⟩, h.2.1⟩, h.2.2.1⟩, h.2.2.2⟩

/-! ### Fitting elsewhere -/

/-- Of what follows it a derivation sees the next token only. -/
lemma fits_congr (d : Derivation implied r) {rest' : List Token} (h : rest'.head? = rest.head?)
    (hf : d.Fits n rest) : d.Fits n rest' := by
  induction d generalizing n rest rest' with
  | sumEnd | productEnd | name => simpa only [Derivation.Fits, Clear, h] using hf
  | number => trivial
  | unsigned e ih => exact ih h hf
  | base e ih => exact ⟨ih h hf.1, by simpa only [Clear, h] using hf.2⟩
  | factorial e bangs _ ih =>
    exact ⟨ih (by simp [h]) hf.1, by simpa only [Clear, h] using hf.2⟩
  | sum _ _ ihf iht | product _ _ ihf iht | neighbour _ _ _ ihf iht =>
    exact ⟨ihf (by simp [h]) hf.1, iht h hf.2⟩
  | sumLink _ _ _ _ _ ihf iht | productLink _ _ _ _ _ ihf iht =>
    exact ⟨ihf (by simp [h]) hf.1, iht h hf.2⟩
  | sign _ _ _ _ ih => exact ⟨hf.1, ih h hf.2⟩
  | raised _ _ _ _ ihe ihx => exact ⟨ihe (by simp) hf.1, hf.2.1, ihx h hf.2.2⟩
  | group _ _ _ _ _ ih => exact ⟨hf.1, ih (by simp) hf.2⟩
  | call _ _ _ _ _ _ _ ih => exact ⟨hf.1, ih (by simp) hf.2⟩
  | callTwo _ _ _ _ _ _ _ _ _ _ ih ih' => exact ⟨hf.1, ih (by simp) hf.2.1, ih' (by simp) hf.2.2⟩

/-- What fits somewhere fits wherever its last part ends and no parenthesis opens. -/
lemma fits_of_ends (d : Derivation implied r) (hn : n ≤ maxDepth) {rest' : List Token}
    (hf : d.Fits n rest) (he : Ends r rest') (ho : Clear isOpening rest') : d.Fits n rest' := by
  refine d.fits_of_stands (d.stands_of_callsOnly (n := n) ?_ he) (d.levels_of_fits hn hf)
  obtain ⟨hl, -, -⟩ := List.isChain_append.mp (hf.stands.callsOnly n)
  refine List.isChain_append.mpr ⟨hl, Derivation.callsOnly_loose rest', fun a _ b hb _ => ?_⟩
  cases rest' with
  | nil => simp [Derivation.loose] at hb
  | cons t rest' =>
    simp only [Derivation.loose, List.map_cons, List.head?_cons, Option.mem_def,
      Option.some.injEq] at hb
    subst hb
    simpa [isOpening] using ho

lemma fits_of_ends_sum (d : Derivation implied r) (hn : n ≤ maxDepth) {rest' : List Token}
    (hf : d.Fits n rest) (he : Ends .sum rest') : d.Fits n rest' :=
  fits_of_ends d hn hf (ends_of_sum he) (clear_isOpening he)

/-- A first part stays as it is when what follows it is completed. -/
lemma Completes.seam {r' : Rule} {d : Derivation implied r} {d' : Derivation implied r'} {n' : ℕ}
    {rest' : List Token} (h : Completes d' n' us last) (hn : n ≤ maxDepth)
    (hf : d.Fits n (us ++ rest)) (he : Ends r (d'.tokens ++ rest')) (hr : Ends .sum rest') :
    d.Fits n (d'.tokens ++ rest') := by
  cases us with
  | nil =>
    refine fits_of_ends d hn hf he fun t ht => ?_
    rw [List.head?_append, Option.mem_def, Option.or_eq_some_iff] at ht
    rcases ht with ht | ⟨-, ht⟩
    · exact h.opening rfl t ht
    · exact clear_isOpening hr t ht
  | cons u us =>
    obtain ⟨ext, hext⟩ := h.tokens
    exact fits_congr d (by simp [hext]) hf

/-- What has been derived completes itself. -/
lemma completes_whole (d : Derivation implied r) (hn : n ≤ maxDepth) (hf : d.Fits n rest) :
    Completes d n d.tokens none where
  leaves := ⟨d.leaves n, [], by simp, by simp [Derivation.map_token_leaves]⟩
  opening h := by simp [h]
  fits _ he := fits_of_ends_sum d hn hf he

/-- A part that completes some tokens makes the whole complete them and what comes before. -/
lemma Completes.within {r' : Rule} {d : Derivation implied r} {d' : Derivation implied r'} {n' : ℕ}
    {vs : List Token} (h : Completes d' n' us last) (before after : List Leaf)
    (hl : d.leaves n = before ++ (d'.leaves n' ++ after)) (hvs : before.map (·.token) = vs)
    (hb : before = [] → after = []) (hf : ∀ rest, Ends .sum rest → d.Fits n rest) :
    Completes d n (vs ++ us) last where
  leaves := by
    obtain ⟨ls, ms, hd, hus⟩ := h.leaves
    refine ⟨before ++ ls, ms ++ after, by simp [hl, hd], ?_⟩
    rw [List.append_assoc, List.map_append, hvs, hus]
  opening hnil := by
    -- with nothing before it, the inner tree is all of the outer one
    obtain ⟨rfl, hus⟩ := List.append_eq_nil_iff.mp hnil
    rw [List.map_eq_nil_iff] at hvs
    have ht : d.tokens = d'.tokens := by
      rw [← Derivation.map_token_leaves d n, hl, hvs, hb hvs, List.nil_append, List.append_nil,
        Derivation.map_token_leaves]
    rw [ht]
    exact h.opening hus
  fits := hf

/-! ### One lemma for each way to complete a phrase -/

variable {t m o : Token} {mid : List Token} {op : Operator}

lemma completes_group {d : Derivation implied .sum} (ht : t.kind = .lparen) (hn : n < maxDepth)
    (h : Completes d (n + 1) us last) : Completes (.group t closer ht rfl d) n (t :: us) last :=
  h.within [⟨t, n, false⟩] [⟨closer, n, false⟩] rfl rfl (by simp) fun rest _ =>
    ⟨hn, h.fits _ (ends_of_rparen rfl rest)⟩

lemma completes_name (ht : t.kind = .ident) :
    Completes (.name t ht : Derivation implied .operand) n [t] (some ⟨t, n, true⟩) where
  leaves := ⟨[], [], rfl, rfl⟩
  opening h := by simp at h
  fits _ he := clear_isOpening he

lemma completes_name_alone (ht : t.kind = .ident) :
    Completes (.name t ht : Derivation implied .operand) n [t] none where
  leaves := ⟨[⟨t, n, true⟩], [], rfl, rfl⟩
  opening h := by simp at h
  fits _ he := clear_isOpening he

/-- An empty call can still be given an argument. -/
lemma completes_call_one (ht : t.kind = .ident) (ho : o.kind = .lparen) (hn : n < maxDepth) :
    Completes (.call t o closer ht ho rfl oneSum : Derivation implied .operand) n [t, o] none where
  leaves := ⟨[⟨t, n, false⟩, ⟨o, n, false⟩], _, rfl, rfl⟩
  opening h := by simp at h
  fits rest _ := ⟨hn, fits_oneSum (ends_of_rparen rfl rest)⟩

lemma completes_call {d : Derivation implied .sum} (ht : t.kind = .ident) (ho : o.kind = .lparen)
    (hn : n < maxDepth) (h : Completes d (n + 1) us last) :
    Completes (.call t o closer ht ho rfl d) n (t :: o :: us) last :=
  h.within [⟨t, n, false⟩, ⟨o, n, false⟩] [⟨closer, n, false⟩] rfl rfl (by simp) fun rest _ =>
    ⟨hn, h.fits _ (ends_of_rparen rfl rest)⟩

lemma completes_callTwo {d d' : Derivation implied .sum} (ht : t.kind = .ident)
    (ho : o.kind = .lparen) (hm : m.kind = .comma) (hn : n < maxDepth)
    (hf : d.Fits (n + 1) (m :: mid)) (h : Completes d' (n + 1) us last) :
    Completes (.callTwo t o m closer ht ho hm rfl d d') n (t :: o :: (d.tokens ++ m :: us))
      last := by
  have hw : Completes (.callTwo t o m closer ht ho hm rfl d d') n
      (t :: o :: (d.tokens ++ [m]) ++ us) last :=
    h.within (⟨t, n, false⟩ :: ⟨o, n, false⟩ :: (d.leaves (n + 1) ++ [⟨m, n + 1, false⟩]))
      [⟨closer, n, false⟩] (by simp [Derivation.leaves]) (by simp [Derivation.map_token_leaves])
      (by simp) fun rest _ =>
        ⟨hn, fits_congr d (by simp) hf, h.fits _ (ends_of_rparen rfl rest)⟩
  simpa using hw

lemma completes_factorial {d : Derivation implied .operand} (h : Completes d n us last) :
    Completes (.factorial d [] no_bangs) n us last :=
  h.within [] [] (by simp [Derivation.leaves]) rfl (by simp) fun rest he => ⟨h.fits rest he, he.1⟩

lemma completes_base {d : Derivation implied .factorial} (h : Completes d n us last) :
    Completes (.base d) n us last :=
  h.within [] [] (by simp [Derivation.leaves]) rfl (by simp) fun rest he => ⟨h.fits rest he, he.2.1⟩

lemma completes_raised {d : Derivation implied .factorial} {d' : Derivation implied .signed}
    (ht : t.kind = .caret) (hn : n < maxDepth) (hf : d.Fits n (t :: mid))
    (h : Completes d' (n + 1) us last) :
    Completes (.raised d t ht d') n (d.tokens ++ t :: us) last := by
  have hw : Completes (.raised d t ht d') n (d.tokens ++ [t] ++ us) last :=
    h.within (d.leaves n ++ [⟨t, n, false⟩]) [] (by simp [Derivation.leaves])
      (by simp [Derivation.map_token_leaves]) (by simp) fun rest he =>
        ⟨fits_congr d (by simp) hf, hn, h.fits rest he⟩
  simpa using hw

lemma completes_unsigned {d : Derivation implied .power} (h : Completes d n us last) :
    Completes (.unsigned d) n us last :=
  h.within [] [] (by simp [Derivation.leaves]) rfl (by simp) h.fits

lemma completes_sign {s : Sign} {d : Derivation implied .signed} (ht : sign? t.kind = some s)
    (hn : n < maxDepth) (h : Completes d (n + 1) us last) :
    Completes (.sign t s ht d) n (t :: us) last :=
  h.within [⟨t, n, false⟩] [] (by simp [Derivation.leaves]) rfl (by simp) fun rest he =>
    ⟨hn, h.fits rest he⟩

lemma completes_productEnd :
    Completes (.productEnd : Derivation implied .productTail) n [] none where
  leaves := ⟨[], [], rfl, rfl⟩
  opening _ := clear_nil _
  fits _ he := he.2.2.1

lemma completes_product {d : Derivation implied .signed} (h : Completes d n us last) :
    Completes (.product d .productEnd) n us last :=
  h.within [] [] (by simp [Derivation.leaves]) rfl (by simp) fun rest he =>
    ⟨h.fits rest he, he.2.2.1⟩

lemma completes_product_tail {d : Derivation implied .signed}
    {d' : Derivation implied .productTail} (hn : n ≤ maxDepth) (hf : d.Fits n (us ++ rest))
    (h : Completes d' n us last) : Completes (.product d d') n (d.tokens ++ us) last :=
  h.within (d.leaves n) [] (by simp [Derivation.leaves]) (Derivation.map_token_leaves d n) (by simp)
    fun rest he =>
      ⟨h.seam hn hf (Derivation.ends_productTail d' (ends_of_sum he)) he, h.fits rest he⟩

lemma completes_productLink {d : Derivation implied .signed}
    (ht : productOperator? t.kind = some op) (h : Completes d n us last) :
    Completes (.productLink t op ht d .productEnd) n (t :: us) last :=
  h.within [⟨t, n, false⟩] [] (by simp [Derivation.leaves]) rfl (by simp) fun rest he =>
    ⟨h.fits rest he, he.2.2.1⟩

lemma completes_productLink_tail {d : Derivation implied .signed}
    {d' : Derivation implied .productTail} (ht : productOperator? t.kind = some op)
    (hn : n ≤ maxDepth) (hf : d.Fits n (us ++ rest)) (h : Completes d' n us last) :
    Completes (.productLink t op ht d d') n (t :: d.tokens ++ us) last :=
  h.within (⟨t, n, false⟩ :: d.leaves n) [] (by simp [Derivation.leaves])
    (by simp [Derivation.map_token_leaves]) (by simp) fun rest he =>
      ⟨h.seam hn hf (Derivation.ends_productTail d' (ends_of_sum he)) he, h.fits rest he⟩

lemma completes_neighbour {d : Derivation implied .power} (hi : implied = true)
    (h : Completes d n us last) : Completes (.neighbour hi d .productEnd) n us last :=
  h.within [] [] (by simp [Derivation.leaves]) rfl (by simp) fun rest he =>
    ⟨h.fits rest he, he.2.2.1⟩

lemma completes_neighbour_tail {d : Derivation implied .power}
    {d' : Derivation implied .productTail} (hi : implied = true) (hn : n ≤ maxDepth)
    (hf : d.Fits n (us ++ rest)) (h : Completes d' n us last) :
    Completes (.neighbour hi d d') n (d.tokens ++ us) last :=
  h.within (d.leaves n) [] (by simp [Derivation.leaves]) (Derivation.map_token_leaves d n) (by simp)
    fun rest he =>
      ⟨h.seam hn hf (Derivation.ends_productTail d' (ends_of_sum he)) he, h.fits rest he⟩

lemma completes_sum {d : Derivation implied .product} (h : Completes d n us last) :
    Completes (.sum d .sumEnd) n us last :=
  h.within [] [] (by simp [Derivation.leaves]) rfl (by simp) fun rest he =>
    ⟨h.fits rest he, he.2.2.2⟩

lemma completes_sum_tail {d : Derivation implied .product} {d' : Derivation implied .sumTail}
    (hn : n ≤ maxDepth) (hf : d.Fits n (us ++ rest)) (h : Completes d' n us last) :
    Completes (.sum d d') n (d.tokens ++ us) last :=
  h.within (d.leaves n) [] (by simp [Derivation.leaves]) (Derivation.map_token_leaves d n) (by simp)
    fun rest he => ⟨h.seam hn hf (Derivation.ends_sumTail d' he) he, h.fits rest he⟩

lemma completes_sumLink {d : Derivation implied .product} (ht : sumOperator? t.kind = some op)
    (h : Completes d n us last) : Completes (.sumLink t op ht d .sumEnd) n (t :: us) last :=
  h.within [⟨t, n, false⟩] [] (by simp [Derivation.leaves]) rfl (by simp) fun rest he =>
    ⟨h.fits rest he, he.2.2.2⟩

lemma completes_sumLink_tail {d : Derivation implied .product} {d' : Derivation implied .sumTail}
    (ht : sumOperator? t.kind = some op) (hn : n ≤ maxDepth) (hf : d.Fits n (us ++ rest))
    (h : Completes d' n us last) : Completes (.sumLink t op ht d d') n (t :: d.tokens ++ us) last :=
  h.within (⟨t, n, false⟩ :: d.leaves n) [] (by simp [Derivation.leaves])
    (by simp [Derivation.map_token_leaves]) (by simp) fun rest he =>
      ⟨h.seam hn hf (Derivation.ends_sumTail d' he) he, h.fits rest he⟩

end Abacus.Grammar
