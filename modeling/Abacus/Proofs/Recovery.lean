import Mathlib.Tactic.Common
import Abacus.Proofs.Reading

/-!
What the reader reads has a derivation that fits where it stands. The proof is by the length of the
tokens; for one length it goes through the rules from the operands up, as each rule reads from the
same tokens only by the next.
-/

namespace Abacus.Grammar

variable (g : Grammar)

/-- A derivation of what the rule `r` took from `ts` at level `n`, with the tree `y`. -/
def Derived (n : ℕ) (ts rest : List Token) (r : Rule) (y : r.Yield) : Prop :=
  ∃ d : Derivation g.implied r, d.tokens ++ rest = ts ∧ d.tree = y ∧ d.Fits n rest

/-- Whatever is read from fewer than `k` tokens has a derivation. -/
structure SoundBelow (k : ℕ) : Prop where
  sum : ∀ {n ts rest e}, ts.length < k → g.Reads n ts rest .sum e → g.Derived n ts rest .sum e
  product : ∀ {n ts rest e}, ts.length < k → g.Reads n ts rest .product e →
    g.Derived n ts rest .product e
  signed : ∀ {n ts rest e}, ts.length < k → g.Reads n ts rest .signed e →
    g.Derived n ts rest .signed e
  power : ∀ {n ts rest e}, ts.length < k → g.Reads n ts rest .power e →
    g.Derived n ts rest .power e

variable {g} {n : ℕ} {ts rest : List Token} {t : Token} {e : Expr}

/-! ### What goes on -/

/-- What goes on after a reading has succeeded goes on from that reading. -/
lemma of_reading {us : List Token} {x : Result us} {k : Reading us → Result ts} {q : Reading ts}
    (h : (match x with | .error f => .error f | .ok p => k p) = Except.ok q) :
    ∃ a mid hlt, x = .ok ⟨a, mid, hlt⟩ ∧ k ⟨a, mid, hlt⟩ = .ok q := by
  cases x with
  | error _ => simp at h
  | ok p => exact ⟨p.tree, p.rest, p.shorter, rfl, h⟩

lemma of_enter {k : ℕ → Result ts} {q : Reading ts}
    (h : (match enter n t with | .error f => .error f | .ok m => k m) = Except.ok q) :
    n < maxDepth ∧ k (n + 1) = .ok q := by
  by_cases hn : n < maxDepth
  · rw [enter_of_lt hn] at h
    exact ⟨hn, h⟩
  · simp [enter, hn] at h

lemma of_closing {p : Reading ts} {h : rest.length < ts.length}
    (hp : g.closing p = .ok ⟨e, rest, h⟩) :
    ∃ c, c.kind = .rparen ∧ p.rest = c :: rest ∧ p.tree = e := by
  obtain ⟨e', rest', hlt⟩ := p
  cases rest' with
  | nil => simp [closing] at hp
  | cons c rest' =>
    by_cases hc : c.kind = .rparen
    · simp only [closing, hc, if_true, Except.ok.injEq, Reading.mk.injEq] at hp
      obtain ⟨rfl, rfl⟩ := hp
      exact ⟨c, hc, rfl, rfl⟩
    · simp [closing, hc] at hp

/-! ### Operands -/

lemma of_call {f o : Token} {h : rest.length < ts.length}
    (hr : g.call n f o ts = .ok ⟨e, rest, h⟩) :
    n < maxDepth ∧
      ((∃ c a, c.kind = .rparen ∧ g.Reads (n + 1) ts (c :: rest) .sum a ∧
          e = .call f.text f.pos [a]) ∨
        ∃ m mid c a a', m.kind = .comma ∧ c.kind = .rparen ∧
          g.Reads (n + 1) ts (m :: mid) .sum a ∧ g.Reads (n + 1) mid (c :: rest) .sum a' ∧
          e = .call f.text f.pos [a, a']) := by
  rw [call] at hr
  split at hr
  · simp at hr
  obtain ⟨hn, hr⟩ := of_enter hr
  refine ⟨hn, ?_⟩
  cases hs : g.sum (n + 1) ts with
  | error _ => simp [hs] at hr
  | ok p =>
    obtain ⟨a, rest', hlt⟩ := p
    simp only [hs] at hr
    cases rest' with
    | nil => simp [closing] at hr
    | cons m mid =>
      simp only at hr
      split at hr
      · rename_i hm
        cases hs' : g.sum (n + 1) mid with
        | error _ => simp [hs'] at hr
        | ok p' =>
          obtain ⟨a', rest', hlt'⟩ := p'
          simp only [hs'] at hr
          split at hr
          · simp at hr
          -- two arguments, with the comma between them
          obtain ⟨c, hc, rfl, rfl⟩ := of_closing hr
          exact .inr ⟨m, mid, c, a, a', hm, hc, ⟨_, hs⟩, ⟨_, hs'⟩, rfl⟩
      · -- one argument
        obtain ⟨c, hc, hrest, rfl⟩ := of_closing hr
        obtain ⟨rfl, rfl⟩ := List.cons.inj hrest
        exact .inl ⟨m, a, hc, ⟨_, hs⟩, rfl⟩

lemma derived_call {f o : Token} (hk : g.SoundBelow (f :: o :: ts).length) (hf : f.kind = .ident)
    (ho : o.kind = .lparen) {h : rest.length < ts.length}
    (hr : g.call n f o ts = .ok ⟨e, rest, h⟩) :
    g.Derived n (f :: o :: ts) rest .operand e := by
  simp only [List.length_cons] at hk
  obtain ⟨hn, ⟨c, a, hc, hs, rfl⟩ | ⟨m, mid, c, a, a', hm, hc, hs, hs', rfl⟩⟩ := of_call hr
  · obtain ⟨d, rfl, rfl, hfit⟩ := hk.sum (by omega) hs
    exact ⟨.call f o c hf ho hc d, by simp [Derivation.tokens], rfl, hn, hfit⟩
  · have hmid : mid.length < ts.length := by
      obtain ⟨hlt, -⟩ := hs
      simp only [List.length_cons] at hlt
      omega
    obtain ⟨d', rfl, rfl, hfit'⟩ := hk.sum (by omega) hs'
    obtain ⟨d, rfl, rfl, hfit⟩ := hk.sum (by omega) hs
    exact ⟨.callTwo f o m c hf ho hm hc d d', by simp [Derivation.tokens], rfl, hn, hfit, hfit'⟩

lemma derived_operand (hk : g.SoundBelow ts.length) (hr : g.Reads n ts rest .operand e) :
    g.Derived n ts rest .operand e := by
  obtain ⟨h, hr⟩ := hr
  cases ts with
  | nil => simp [operand] at hr
  | cons t ts =>
    rw [operand.eq_def] at hr
    simp only at hr
    split at hr
    · rename_i ht
      -- a group
      obtain ⟨hn, hr⟩ := of_enter hr
      obtain ⟨a, mid, hlt, hs, hr⟩ := of_reading hr
      obtain ⟨c, hc, rfl, rfl⟩ := of_closing hr
      obtain ⟨d, rfl, rfl, hfit⟩ := hk.sum (Nat.lt_succ_self _) ⟨_, hs⟩
      exact ⟨.group t c ht hc d, by simp [Derivation.tokens], rfl, hn, hfit⟩
    · rename_i v ht
      simp only [Except.ok.injEq, Reading.mk.injEq] at hr
      obtain ⟨rfl, rfl⟩ := hr
      exact ⟨.number t v ht, rfl, rfl, trivial⟩
    · rename_i ht
      cases ts with
      | nil =>
        simp only [Except.ok.injEq, Reading.mk.injEq] at hr
        obtain ⟨rfl, rfl⟩ := hr
        exact ⟨.name t ht, rfl, rfl, clear_nil _⟩
      | cons o ts =>
        simp only at hr
        split at hr
        · rename_i ho
          -- a call
          obtain ⟨a, mid, hlt, hc, hr⟩ := of_reading hr
          simp only [Except.ok.injEq, Reading.mk.injEq] at hr
          obtain ⟨rfl, rfl⟩ := hr
          exact derived_call hk ht ho hc
        · -- a name, as no parenthesis follows
          rename_i ho
          simp only [Except.ok.injEq, Reading.mk.injEq] at hr
          obtain ⟨rfl, rfl⟩ := hr
          exact ⟨.name t ht, rfl, rfl, by simp [Derivation.Fits, isOpening, ho]⟩
    · simp at hr

/-! ### Powers and signs -/

lemma of_bangs {all : List Token} {e' : Expr} {h : ts.length < all.length}
    {h' : rest.length < all.length} (hr : bangs all e ts h = ⟨e', rest, h'⟩) :
    ∃ bs : List Token, (∀ b ∈ bs, b.kind = .bang) ∧ bs ++ rest = ts ∧
      bs.foldl (fun left _ => .factorial left) e = e' ∧ Clear isBang rest := by
  induction ts generalizing e with
  | nil =>
    simp only [bangs, Reading.mk.injEq] at hr
    obtain ⟨rfl, rfl⟩ := hr
    exact ⟨[], by simp, rfl, rfl, clear_nil _⟩
  | cons t ts ih =>
    by_cases ht : t.kind = .bang
    · simp only [bangs, ht, if_true] at hr
      obtain ⟨bs, hb, hts, he, hc⟩ := ih hr
      exact ⟨t :: bs, by simpa [ht] using hb, by rw [List.cons_append, hts], he, hc⟩
    · simp only [bangs, ht, if_false, Reading.mk.injEq] at hr
      obtain ⟨rfl, rfl⟩ := hr
      exact ⟨[], by simp, rfl, rfl, by simp [isBang, ht]⟩

lemma derived_factorial (hk : g.SoundBelow ts.length) (hr : g.Reads n ts rest .factorial e) :
    g.Derived n ts rest .factorial e := by
  obtain ⟨h, hr⟩ := hr
  rw [factorial] at hr
  obtain ⟨a, mid, hlt, ho, hr⟩ := of_reading hr
  simp only [Except.ok.injEq] at hr
  obtain ⟨bs, hb, rfl, rfl, hc⟩ := of_bangs hr
  obtain ⟨d, rfl, rfl, hfit⟩ := derived_operand hk ⟨_, ho⟩
  exact ⟨.factorial d bs hb, by simp [Derivation.tokens], rfl, hfit, hc⟩

lemma derived_power (hk : g.SoundBelow ts.length) (hr : g.Reads n ts rest .power e) :
    g.Derived n ts rest .power e := by
  obtain ⟨h, hr⟩ := hr
  rw [power] at hr
  cases hf : g.factorial n ts with
  | error _ => simp [hf] at hr
  | ok p =>
    obtain ⟨a, mid, hlt⟩ := p
    obtain ⟨d, hts, rfl, hfit⟩ := derived_factorial hk ⟨_, hf⟩
    simp only [hf] at hr
    cases mid with
    | nil =>
      simp only [Except.ok.injEq, Reading.mk.injEq] at hr
      obtain ⟨rfl, rfl⟩ := hr
      exact ⟨.base d, hts, rfl, hfit, clear_nil _⟩
    | cons t mid =>
      simp only at hr
      split at hr
      · rename_i ht
        obtain ⟨hn, hr⟩ := of_enter hr
        obtain ⟨a', rest', hlt', hs, hr⟩ := of_reading hr
        simp only [Except.ok.injEq, Reading.mk.injEq] at hr
        obtain ⟨rfl, rfl⟩ := hr
        -- the exponent has fewer tokens, so it is sound by assumption
        have hmid : mid.length < ts.length := by simp only [List.length_cons] at hlt; omega
        obtain ⟨x, rfl, rfl, hxf⟩ := hk.signed hmid ⟨_, hs⟩
        subst hts
        exact ⟨.raised d t ht x, by simp [Derivation.tokens], rfl, hfit, hn, hxf⟩
      · rename_i ht
        simp only [Except.ok.injEq, Reading.mk.injEq] at hr
        obtain ⟨rfl, rfl⟩ := hr
        exact ⟨.base d, hts, rfl, hfit, by simp [isCaret, ht]⟩

lemma derived_signed (hk : g.SoundBelow ts.length) (hr : g.Reads n ts rest .signed e) :
    g.Derived n ts rest .signed e := by
  obtain ⟨h, hr⟩ := hr
  cases ts with
  | nil => simp [signed, power, factorial, operand] at hr
  | cons t ts =>
    rw [signed] at hr
    cases ht : sign? t.kind with
    | none =>
      simp only [ht] at hr
      obtain ⟨d, hts, htree, hfit⟩ := derived_power hk ⟨h, hr⟩
      exact ⟨.unsigned d, hts, htree, hfit⟩
    | some s =>
      simp only [ht] at hr
      obtain ⟨hn, hr⟩ := of_enter hr
      obtain ⟨a, rest', hlt, hs, hr⟩ := of_reading hr
      simp only [Except.ok.injEq, Reading.mk.injEq] at hr
      obtain ⟨rfl, rfl⟩ := hr
      obtain ⟨x, rfl, rfl, hxf⟩ := hk.signed (Nat.lt_succ_self _) ⟨_, hs⟩
      exact ⟨.sign t s ht x, rfl, rfl, hn, hxf⟩

/-! ### Chains -/

lemma derived_productTail {all : List Token} (hk : g.SoundBelow all.length) {left : Expr}
    {h : ts.length < all.length} {h' : rest.length < all.length}
    (hr : g.productFrom n all ⟨left, ts, h⟩ = .ok ⟨e, rest, h'⟩) :
    ∃ f, f left = e ∧ g.Derived n ts rest .productTail f := by
  induction hts : ts.length using Nat.strong_induction_on generalizing ts left with
  | h k ih =>
    cases ts with
    | nil =>
      simp only [productFrom, Except.ok.injEq, Reading.mk.injEq] at hr
      obtain ⟨rfl, rfl⟩ := hr
      exact ⟨_, rfl, .productEnd, rfl, rfl, clear_nil _⟩
    | cons t ts =>
      simp only [List.length_cons] at h hts
      rw [productFrom] at hr
      cases ht : productOperator? t.kind with
      | some op =>
        simp only [ht] at hr
        obtain ⟨a, mid, hlt, hs, hr⟩ := of_reading hr
        -- the loop goes on with what the factor leaves, which is shorter
        obtain ⟨_, rfl, d', rfl, rfl, hfit'⟩ := ih mid.length (by omega) hr rfl
        obtain ⟨d, rfl, rfl, hfit⟩ := hk.signed (by omega) ⟨_, hs⟩
        exact ⟨_, rfl, .productLink t op ht d d', by simp [Derivation.tokens], rfl, hfit, hfit'⟩
      | none =>
        simp only [ht] at hr
        split at hr
        · rename_i hstart
          split at hr
          · rename_i hi
            -- neighbours: the power begins at the token that was looked at
            cases hs : g.power n (t :: ts) with
            | error _ => simp [hs] at hr
            | ok p =>
              obtain ⟨a, mid, hlt⟩ := p
              simp only [hs] at hr
              simp only [List.length_cons] at hlt
              obtain ⟨_, rfl, d', rfl, rfl, hfit'⟩ := ih mid.length (by omega) hr rfl
              obtain ⟨d, hd, rfl, hfit⟩ := hk.power (by simpa using h) ⟨_, hs⟩
              exact ⟨_, rfl, .neighbour hi d d', by simp [Derivation.tokens, hd], rfl, hfit, hfit'⟩
          · simp at hr
        · rename_i hstart
          simp only [Except.ok.injEq, Reading.mk.injEq] at hr
          obtain ⟨rfl, rfl⟩ := hr
          exact ⟨_, rfl, .productEnd, rfl, rfl,
            by simp [Derivation.Fits, extendsProduct, ht, hstart]⟩

lemma derived_product (hk : g.SoundBelow ts.length) (hr : g.Reads n ts rest .product e) :
    g.Derived n ts rest .product e := by
  obtain ⟨h, hr⟩ := hr
  rw [product] at hr
  obtain ⟨a, mid, hlt, hs, hr⟩ := of_reading hr
  obtain ⟨_, rfl, d', rfl, rfl, hfit'⟩ := derived_productTail hk hr
  obtain ⟨d, rfl, rfl, hfit⟩ := derived_signed hk ⟨_, hs⟩
  exact ⟨.product d d', by simp [Derivation.tokens], rfl, hfit, hfit'⟩

lemma derived_sumTail {all : List Token} (hk : g.SoundBelow all.length) {left : Expr}
    {h : ts.length < all.length} {h' : rest.length < all.length}
    (hr : g.sumFrom n all ⟨left, ts, h⟩ = .ok ⟨e, rest, h'⟩) :
    ∃ f, f left = e ∧ g.Derived n ts rest .sumTail f := by
  induction hts : ts.length using Nat.strong_induction_on generalizing ts left with
  | h k ih =>
    cases ts with
    | nil =>
      simp only [sumFrom, Except.ok.injEq, Reading.mk.injEq] at hr
      obtain ⟨rfl, rfl⟩ := hr
      exact ⟨_, rfl, .sumEnd, rfl, rfl, clear_nil _⟩
    | cons t ts =>
      simp only [List.length_cons] at h hts
      rw [sumFrom] at hr
      cases ht : sumOperator? t.kind with
      | some op =>
        simp only [ht] at hr
        obtain ⟨a, mid, hlt, hp, hr⟩ := of_reading hr
        obtain ⟨_, rfl, d', rfl, rfl, hfit'⟩ := ih mid.length (by omega) hr rfl
        obtain ⟨d, rfl, rfl, hfit⟩ := hk.product (by omega) ⟨_, hp⟩
        exact ⟨_, rfl, .sumLink t op ht d d', by simp [Derivation.tokens], rfl, hfit, hfit'⟩
      | none =>
        simp only [ht, Except.ok.injEq, Reading.mk.injEq] at hr
        obtain ⟨rfl, rfl⟩ := hr
        exact ⟨_, rfl, .sumEnd, rfl, rfl, by simp [Derivation.Fits, extendsSum, ht]⟩

lemma derived_sum (hk : g.SoundBelow ts.length) (hr : g.Reads n ts rest .sum e) :
    g.Derived n ts rest .sum e := by
  obtain ⟨h, hr⟩ := hr
  rw [sum] at hr
  obtain ⟨a, mid, hlt, hp, hr⟩ := of_reading hr
  obtain ⟨_, rfl, d', rfl, rfl, hfit'⟩ := derived_sumTail hk hr
  obtain ⟨d, rfl, rfl, hfit⟩ := derived_product hk ⟨_, hp⟩
  exact ⟨.sum d d', by simp [Derivation.tokens], rfl, hfit, hfit'⟩

/-! ### Whole sources -/

lemma SoundBelow.mono {k k' : ℕ} (hk : g.SoundBelow k) (h : k' ≤ k) : g.SoundBelow k' where
  sum hlt := hk.sum (hlt.trans_le h)
  product hlt := hk.product (hlt.trans_le h)
  signed hlt := hk.signed (hlt.trans_le h)
  power hlt := hk.power (hlt.trans_le h)

theorem soundBelow (g : Grammar) (k : ℕ) : g.SoundBelow k := by
  induction k with
  | zero => constructor <;> intros <;> omega
  | succ k ih =>
    constructor
    · exact fun hlt => derived_sum (ih.mono (Nat.le_of_lt_succ hlt))
    · exact fun hlt => derived_product (ih.mono (Nat.le_of_lt_succ hlt))
    · exact fun hlt => derived_signed (ih.mono (Nat.le_of_lt_succ hlt))
    · exact fun hlt => derived_power (ih.mono (Nat.le_of_lt_succ hlt))

/-- **The reader accepts the grammar and makes its trees**: a list of tokens has the tree `e` just
if a derivation of the list has it. -/
theorem expression_ok_iff :
    g.expression ts = .ok e ↔ ∃ d : Derivation g.implied .sum, d.Derives ts ∧ d.tree = e := by
  constructor
  · intro he
    rw [expression] at he
    split at he
    · simp at he
    cases hs : g.sum 0 ts with
    | error _ => simp [hs] at he
    | ok p =>
      obtain ⟨a, rest, hlt⟩ := p
      cases rest with
      | cons t rest => simp [hs] at he
      | nil =>
        simp only [hs, Except.ok.injEq] at he
        obtain ⟨d, hd, htree, hfit⟩ := (soundBelow g _).sum (Nat.lt_succ_self _) ⟨_, hs⟩
        rw [List.append_nil] at hd
        exact ⟨d, Derivation.derives_iff.mpr ⟨hd, hfit⟩, htree.trans he⟩
  · rintro ⟨d, hd, rfl⟩
    obtain ⟨rfl, hfit⟩ := Derivation.derives_iff.mp hd
    obtain ⟨t, ts, hts, -⟩ := d.exists_first
    have hr := reads_of_fits d hfit
    rw [List.append_nil] at hr
    obtain ⟨h, hs⟩ := hr
    rw [expression, hs]
    simp [hts]

lemma exists_of_isOk {ε α : Type*} {x : Except ε α} (h : x.isOk = true) : ∃ a, x = .ok a := by
  cases x with
  | ok a => exact ⟨a, rfl⟩
  | error _ => simp [Except.isOk, Except.toBool] at h

lemma scan_of_parse {implied : Bool} {source : String} (h : Expr.parse implied source = .ok e) :
    ∃ ts, Token.scan source = .ok ts := by
  cases hs : Token.scan source with
  | ok ts => exact ⟨ts, rfl⟩
  | error _ => simp [Expr.parse, hs] at h

lemma parse_ok_iff {implied : Bool} {source : String} (h : Token.scan source = .ok ts) :
    Expr.parse implied source = .ok e ↔
      ∃ d : Derivation implied .sum, d.Derives ts ∧ d.tree = e := by
  rw [Expr.parse, h]
  exact expression_ok_iff

end Abacus.Grammar
