import Mathlib.Tactic.Common
import Abacus.Proofs.Completion
import Abacus.Proofs.Failing
import Abacus.Proofs.Recovery

/-!
Where the reader gets stuck. A failure belongs to a place in the tokens: what comes before it begins
something that the rule derives, and with what stands there no continuation is read. The one failure
that does not name its place is that of an empty call one level too deep: the parenthesis that opens
it is the place, and the one that closes it is named.
-/

namespace Abacus.Grammar

variable (g : Grammar) {n : ℕ} {us rest : List Token} {r : Rule}

/-- The failure `f` names the next place, or it is that of an empty call after the name `last`,
which has no level left to go to. -/
def PointsAt (f : Failure) (rest : List Token) : Option Leaf → Prop
  | none => f.pos = g.placeOf rest
  | some l => l.level = maxDepth ∧ l.alone = true ∧ l.token.kind = .ident ∧
    ∃ o c post, rest = o :: c :: post ∧ o.kind = .lparen ∧ c.kind = .rparen ∧
      f = ⟨.noArguments l.token.text, c.pos⟩

/-- The failure `f` of the rule `r` on `ts` has its place: the tokens before it can be completed,
and what stands there cannot be continued. -/
def StuckAt (n : ℕ) (ts : List Token) (r : Rule) (f : Failure) : Prop :=
  ∃ us rest last, us ++ rest = ts ∧ g.PointsAt f rest last ∧
    (∃ d : Derivation g.implied r, Completes d n us last) ∧
    ∀ ext, ext.head? = rest.head? → g.Fails n (us ++ ext) r

variable {g} {ts : List Token} {t : Token} {f : Failure}

/-- A part that is stuck makes the whole stuck at the same place. -/
lemma StuckAt.extend {r' : Rule} {n' : ℕ} (h : g.StuckAt n' ts r' f) (vs : List Token)
    (hd : ∀ us rest last (d : Derivation g.implied r'), us ++ rest = ts → Completes d n' us last →
      ∃ d' : Derivation g.implied r, Completes d' n (vs ++ us) last)
    (hf : ∀ ext, ext.head? = ts.head? → g.Fails n' ext r' → g.Fails n (vs ++ ext) r) :
    g.StuckAt n (vs ++ ts) r f := by
  obtain ⟨us, rest, last, rfl, hp, ⟨d, hdc⟩, hdead⟩ := h
  refine ⟨vs ++ us, rest, last, List.append_assoc .., hp, hd us rest last d rfl hdc,
    fun ext hext => ?_⟩
  rw [List.append_assoc]
  exact hf _ (by simp [hext]) (hdead ext hext)

/-- A failure that names the next place is stuck there. -/
lemma stuck_here (us : List Token) {d : Derivation g.implied r} (hp : f.pos = g.placeOf rest)
    (hd : Completes d n us none)
    (hf : ∀ ext, ext.head? = rest.head? → g.Fails n (us ++ ext) r) :
    g.StuckAt n (us ++ rest) r f :=
  ⟨us, rest, none, rfl, hp, ⟨d, hd⟩, hf⟩

/-- Whatever fails on fewer than `k` tokens is stuck at a place. -/
structure StuckBelow (g : Grammar) (k : ℕ) : Prop where
  sum : ∀ {n ts f}, n ≤ maxDepth → ts.length < k → g.sum n ts = .error f → g.StuckAt n ts .sum f
  product : ∀ {n ts f}, n ≤ maxDepth → ts.length < k → g.product n ts = .error f →
    g.StuckAt n ts .product f
  signed : ∀ {n ts f}, n ≤ maxDepth → ts.length < k → g.signed n ts = .error f →
    g.StuckAt n ts .signed f
  power : ∀ {n ts f}, n ≤ maxDepth → ts.length < k → g.power n ts = .error f →
    g.StuckAt n ts .power f

/-! ### Operands -/

/-- After the first argument neither a comma nor the closing parenthesis comes. -/
lemma stuck_call_first {o : Token} {d : Derivation g.implied .sum} (ht : t.kind = .ident)
    (ho : o.kind = .lparen) (hn : n < maxDepth) (hfit : d.Fits (n + 1) rest)
    (hp : f.pos = g.placeOf rest) (hr : Unclosed rest) (hm : ∀ m ∈ rest.head?, m.kind ≠ .comma) :
    g.StuckAt n (t :: o :: (d.tokens ++ rest)) .operand f := by
  refine stuck_here (t :: o :: d.tokens) hp
    (completes_call ht ho hn (completes_whole d hn hfit)) fun ext hext => ?_
  have hm' : ∀ m ∈ ext.head?, m.kind ≠ .comma := by rwa [hext]
  exact fails_of_call ht ho
    (call_first_error (reads_of_fits d (fits_congr d hext hfit)) (unclosed_congr hext hr) hm')

lemma stuck_call_second {o m : Token} {d : Derivation g.implied .sum} {mid : List Token}
    (hk : g.StuckBelow (t :: o :: (d.tokens ++ m :: mid)).length) (ht : t.kind = .ident)
    (ho : o.kind = .lparen) (hm : m.kind = .comma) (hn : n < maxDepth)
    (hfit : d.Fits (n + 1) (m :: mid)) (hs : g.sum (n + 1) mid = .error f) :
    g.StuckAt n (t :: o :: (d.tokens ++ m :: mid)) .operand f := by
  have hst := (hk.sum hn (by simp; omega) hs).extend (r := .operand) (n := n)
    (t :: o :: (d.tokens ++ [m])) (fun us _ last d' _ hd =>
      ⟨_, by simpa using completes_callTwo ht ho hm hn hfit hd⟩) fun ext _ hf => by
    have hfit' : d.Fits (n + 1) (m :: ext) := fits_congr d (by simp) hfit
    simpa using fails_of_call ht ho (call_second_error (reads_of_fits d hfit') hm hf)
  simpa using hst

/-- After the second argument the closing parenthesis does not come. -/
lemma stuck_call_closing {o m : Token} {d d' : Derivation g.implied .sum} (ht : t.kind = .ident)
    (ho : o.kind = .lparen) (hm : m.kind = .comma) (hn : n < maxDepth)
    (hfit : d.Fits (n + 1) (m :: (d'.tokens ++ rest))) (hfit' : d'.Fits (n + 1) rest)
    (hp : f.pos = g.placeOf rest) (hr : Unclosed rest) :
    g.StuckAt n (t :: o :: (d.tokens ++ m :: (d'.tokens ++ rest))) .operand f := by
  have hst : g.StuckAt n (t :: o :: (d.tokens ++ m :: d'.tokens) ++ rest) .operand f := by
    refine stuck_here _ hp (completes_callTwo ht ho hm hn hfit (completes_whole d' hn hfit'))
      fun ext hext => ?_
    have hfit₁ : d.Fits (n + 1) (m :: (d'.tokens ++ ext)) := fits_congr d (by simp) hfit
    have hfit₂ : d'.Fits (n + 1) ext := fits_congr d' hext hfit'
    have hcall := call_closing_error (t := t) (o := o) (reads_of_fits d hfit₁) hm
      (reads_of_fits d' hfit₂) (unclosed_congr hext hr)
    simpa using fails_of_call ht ho hcall
  simpa using hst

lemma stuck_call {o : Token} (hk : g.StuckBelow (t :: o :: ts).length) (hn : n ≤ maxDepth)
    (ht : t.kind = .ident) (ho : o.kind = .lparen) (h : g.call n t o ts = .error f) :
    g.StuckAt n (t :: o :: ts) .operand f := by
  have hdeep : ¬ n < maxDepth → ∀ ext, ext.head? = some o → g.Fails n ([t] ++ ext) .operand := by
    intro hlt ext hext
    obtain ⟨ext, rfl⟩ := List.head?_eq_some_iff.mp hext
    exact fails_of_call ht ho (exists_call_error fun hn' => absurd hn' hlt)
  rcases error_of_call h with
    ⟨c, post, rfl, hc, rfl⟩ | ⟨hlt, rfl⟩ | ⟨hlt, hs | ⟨e, rest, hr, hrest⟩⟩
  · by_cases hlt : n < maxDepth
    · refine stuck_here [t, o] rfl (completes_call_one ht ho hlt) fun ext hext => ?_
      obtain ⟨ext, rfl⟩ := List.head?_eq_some_iff.mp hext
      exact fails_of_call ht ho ⟨_, call_empty hc⟩
    · -- the one failure that does not name its place
      have hmax : n = maxDepth := by omega
      exact ⟨[t], o :: c :: post, some ⟨t, n, true⟩, rfl,
        ⟨hmax, rfl, ht, o, c, post, rfl, ho, hc, rfl⟩, ⟨_, completes_name ht⟩, hdeep hlt⟩
  · exact stuck_here [t] rfl (completes_name_alone ht) (hdeep hlt)
  · exact (hk.sum hlt (by simp only [List.length_cons]; omega) hs).extend [t, o]
      (fun us _ last d _ hd => ⟨_, completes_call ht ho hlt hd⟩)
      fun ext _ hf => fails_of_call ht ho (call_sum_error hf)
  · -- the first argument is whole: what follows it, or the second one, is at fault
    obtain ⟨d, rfl, -, hfit⟩ := (soundBelow g _).sum (Nat.lt_succ_self _) hr
    rcases hrest with ⟨hp, hu, hm⟩ | ⟨m, mid, rfl, hm, hs | ⟨e', rest', hr', hp, hu⟩⟩
    · exact stuck_call_first ht ho hlt hfit hp hu hm
    · exact stuck_call_second hk ht ho hm hlt hfit hs
    · obtain ⟨d', rfl, -, hfit'⟩ := (soundBelow g _).sum (Nat.lt_succ_self _) hr'
      exact stuck_call_closing ht ho hm hlt hfit hfit' hp hu

lemma stuck_group (hk : g.StuckBelow (t :: ts).length) (ht : t.kind = .lparen)
    (h : g.operand n (t :: ts) = .error f) : g.StuckAt n (t :: ts) .operand f := by
  rw [operand.eq_def] at h
  simp only [ht] at h
  rcases error_of_enter h with ⟨hlt, rfl⟩ | ⟨hlt, h⟩
  · refine stuck_here [] rfl completes_oneOperand fun ext hext => ?_
    obtain ⟨ext, rfl⟩ := List.head?_eq_some_iff.mp hext
    exact fails_group_enter ht hlt
  rcases error_of_reading h with hs | ⟨e, rest, hr, hs, h⟩
  · exact (hk.sum hlt (Nat.lt_succ_self _) hs).extend [t]
      (fun us _ last d _ hd => ⟨_, completes_group ht hlt hd⟩) fun ext _ hf => fails_group ht hlt hf
  · obtain ⟨hp, hu⟩ := error_of_closing h
    obtain ⟨d, rfl, -, hfit⟩ := (soundBelow g _).sum (Nat.lt_succ_self _) ⟨_, hs⟩
    refine stuck_here (t :: d.tokens) hp
      (completes_group ht hlt (completes_whole d hlt hfit)) fun ext hext => ?_
    exact fails_group_closing ht hlt (reads_of_fits d (fits_congr d hext hfit))
      (unclosed_congr hext hu)

lemma stuck_operand (hk : g.StuckBelow ts.length) (hn : n ≤ maxDepth)
    (h : g.operand n ts = .error f) : g.StuckAt n ts .operand f := by
  cases ts with
  | nil =>
    rw [operand_nil, Except.error.injEq] at h
    subst h
    -- an operand could begin here, so all before is viable
    refine stuck_here [] rfl completes_oneOperand fun ext hext => ?_
    rw [List.head?_eq_none_iff.mp hext]
    exact ⟨_, operand_nil⟩
  | cons t ts =>
    cases hs : startsOperand t.kind with
    | false =>
      rw [operand_unexpected hs, Except.error.injEq] at h
      subst h
      refine stuck_here [] rfl completes_oneOperand fun ext hext => ?_
      obtain ⟨ext, rfl⟩ := List.head?_eq_some_iff.mp hext
      exact ⟨_, operand_unexpected hs⟩
    | true =>
      cases ht : t.kind with
      | lparen => exact stuck_group hk ht h
      | ident =>
        rw [operand.eq_def] at h
        simp only [ht] at h
        cases ts with
        | nil => simp at h
        | cons o ts =>
          simp only at h
          split at h
          · rename_i ho
            rcases error_of_reading h with hc | ⟨e, rest, hlt, hc, h⟩
            · exact stuck_call hk hn ht ho hc
            · simp at h
          · simp at h
      | number v =>
        rw [operand.eq_def] at h
        simp [ht] at h
      | _ => simp [ht, startsOperand] at hs

/-! ### Powers and signs -/

lemma stuck_factorial (hk : g.StuckBelow ts.length) (hn : n ≤ maxDepth)
    (h : g.factorial n ts = .error f) : g.StuckAt n ts .factorial f := by
  rw [factorial] at h
  rcases error_of_reading h with ho | ⟨e, rest, hlt, ho, h⟩
  · exact (stuck_operand hk hn ho).extend [] (fun us _ last d _ hd => ⟨_, completes_factorial hd⟩)
      fun ext _ hf => fails_factorial hf
  · simp at h

lemma stuck_power (hk : g.StuckBelow ts.length) (hn : n ≤ maxDepth) (h : g.power n ts = .error f) :
    g.StuckAt n ts .power f := by
  rw [power] at h
  cases hf : g.factorial n ts with
  | error f' =>
    obtain rfl : f' = f := by simpa [hf] using h
    exact (stuck_factorial hk hn hf).extend [] (fun us _ last d _ hd => ⟨_, completes_base hd⟩)
      fun ext _ hf => fails_base hf
  | ok p =>
    obtain ⟨a, mid, hlt⟩ := p
    obtain ⟨d, rfl, -, hfit⟩ := derived_factorial (soundBelow g _) ⟨hlt, hf⟩
    simp only [hf] at h
    cases mid with
    | nil => simp at h
    | cons t mid =>
      simp only at h
      split at h
      · rename_i ht
        -- the base is read the same way whatever follows the operator
        have hr : ∀ ext, g.Reads n (d.tokens ++ t :: ext) (t :: ext) .factorial d.tree :=
          fun ext => reads_of_fits d (fits_congr d (by simp) hfit)
        rcases error_of_enter h with ⟨hmax, rfl⟩ | ⟨hmax, h⟩
        · refine stuck_here _ rfl (completes_base (completes_whole d hn hfit)) fun ext hext => ?_
          obtain ⟨ext, rfl⟩ := List.head?_eq_some_iff.mp hext
          exact fails_raised_enter ht hmax (hr ext)
        rcases error_of_reading h with hs | ⟨e, rest, hlt', hs, h⟩
        · have hst := (hk.signed hmax (by simp; omega) hs).extend (r := .power) (n := n)
            (d.tokens ++ [t])
            (fun us _ last d' _ hd => ⟨_, by simpa using completes_raised ht hmax hfit hd⟩)
            fun ext _ hf => by simpa using fails_raised ht hmax (hr ext) hf
          simpa using hst
        · simp at h
      · simp at h

lemma stuck_signed (hk : g.StuckBelow ts.length) (hn : n ≤ maxDepth)
    (h : g.signed n ts = .error f) : g.StuckAt n ts .signed f := by
  have hunsigned : (∀ t ∈ ts.head?, sign? t.kind = none) → g.power n ts = .error f →
      g.StuckAt n ts .signed f := by
    intro ht hp
    exact (stuck_power hk hn hp).extend [] (fun us _ last d _ hd => ⟨_, completes_unsigned hd⟩)
      fun ext hext hf => fails_unsigned (by rwa [List.nil_append, hext]) hf
  cases ts with
  | nil =>
    rw [signed] at h
    exact hunsigned (by simp) h
  | cons t ts =>
    rw [signed] at h
    cases ht : sign? t.kind with
    | none =>
      simp only [ht] at h
      exact hunsigned (by simpa using ht) h
    | some s =>
      simp only [ht] at h
      rcases error_of_enter h with ⟨hmax, rfl⟩ | ⟨hmax, h⟩
      · refine stuck_here [] rfl completes_oneSigned fun ext hext => ?_
        obtain ⟨ext, rfl⟩ := List.head?_eq_some_iff.mp hext
        exact fails_sign_enter ht hmax
      rcases error_of_reading h with hs | ⟨e, rest, hlt, hs, h⟩
      · exact (hk.signed hmax (Nat.lt_succ_self _) hs).extend [t]
          (fun us _ last d _ hd => ⟨_, completes_sign ht hmax hd⟩) fun ext _ hf =>
            fails_sign ht hmax hf
      · simp at h

/-! ### Chains -/

lemma stuck_productTail {all : List Token} (hk : g.StuckBelow all.length) (hn : n ≤ maxDepth)
    {left : Expr} {hlt : ts.length < all.length}
    (h : g.productFrom n all ⟨left, ts, hlt⟩ = .error f) : g.StuckAt n ts .productTail f := by
  induction hts : ts.length using Nat.strong_induction_on generalizing ts left with
  | h k ih =>
    cases ts with
    | nil => simp [productFrom] at h
    | cons t ts =>
      simp only [List.length_cons] at hlt hts
      rw [productFrom] at h
      cases ht : productOperator? t.kind with
      | some op =>
        simp only [ht] at h
        rcases error_of_reading h with hs | ⟨e, mid, hlt', hs, h⟩
        · exact (hk.signed hn (by omega) hs).extend [t]
            (fun us _ last d _ hd => ⟨_, completes_productLink ht hd⟩) fun ext _ hf =>
              fails_productLink ht hf
        · -- the factor is whole, so the loop is stuck further on
          have hst : g.StuckAt n mid .productTail f := ih mid.length (by omega) h rfl
          obtain ⟨d, rfl, -, hfit⟩ := (soundBelow g _).signed (Nat.lt_succ_self _) ⟨_, hs⟩
          exact hst.extend (t :: d.tokens)
            (fun us rest last d' hus hd =>
              ⟨_, completes_productLink_tail ht hn (hus ▸ hfit) hd⟩)
            fun ext hext hf =>
              fails_productLink_tail ht (reads_of_fits d (fits_congr d hext hfit)) hf
      | none =>
        simp only [ht] at h
        split at h
        · rename_i hstart
          split at h
          · rename_i hi
            cases hs : g.power n (t :: ts) with
            | error f' =>
              obtain rfl : f' = f := by simpa [hs] using h
              refine (hk.power hn (by simpa using hlt) hs).extend []
                (fun us _ last d _ hd => ⟨_, completes_neighbour hi hd⟩) fun ext hext hf => ?_
              obtain ⟨ext, rfl⟩ := List.head?_eq_some_iff.mp hext
              exact fails_neighbour hi hstart hf
            | ok p =>
              obtain ⟨e, mid, hlt'⟩ := p
              simp only [hs] at h
              simp only [List.length_cons] at hlt'
              have hst : g.StuckAt n mid .productTail f := ih mid.length (by omega) h rfl
              obtain ⟨d, hd, -, hfit⟩ := (soundBelow g _).power (Nat.lt_succ_self _) ⟨_, hs⟩
              rw [← hd]
              refine hst.extend d.tokens (fun us rest last d' hus hd =>
                ⟨_, completes_neighbour_tail hi hn (hus ▸ hfit) hd⟩) fun ext hext hf => ?_
              have hr := reads_of_fits d (fits_congr d hext hfit)
              -- the rule looks at the first token of the neighbour to take it for one
              obtain ⟨u, us, hus, hk⟩ := d.exists_startsOperand (Or.inl rfl)
              rw [hus, List.cons_append] at hr ⊢
              exact fails_neighbour_tail hi hk hr hf
          · rename_i hi
            simp only [Except.error.injEq] at h
            subst h
            -- a neighbour where none may be: the product could have ended
            refine stuck_here [] rfl completes_productEnd fun ext hext => ?_
            obtain ⟨ext, rfl⟩ := List.head?_eq_some_iff.mp hext
            exact fails_missing (by simpa using hi) hstart
        · simp at h

lemma stuck_product (hk : g.StuckBelow ts.length) (hn : n ≤ maxDepth)
    (h : g.product n ts = .error f) : g.StuckAt n ts .product f := by
  rw [product] at h
  rcases error_of_reading h with hs | ⟨e, mid, hlt, hs, h⟩
  · exact (stuck_signed hk hn hs).extend [] (fun us _ last d _ hd => ⟨_, completes_product hd⟩)
      fun ext _ hf => fails_product hf
  · have hst := stuck_productTail hk hn h
    obtain ⟨d, rfl, -, hfit⟩ := (soundBelow g _).signed (Nat.lt_succ_self _) ⟨_, hs⟩
    exact hst.extend d.tokens
      (fun us rest last d' hus hd => ⟨_, completes_product_tail hn (hus ▸ hfit) hd⟩)
      fun ext hext hf => fails_product_tail (reads_of_fits d (fits_congr d hext hfit)) hf

lemma stuck_sumTail {all : List Token} (hk : g.StuckBelow all.length) (hn : n ≤ maxDepth)
    {left : Expr} {hlt : ts.length < all.length}
    (h : g.sumFrom n all ⟨left, ts, hlt⟩ = .error f) : g.StuckAt n ts .sumTail f := by
  induction hts : ts.length using Nat.strong_induction_on generalizing ts left with
  | h k ih =>
    cases ts with
    | nil => simp [sumFrom] at h
    | cons t ts =>
      simp only [List.length_cons] at hlt hts
      rw [sumFrom] at h
      cases ht : sumOperator? t.kind with
      | none => simp [ht] at h
      | some op =>
        simp only [ht] at h
        rcases error_of_reading h with hs | ⟨e, mid, hlt', hs, h⟩
        · exact (hk.product hn (by omega) hs).extend [t]
            (fun us _ last d _ hd => ⟨_, completes_sumLink ht hd⟩) fun ext _ hf =>
              fails_sumLink ht hf
        · have hst : g.StuckAt n mid .sumTail f := ih mid.length (by omega) h rfl
          obtain ⟨d, rfl, -, hfit⟩ := (soundBelow g _).product (Nat.lt_succ_self _) ⟨_, hs⟩
          exact hst.extend (t :: d.tokens)
            (fun us rest last d' hus hd => ⟨_, completes_sumLink_tail ht hn (hus ▸ hfit) hd⟩)
            fun ext hext hf => fails_sumLink_tail ht (reads_of_fits d (fits_congr d hext hfit)) hf

lemma stuck_sum (hk : g.StuckBelow ts.length) (hn : n ≤ maxDepth) (h : g.sum n ts = .error f) :
    g.StuckAt n ts .sum f := by
  rw [sum] at h
  rcases error_of_reading h with hs | ⟨e, mid, hlt, hs, h⟩
  · exact (stuck_product hk hn hs).extend [] (fun us _ last d _ hd => ⟨_, completes_sum hd⟩)
      fun ext _ hf => fails_sum hf
  · have hst := stuck_sumTail hk hn h
    obtain ⟨d, rfl, -, hfit⟩ := (soundBelow g _).product (Nat.lt_succ_self _) ⟨_, hs⟩
    exact hst.extend d.tokens
      (fun us rest last d' hus hd => ⟨_, completes_sum_tail hn (hus ▸ hfit) hd⟩)
      fun ext hext hf => fails_sum_tail (reads_of_fits d (fits_congr d hext hfit)) hf

/-! ### Whole sources -/

lemma StuckBelow.mono {k k' : ℕ} (hk : g.StuckBelow k) (h : k' ≤ k) : g.StuckBelow k' where
  sum hn hlt := hk.sum hn (hlt.trans_le h)
  product hn hlt := hk.product hn (hlt.trans_le h)
  signed hn hlt := hk.signed hn (hlt.trans_le h)
  power hn hlt := hk.power hn (hlt.trans_le h)

theorem stuckBelow (g : Grammar) (k : ℕ) : g.StuckBelow k := by
  induction k with
  | zero => constructor <;> intros <;> omega
  | succ k ih =>
    constructor
    · exact fun hn hlt => stuck_sum (ih.mono (Nat.le_of_lt_succ hlt)) hn
    · exact fun hn hlt => stuck_product (ih.mono (Nat.le_of_lt_succ hlt)) hn
    · exact fun hn hlt => stuck_signed (ih.mono (Nat.le_of_lt_succ hlt)) hn
    · exact fun hn hlt => stuck_power (ih.mono (Nat.le_of_lt_succ hlt)) hn

end Abacus.Grammar
