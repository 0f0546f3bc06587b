import Mathlib.Order.Bounds.Basic
import Abacus.Stack
import Abacus.Proofs.PlainWalk
import Abacus.Proofs.Recovery
import Abacus.Proofs.ScanSteps

/-!
How many calls the evaluation of an accepted source has open at once. What is one level of nesting
for the reader can be a sum, a product, a power, a run of exclamation marks and a call for the
evaluation, which is eleven open calls for each level. The limit of the levels therefore does not
keep the evaluation within its room: a source of a hundred levels can need more.
-/

namespace Abacus

namespace Expr

/-! ### Chains and runs as a whole -/

lemma framesIn_le_frames (s : Surrounding) (e : Expr) : e.framesIn s ≤ e.frames := by
  cases e <;> simp only [frames, framesIn] <;> grind

lemma frames_le_framesIn (s : Surrounding) (e : Expr) : e.frames ≤ e.framesIn s + 2 := by
  cases e <;> simp only [frames, framesIn] <;> grind

lemma framesIn_chain (e : Expr) : e.framesIn .chain =
    ((Proofs.PlainWalk.chain e).2.map (·.2.frames)).foldl max
      (Proofs.PlainWalk.chain e).1.frames := by
  induction e using Proofs.PlainWalk.chain.induct with
  | case1 l r => simp [Proofs.PlainWalk.chain, frames, framesIn]
  | case2 op l r hop ih =>
    simp [Proofs.PlainWalk.chain, framesIn, hop, ih, frames]
  | case3 e hne =>
    cases e <;> simp_all [Proofs.PlainWalk.chain, frames, framesIn]

/-- **A chain has one call**, for all its operands. -/
theorem frames_chain {op : Operator} (l r : Expr) (hop : op ≠ .pow) :
    (Expr.binary op l r).frames =
      2 + ((Proofs.PlainWalk.chain (.binary op l r)).2.map (·.2.frames)).foldl max
        (Proofs.PlainWalk.chain (.binary op l r)).1.frames := by
  rw [← framesIn_chain]
  simp [frames, framesIn, hop]

lemma framesIn_run (e : Expr) :
    e.framesIn .run = (Proofs.PlainWalk.bangRun e).1.frames := by
  induction e using Proofs.PlainWalk.bangRun.induct with
  | case1 e ih => simp [Proofs.PlainWalk.bangRun, framesIn, ih]
  | case2 e hne => cases e <;> simp_all [Proofs.PlainWalk.bangRun, frames, framesIn]

theorem frames_bangRun (e : Expr) :
    (Expr.factorial e).frames = 2 + (Proofs.PlainWalk.bangRun e).1.frames := by
  rw [← framesIn_run]
  simp [frames, framesIn]

end Expr

end Abacus

namespace Abacus.Proofs.StackUse

open Grammar

variable {implied : Bool} {r : Rule}

/-! ### The calls for `k` levels of nesting -/

/-- The most calls that are open for what a rule gives with `k` more levels of nesting in it. The
rest of a chain has no call of its own. -/
def Within (k : ℕ) : (r : Rule) → r.Yield → Prop
  | .operand, e => e.frames ≤ max 2 (11 * k)
  | .factorial, e => e.frames ≤ 2 + max 2 (11 * k)
  | .power, e => e.frames ≤ 11 * k + 4
  | .signed, e => e.frames ≤ 11 * k + 4
  | .product, e => e.frames ≤ 11 * k + 6
  | .productTail, f => ∀ left, (f left).framesIn .chain ≤ max (left.framesIn .chain) (11 * k + 4)
  | .sum, e => e.frames ≤ 11 * k + 8
  | .sumTail, f => ∀ left, (f left).framesIn .chain ≤ max (left.framesIn .chain) (11 * k + 6)

lemma ne_pow_of_sumOperator {k : Token.Kind} {op : Operator} (h : sumOperator? k = some op) :
    op ≠ .pow := by
  rintro rfl
  cases k <;> simp [sumOperator?] at h

lemma ne_pow_of_productOperator {k : Token.Kind} {op : Operator}
    (h : productOperator? k = some op) : op ≠ .pow := by
  rintro rfl
  cases k <;> simp [productOperator?] at h

variable {op : Operator} {e e' : Expr} {f : Expr → Expr} {b : ℕ}

/-- The rest of a chain is evaluated by the call that its first operand is part of. -/
lemma frames_chain_le (he : e.frames ≤ b)
    (hf : ∀ left, (f left).framesIn .chain ≤ max (left.framesIn .chain) b) :
    (f e).frames ≤ b + 2 := by
  have hchain := hf e
  have hfirst := e.framesIn_le_frames .chain
  have := (f e).frames_le_framesIn .chain
  omega

lemma framesIn_link_le (hop : op ≠ .pow) (he : e.frames ≤ b)
    (hf : ∀ left, (f left).framesIn .chain ≤ max (left.framesIn .chain) b) (left : Expr) :
    (f (.binary op left e)).framesIn .chain ≤ max (left.framesIn .chain) b := by
  have hlink : (Expr.binary op left e).framesIn .chain = max (left.framesIn .chain) e.frames := by
    simp [Expr.framesIn, hop, Expr.frames]
  have := hf (.binary op left e)
  omega

lemma framesIn_bangs (bangs : List Token) (e : Expr) :
    (bangs.foldl (fun left _ => Expr.factorial left) e).framesIn .run = e.framesIn .run := by
  induction bangs generalizing e with
  | nil => rfl
  | cons b bs ih => rw [List.foldl_cons, ih, Expr.framesIn, if_pos rfl, Nat.zero_add]

lemma frames_bangs_le (bangs : List Token) (e : Expr) :
    (bangs.foldl (fun left _ => Expr.factorial left) e).frames ≤ 2 + e.frames := by
  have hrun := framesIn_bangs bangs e
  have hle := e.framesIn_le_frames .run
  have := (bangs.foldl (fun left _ => Expr.factorial left) e).frames_le_framesIn .run
  omega

lemma frames_signed (s : Sign) (e : Expr) : (Expr.signed s e).frames = 2 + e.frames := by
  simp [Expr.frames, Expr.framesIn]

lemma frames_power (e e' : Expr) :
    (Expr.binary .pow e e').frames = 2 + max e.frames e'.frames := by
  simp [Expr.frames, Expr.framesIn]

lemma frames_call (name : String) (pos : ℕ) (e : Expr) :
    (Expr.call name pos [e]).frames = 3 + e.frames := by
  simp [Expr.frames, Expr.framesIn, Expr.framesOfAll]

lemma frames_callTwo (name : String) (pos : ℕ) (e e' : Expr) :
    (Expr.call name pos [e, e']).frames = 3 + max e.frames e'.frames := by
  simp [Expr.frames, Expr.framesIn, Expr.framesOfAll]

/-- What lies a level deeper has a level less to go to. -/
lemma levels_deeper {d : Derivation implied r} {n k : ℕ} (hr : r ≠ .sumTail)
    (hr' : r ≠ .productTail) (h : ∀ l ∈ d.leaves (n + 1), l.level ≤ n + k) :
    ∃ j, k = j + 1 ∧ ∀ l ∈ d.leaves (n + 1), l.level ≤ n + 1 + j := by
  obtain ⟨t, b, ls, hd⟩ := d.exists_leaves_cons (n + 1) hr hr'
  have hk : n + 1 ≤ n + k := h ⟨t, n + 1, b⟩ (by simp [hd])
  obtain ⟨j, rfl⟩ : ∃ j, k = j + 1 := ⟨k - 1, by omega⟩
  exact ⟨j, rfl, fun l hl => by have := h l hl; omega⟩

theorem within_of_levels (d : Derivation implied r) {n k : ℕ}
    (h : ∀ l ∈ d.leaves n, l.level ≤ n + k) : Within k r d.tree := by
  induction d generalizing n k with
  | sum first tail ihf iht =>
    simp only [Derivation.leaves, List.mem_append] at h
    exact frames_chain_le (ihf fun l hl => h l (.inl hl)) (iht fun l hl => h l (.inr hl))
  | product first tail ihf iht =>
    simp only [Derivation.leaves, List.mem_append] at h
    exact frames_chain_le (ihf fun l hl => h l (.inl hl)) (iht fun l hl => h l (.inr hl))
  | sumEnd => exact fun left => le_max_left _ _
  | productEnd => exact fun left => le_max_left _ _
  | sumLink t op hop term tail ihm iht =>
    simp only [Derivation.leaves, List.mem_cons, List.mem_append] at h
    exact framesIn_link_le (ne_pow_of_sumOperator hop) (ihm fun l hl => h l (.inr (.inl hl)))
      (iht fun l hl => h l (.inr (.inr hl)))
  | productLink t op hop factor tail ihm iht =>
    simp only [Derivation.leaves, List.mem_cons, List.mem_append] at h
    exact framesIn_link_le (ne_pow_of_productOperator hop)
      (ihm fun l hl => h l (.inr (.inl hl))) (iht fun l hl => h l (.inr (.inr hl)))
  | neighbour _ factor tail ihm iht =>
    simp only [Derivation.leaves, List.mem_append] at h
    exact framesIn_link_le (by simp) (ihm fun l hl => h l (.inl hl))
      (iht fun l hl => h l (.inr hl))
  | sign t s _ e ih =>
    obtain ⟨j, rfl, hj⟩ := levels_deeper (by simp) (by simp) fun l hl =>
      h l (List.mem_cons_of_mem _ hl)
    have he : e.tree.frames ≤ 11 * j + 4 := ih hj
    have := frames_signed s e.tree
    simp only [Within, Derivation.tree]
    omega
  | unsigned e ih => exact ih h
  | base e ih =>
    have he : e.tree.frames ≤ 2 + max 2 (11 * k) := ih h
    simp only [Within, Derivation.tree]
    omega
  | raised base t _ exponent ihb ihx =>
    simp only [Derivation.leaves, List.mem_append, List.mem_cons] at h
    obtain ⟨j, rfl, hj⟩ := levels_deeper (by simp) (by simp) fun l hl => h l (.inr (.inr hl))
    -- the base stays on the level and the exponent goes one deeper
    have hb : base.tree.frames ≤ 2 + max 2 (11 * (j + 1)) := ihb fun l hl => h l (.inl hl)
    have hx : exponent.tree.frames ≤ 11 * j + 4 := ihx hj
    have := frames_power base.tree exponent.tree
    simp only [Within, Derivation.tree]
    omega
  | factorial e bangs _ ih =>
    have he : e.tree.frames ≤ max 2 (11 * k) := ih fun l hl => h l (List.mem_append_left _ hl)
    exact (frames_bangs_le bangs e.tree).trans (Nat.add_le_add_left he 2)
  | number t v _ => simp [Within, Derivation.tree, Expr.frames, Expr.framesIn]
  | name t _ => simp [Within, Derivation.tree, Expr.frames, Expr.framesIn]
  | group o c _ _ e ih =>
    simp only [Derivation.leaves, List.mem_cons, List.mem_append] at h
    obtain ⟨j, rfl, hj⟩ := levels_deeper (by simp) (by simp) fun l hl => h l (.inr (.inl hl))
    -- parentheses open a level and take no frame
    have he : e.tree.frames ≤ 11 * j + 8 := ih hj
    simp only [Within, Derivation.tree]
    omega
  | call f o c _ _ _ arg ih =>
    simp only [Derivation.leaves, List.mem_cons, List.mem_append] at h
    obtain ⟨j, rfl, hj⟩ := levels_deeper (by simp) (by simp) fun l hl =>
      h l (.inr (.inr (.inl hl)))
    have ha : arg.tree.frames ≤ 11 * j + 8 := ih hj
    have := frames_call f.text f.pos arg.tree
    simp only [Within, Derivation.tree]
    omega
  | callTwo f o m c _ _ _ _ arg arg' ih ih' =>
    simp only [Derivation.leaves, List.mem_cons, List.mem_append] at h
    obtain ⟨j, rfl, hj⟩ := levels_deeper (d := arg) (by simp) (by simp) fun l hl =>
      h l (.inr (.inr (.inl hl)))
    have ha : arg.tree.frames ≤ 11 * j + 8 := ih hj
    have ha' : arg'.tree.frames ≤ 11 * j + 8 := ih' fun l hl => by
      have := h l (.inr (.inr (.inr (.inr (.inl hl)))))
      omega
    have := frames_callTwo f.text f.pos arg.tree arg'.tree
    simp only [Within, Derivation.tree]
    omega

/-- **Eleven calls for each level**, and eight more. -/
theorem frames_le_of_levels {d : Derivation implied .sum} {k : ℕ}
    (h : ∀ l ∈ d.leaves 0, l.level ≤ k) : d.tree.frames ≤ 11 * k + 8 :=
  within_of_levels d fun l hl => by have := h l hl; omega

/-! ### The deepest source -/

/-- A name in a sum and in a product, with a power of a factorial of a call after it, in whose
argument it all begins again. -/
def layers : ℕ → String
  | 0 => "a+a*a!"
  | n + 1 => "a+a*abs(" ++ layers n ++ ")!^a!"

section

variable (implied)

def atom (pos : ℕ) : Derivation implied .operand := .name ⟨.ident, "a", pos⟩ rfl

def plain (pos : ℕ) : Derivation implied .factorial := .factorial (atom implied pos) [] no_bangs

def banged (e : Derivation implied .operand) (pos : ℕ) : Derivation implied .factorial :=
  .factorial e [⟨.bang, "!", pos⟩] (by simp)

/-- The tree of the sum and the product before a last factor. -/
def before (pos : ℕ) (last : Derivation implied .power) : Derivation implied .sum :=
  .sum (.product (.unsigned (.base (plain implied pos))) .productEnd)
    (.sumLink ⟨.plus, "+", pos + 1⟩ .add rfl
      (.product (.unsigned (.base (plain implied (pos + 2))))
        (.productLink ⟨.star, "*", pos + 3⟩ .mul rfl (.unsigned last) .productEnd)) .sumEnd)

def layered : ℕ → ℕ → Derivation implied .sum
  | 0, pos => before implied pos (.base (banged implied (atom implied (pos + 4)) (pos + 5)))
  | n + 1, pos =>
    let stop := pos + 8 + (layers n).length
    before implied pos (.raised
      (banged implied (.call ⟨.ident, "abs", pos + 4⟩ ⟨.lparen, "(", pos + 7⟩ ⟨.rparen, ")", stop⟩
        rfl rfl rfl (layered n (pos + 8))) (stop + 1))
      ⟨.caret, "^", stop + 2⟩ rfl
      (.unsigned (.base (banged implied (atom implied (stop + 3)) (stop + 4)))))

end

lemma frames_before (pos : ℕ) (last : Derivation implied .power) :
    (before implied pos last).tree.frames = 4 + max 2 last.tree.frames := by
  have hsum : (before implied pos last).tree =
      .binary .add (.reference "a" pos) (.binary .mul (.reference "a" (pos + 2)) last.tree) := rfl
  simp only [hsum, Expr.frames, Expr.framesIn, reduceCtorEq, ↓reduceIte]
  omega

lemma frames_layered (n pos : ℕ) : (layered implied n pos).tree.frames = 11 * n + 8 := by
  induction n generalizing pos with
  | zero => rfl
  | succ n ih =>
    have hbase (name : String) (p : ℕ) (e : Expr) :
        (Expr.call name p [e]).factorial.frames = 5 + e.frames := by
      rw [Expr.frames_bangRun, PlainWalk.bangRun, frames_call]
      · omega
      · simp
    have hexp (p : ℕ) : (Expr.reference "a" p).factorial.frames = 4 := rfl
    have hn := ih (pos + 8)
    rw [layered, frames_before]
    simp only [Derivation.tree, banged, atom, List.foldl_cons, List.foldl_nil, frames_power, hbase,
      hexp]
    omega

lemma fits_before {last : Derivation implied .power} {n pos : ℕ} {rest : List Token}
    (h : last.Fits n rest) (hr : Ends .sum rest) : (before implied pos last).Fits n rest := by
  obtain ⟨-, -, hp, hs⟩ := hr
  simp [before, plain, atom, Derivation.Fits, Derivation.tokens, isBang, isCaret, isOpening,
    extendsProduct, productOperator?, startsOperand, hp, hs, h]

lemma fits_layered (n pos : ℕ) {m : ℕ} {rest : List Token} (hn : m + n ≤ maxDepth)
    (hr : Ends .sum rest) : (layered implied n pos).Fits m rest := by
  induction n generalizing pos m rest with
  | zero =>
    refine fits_before ⟨⟨?_, hr.1⟩, hr.2.1⟩ hr
    exact clear_cons.mpr rfl
  | succ n ih =>
    have hm : m < maxDepth := by omega
    refine fits_before ⟨⟨⟨hm, ?_⟩, clear_cons.mpr rfl⟩, hm, ⟨⟨?_, hr.1⟩, hr.2.1⟩⟩ hr
    · exact ih (pos + 8) (by omega) (ends_of_rparen rfl _)
    · exact clear_cons.mpr rfl

lemma scans_name {c : Char} {k : Token.Kind} (h : Token.mark? c = some k) (pos : ℕ) :
    Token.Scans pos ['a', c] [⟨.ident, "a", pos⟩, ⟨k, String.singleton c, pos + 1⟩] :=
  Token.scans_word 'a' [] (by decide +kernel) (by simp) h

lemma scans_layered (n pos : ℕ) :
    Token.Scans pos (layers n).toList (layered implied n pos).tokens := by
  induction n generalizing pos with
  | zero => exact (scans_name rfl _).append ((scans_name rfl _).append (scans_name rfl _))
  | succ n ih =>
    have hcall : Token.Scans (pos + 4) "abs(".toList
        [⟨.ident, "abs", pos + 4⟩, ⟨.lparen, "(", pos + 7⟩] :=
      Token.scans_word 'a' ['b', 's'] (by decide +kernel)
        (List.forall_iff_forall_mem.mp (by decide +kernel)) rfl
    have hscan := (scans_name (c := '+') rfl pos).append ((scans_name (c := '*') rfl _).append
      (hcall.append ((ih (pos + 8)).append ((Token.scans_mark (c := ')') _ rfl).append
        ((Token.scans_mark (c := '!') _ rfl).append
          ((Token.scans_mark (c := '^') _ rfl).append (scans_name (c := '!') rfl _)))))))
    simpa [layers, layered, before, banged, plain, atom, Derivation.tokens, String.toList_append,
      String.length_toList, Nat.add_assoc] using hscan

/-- The deepest source is accepted. -/
lemma parse_layers (implied : Bool) {n : ℕ} (hn : n ≤ maxDepth) :
    Expr.parse implied (layers n) = .ok (layered implied n 0).tree := by
  have hs := (@scans_layered implied n 0).scan
  have hf : (layered implied n 0).Fits 0 [] := fits_layered n 0 (by omega) (ends_nil .sum)
  exact (parse_ok_iff hs).mpr ⟨layered implied n 0, Derivation.derives_iff.mpr ⟨rfl, hf⟩, rfl⟩

/-- **The most calls that an accepted source needs** are more than there is room for. -/
theorem isGreatest_frames (implied : Bool) :
    IsGreatest {k | ∃ source e, Expr.parse implied source = .ok e ∧ e.frames = k} 1108 := by
  constructor
  · exact ⟨layers maxDepth, _, parse_layers implied le_rfl, frames_layered maxDepth 0⟩
  · rintro k ⟨source, e, he, rfl⟩
    obtain ⟨ts, hs⟩ := scan_of_parse he
    obtain ⟨d, hd, rfl⟩ := (parse_ok_iff hs).mp he
    exact frames_le_of_levels hd.levels

/-- There is not room for every accepted source. -/
theorem not_forall_frames_lt :
    ¬ ∀ implied source e, Expr.parse implied source = .ok e → e.frames < stackLimit := by
  intro h
  have hlt := h false (layers maxDepth) _ (parse_layers false le_rfl)
  rw [frames_layered] at hlt
  simp [maxDepth, stackLimit] at hlt

/-! ### Calculations with limited room -/

variable {lib : Library} {source : String} {vars : Snapshot} {ts : List Token}

/-- **Ninety levels are safe**: a source that is nested no deeper has the outcome that it has with
room for everything. -/
theorem calculateOnStack_of_levels {d : Derivation implied .sum} (hs : Token.scan source = .ok ts)
    (hd : d.Derives ts) (hl : ∀ l ∈ d.leaves 0, l.level ≤ 90) :
    lib.calculateOnStack implied source vars = .ok (lib.calculate implied source vars) := by
  have hp : Expr.parse implied source = .ok d.tree := (parse_ok_iff hs).mpr ⟨d, hd, rfl⟩
  have hf := frames_le_of_levels hl
  exact lib.calculateOnStack_of_lt vars hp (hf.trans_lt (by decide))

/-- **More than ninety levels are not**: of every such number of levels there is a source that has
no outcome, whatever its names stand for. -/
theorem calculateOnStack_layers {n : ℕ} (hn : n ≤ maxDepth) (h : 90 < n) :
    lib.calculateOnStack implied (layers n) vars = .error .exhausted := by
  refine lib.calculateOnStack_of_not_lt vars (parse_layers implied hn) ?_
  rw [frames_layered, stackLimit]
  omega

end Abacus.Proofs.StackUse
