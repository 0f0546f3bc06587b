import Abacus.Proofs.PrintedText

/-!
Trees as their texts show them. The text of a tree has its signs before an operand and its
exclamation marks behind it, but does not say which of them come first, and it has an infinite
number as the name `inf`. All else can be told from it: trees have one text just if they are the
same once signs are put before exclamation marks, names for infinite numbers and stars between
neighbours.
-/

namespace Abacus.Proofs.ShownTrees

open Grammar PrintedText WrittenProducts

variable {x y e e' : Expr} {rest rest' : List Token}

/-! ### What a text shows -/

/-- An exclamation mark under the signs of a tree. -/
def bang : Expr → Expr
  | .signed s e => .signed s (bang e)
  | e => .factorial e

mutual

/-- The tree as its text shows it: signs come before exclamation marks, an infinite number is a
name, names stand nowhere, and products are written. -/
def shown : Expr → Expr
  | .number v => if v = .inf false then .reference "inf" 0 else .number v
  | .reference name _ => .reference name 0
  | .binary op l r => .binary (written op) (shown l) (shown r)
  | .signed s e => .signed s (shown e)
  | .factorial e => bang (shown e)
  | .call name _ args => .call name 0 (shownAll args)

def shownAll : List Expr → List Expr
  | [] => []
  | e :: rest => shown e :: shownAll rest

end

mutual

/-- Infinite numbers as the name that they are shown by. -/
def named : Expr → Expr
  | .number v => if v = .inf false then .reference "inf" 0 else .number v
  | .reference name pos => .reference name pos
  | .binary op l r => .binary op (named l) (named r)
  | .signed s e => .signed s (named e)
  | .factorial e => .factorial (named e)
  | .call name pos args => .call name pos (namedAll args)

def namedAll : List Expr → List Expr
  | [] => []
  | e :: rest => named e :: namedAll rest

end

/-! ### The text is that of the tree as it is shown -/

lemma text_bang (e : Expr) : (bang e).text = e.text ++ "!" := by
  induction e using bang.induct with
  | case1 s e ih => rw [bang, Expr.text, ih, Expr.text, String.append_assoc]
  | case2 e hsign => rw [bang.eq_2 e hsign, Expr.text]

lemma text_written (op : Operator) : (written op).text = op.text := by
  cases op <;> rfl

mutual

lemma text_shown (e : Expr) : (shown e).text = e.text := by
  match e with
  | .number v =>
    rw [shown]
    split
    · rename_i hv
      subst hv
      decide
    · rfl
  | .reference _ _ => rfl
  | .binary op l r =>
    simp only [shown, Expr.text, text_shown l, text_shown r, text_written]
  | .signed _ e => simp only [shown, Expr.text, text_shown e]
  | .factorial e => simp only [shown, text_bang, Expr.text, text_shown e]
  | .call _ _ args => simp only [shown, Expr.text, texts_shownAll args]

lemma texts_shownAll (es : List Expr) : Expr.texts (shownAll es) = Expr.texts es := by
  match es with
  | [] => rfl
  | e :: rest => simp only [shownAll, Expr.texts, text_shown e, texts_shownAll rest]

end

mutual

lemma shown_named (e : Expr) : shown (named e) = shown e := by
  match e with
  | .number v =>
    rw [named, shown]
    split
    · rfl
    · rename_i hv
      rw [shown, if_neg hv]
  | .reference _ _ => rfl
  | .binary op l r => simp only [named, shown, shown_named l, shown_named r]
  | .signed _ e => simp only [named, shown, shown_named e]
  | .factorial e => simp only [named, shown, shown_named e]
  | .call _ _ args => simp only [named, shown, shownAll_namedAll args]

lemma shownAll_namedAll (es : List Expr) : shownAll (namedAll es) = shownAll es := by
  match es with
  | [] => rfl
  | e :: rest => simp only [namedAll, shownAll, shown_named e, shownAll_namedAll rest]

end

lemma text_named (e : Expr) : (named e).text = e.text := by
  rw [← text_shown, shown_named, text_shown]

lemma begins_inf : Token.Begins [] ⟨.ident, "inf", 0⟩ :=
  @Token.Begins.word [] 'i' ['n', 'f'] 0 (by decide) (by decide +kernel) (by decide +kernel)
    (List.forall_iff_forall_mem.mp (by decide +kernel)) (by simp)

/-- The names that are put in are words, and no number is infinite then. -/
lemma sourced_named (h : Sourced e) : Sourced (named e) ∧ finite (named e) = true := by
  induction h with
  | finite m => exact ⟨.finite m, rfl⟩
  | infinite => exact ⟨.reference begins_inf, rfl⟩
  | reference hn => exact ⟨.reference hn, rfl⟩
  | binary op _ _ ihl ihr =>
    exact ⟨.binary op ihl.1 ihr.1, by simp only [named, finite, ihl.2, ihr.2, Bool.and_self]⟩
  | signed s _ ih => exact ⟨.signed s ih.1, ih.2⟩
  | factorial _ ih => exact ⟨.factorial ih.1, ih.2⟩
  | call hn _ ih =>
    exact ⟨.call hn ih.1, by simp only [named, namedAll, finite, allFinite, ih.2, Bool.and_self]⟩
  | callTwo hn _ _ iha ihb =>
    exact ⟨.callTwo hn iha.1 ihb.1, by
      simp only [named, namedAll, finite, allFinite, iha.2, ihb.2, Bool.and_self]⟩

/-! ### The tokens tell what is shown

An exclamation mark behind the tokens of a tree can belong to the tree or to what follows it, so two
trees whose tokens begin alike may differ by such marks. Everything else in them is the same. -/

/-- The second tree is shown as the first one with exclamation marks, which are all that the first
list has before the second. -/
def Extends (x : Expr) (rest : List Token) (y : Expr) (rest' : List Token) : Prop :=
  ∃ n, shown y = bang^[n] (shown x) ∧ rest = List.replicate n bangToken ++ rest'

/-- One of the trees is shown as the other with some of the exclamation marks behind it. -/
def Meets (x : Expr) (rest : List Token) (y : Expr) (rest' : List Token) : Prop :=
  Extends x rest y rest' ∨ Extends y rest' x rest

lemma Meets.symm (h : Meets x rest y rest') : Meets y rest' x rest := Or.symm h

lemma Meets.of_eq (h : shown x = shown y) (hrest : rest = rest') : Meets x rest y rest' :=
  .inl ⟨0, h.symm, hrest⟩

lemma Meets.factorial_right (h : Meets x rest y (bangToken :: rest')) :
    Meets x rest (.factorial y) rest' := by
  rcases h with ⟨n, hy, rfl⟩ | ⟨n, hx, hrest⟩
  · refine .inl ⟨n + 1, ?_, ?_⟩
    · rw [shown, hy, Function.iterate_succ_apply']
    · rw [List.replicate_succ', List.append_assoc, List.singleton_append]
  · cases n with
    | zero =>
      refine .inl ⟨1, ?_, hrest.symm⟩
      rw [shown, hx, Function.iterate_zero_apply, Function.iterate_one]
    | succ n =>
      refine .inr ⟨n, ?_, (List.cons.inj hrest).2⟩
      rw [shown, hx, Function.iterate_succ_apply]

lemma Meets.factorial_left (h : Meets x (bangToken :: rest) y rest') :
    Meets (.factorial x) rest y rest' := h.symm.factorial_right.symm

lemma iterate_bang_signed (s : Sign) (n : ℕ) (e : Expr) :
    bang^[n] (.signed s e) = .signed s (bang^[n] e) := by
  induction n generalizing e with
  | zero => rfl
  | succ n ih => rw [Function.iterate_succ_apply, bang, ih, Function.iterate_succ_apply]

lemma Meets.signed (s : Sign) (h : Meets x rest y rest') :
    Meets (.signed s x) rest (.signed s y) rest' := by
  rcases h with ⟨n, hy, hrest⟩ | ⟨n, hx, hrest⟩
  · exact .inl ⟨n, by rw [shown, shown, hy, iterate_bang_signed], hrest⟩
  · exact .inr ⟨n, by rw [shown, shown, hx, iterate_bang_signed], hrest⟩

lemma Extends.eq (h : Extends x rest y rest') (hr : Clear isBang rest) :
    shown x = shown y ∧ rest = rest' := by
  obtain ⟨n, hy, hrest⟩ := h
  cases n with
  | zero => exact ⟨hy.symm, hrest⟩
  | succ n =>
    rw [hrest, List.replicate_succ, List.cons_append, clear_cons] at hr
    cases hr

/-- Where no exclamation mark follows, both are shown alike. -/
lemma Meets.eq (h : Meets x rest y rest') (hr : Clear isBang rest) (hr' : Clear isBang rest') :
    shown x = shown y ∧ rest = rest' := by
  rcases h with h | h
  · exact h.eq hr
  · obtain ⟨hshown, hrest⟩ := h.eq hr'
    exact ⟨hshown.symm, hrest.symm⟩

/-- The tokens of the tree meet those of another tree only where both are shown alike, but for
exclamation marks behind them. -/
def Told (x : Expr) : Prop :=
  ∀ ⦃y : Expr⦄ ⦃rest rest' : List Token⦄, Sourced y → Clear isOpening rest → Clear isOpening rest' →
    tokens x ++ rest = tokens y ++ rest' → Meets x rest y rest'

/-- It is enough to tell a tree from those that do not end with an exclamation mark. -/
lemma Told.of_unmarked (h : ∀ ⦃z : Expr⦄ ⦃rest rest' : List Token⦄, Sourced z →
      (∀ a, z ≠ .factorial a) → Clear isOpening rest → Clear isOpening rest' →
      tokens x ++ rest = tokens z ++ rest' → Meets x rest z rest') : Told x := by
  intro y rest rest' hy hr hr' heq
  induction hy generalizing rest' with
  | factorial _ ih =>
    rw [tokens, List.append_assoc, List.singleton_append] at heq
    exact (ih (clear_cons.mpr rfl) heq).factorial_right
  | finite m => exact h (.finite m) (by simp) hr hr' heq
  | infinite => exact h .infinite (by simp) hr hr' heq
  | reference hn => exact h (.reference hn) (by simp) hr hr' heq
  | binary op hleft hright => exact h (.binary op hleft hright) (by simp) hr hr' heq
  | signed s he => exact h (.signed s he) (by simp) hr hr' heq
  | call hn ha => exact h (.call hn ha) (by simp) hr hr' heq
  | callTwo hn ha hb => exact h (.callTwo hn ha hb) (by simp) hr hr' heq

lemma Told.factorial (h : Told x) : Told (.factorial x) := by
  intro y rest rest' hy _ hr' heq
  rw [tokens, List.append_assoc, List.singleton_append] at heq
  exact (h hy (clear_cons.mpr rfl) hr' heq).factorial_left

/-- What follows an operand is the same mark for both, if it is no exclamation mark. -/
lemma Told.operand {m m' : Token} {ts ts' : List Token} (h : Told x) (hy : Sourced y)
    (hm : isOpening m.kind = false ∧ isBang m.kind = false)
    (hm' : isOpening m'.kind = false ∧ isBang m'.kind = false)
    (heq : tokens x ++ m :: ts = tokens y ++ m' :: ts') :
    shown x = shown y ∧ m = m' ∧ ts = ts' := by
  obtain ⟨hshown, hts⟩ := (h hy (clear_cons.mpr hm.1) (clear_cons.mpr hm'.1) heq).eq
    (clear_cons.mpr hm.2) (clear_cons.mpr hm'.2)
  exact ⟨hshown, List.cons.inj hts⟩

lemma told_number (v : Double) : Told (.number v) := by
  refine .of_unmarked fun z rest rest' hz hbang _ _ heq => ?_
  cases hz with
  | finite | infinite =>
    simp only [tokens, List.singleton_append, List.cons.injEq, Token.mk.injEq,
      Token.Kind.number.injEq] at heq
    exact .of_eq (by rw [heq.1.1]) heq.2
  | factorial => exact absurd rfl (hbang _)
  | signed s => cases s <;> simp [tokens, signToken] at heq
  | _ => simp [tokens, openingToken] at heq

lemma tokens_call (name : String) (pos : ℕ) (a : Expr) (rest : List Token) :
    tokens (.call name pos [a]) ++ rest =
      ⟨.ident, name, 0⟩ :: openingToken :: (tokens a ++ closingToken :: rest) := by
  simp [tokens, tokensOfAll]

lemma tokens_callTwo (name : String) (pos : ℕ) (a b : Expr) (rest : List Token) :
    tokens (.call name pos [a, b]) ++ rest = ⟨.ident, name, 0⟩ :: openingToken ::
      (tokens a ++ commaToken :: (tokens b ++ closingToken :: rest)) := by
  simp [tokens, tokensOfAll]

/-- A parenthesis follows the name of a function, but no other name. -/
lemma not_tokens_call {name name' : String} {pos pos' : ℕ} {args : List Expr}
    (hr : Clear isOpening rest)
    (heq : tokens (.reference name pos) ++ rest = tokens (.call name' pos' args) ++ rest') :
    False := by
  simp only [tokens, List.cons_append, List.nil_append, List.cons.injEq] at heq
  rw [heq.2, clear_cons] at hr
  cases hr

lemma told_reference (name : String) (pos : ℕ) : Told (.reference name pos) := by
  refine .of_unmarked fun z rest rest' hz hbang hr _ heq => ?_
  cases hz with
  | reference =>
    simp only [tokens, List.singleton_append, List.cons.injEq, Token.mk.injEq] at heq
    exact .of_eq (by rw [shown, shown, heq.1.2.1]) heq.2
  | call | callTwo => exact (not_tokens_call hr heq).elim
  | factorial => exact absurd rfl (hbang _)
  | signed s => cases s <;> simp [tokens, signToken] at heq
  | _ => simp [tokens, openingToken] at heq

lemma isBang_operatorToken (op : Operator) : isBang (operatorToken op).kind = false := by
  cases op <;> rfl

lemma written_of_token {op op' : Operator} (h : operatorToken op = operatorToken op') :
    written op = written op' := by
  cases op <;> cases op' <;> first | rfl | simp [operatorToken] at h

lemma Told.binary {l r : Expr} (op : Operator) (hl : Told l) (hr : Told r) :
    Told (.binary op l r) := by
  refine .of_unmarked fun z rest rest' hz hbang _ _ heq => ?_
  cases hz with
  | @binary l' r' op' hl' hr' =>
    simp only [tokens, List.cons_append, List.append_assoc, List.nil_append, List.cons.injEq,
      true_and] at heq
    obtain ⟨hleft, hop, heq⟩ := hl.operand hl'
      ⟨isOpening_operatorToken op, isBang_operatorToken op⟩
      ⟨isOpening_operatorToken op', isBang_operatorToken op'⟩ heq
    obtain ⟨hright, -, hrest⟩ := hr.operand hr' ⟨rfl, rfl⟩ ⟨rfl, rfl⟩ heq
    exact .of_eq (by rw [shown, shown, hleft, hright, written_of_token hop]) hrest
  | factorial => exact absurd rfl (hbang _)
  | signed s => cases s <;> simp [tokens, signToken, openingToken] at heq
  | _ => simp [tokens, openingToken] at heq

lemma Told.signed (s : Sign) (h : Told x) : Told (.signed s x) := by
  refine .of_unmarked fun z rest rest' hz hbang hr hr' heq => ?_
  cases hz with
  | @signed y s' hy =>
    simp only [tokens, List.cons_append, List.cons.injEq] at heq
    obtain rfl : s = s' := by cases s <;> cases s' <;> first | rfl | simp [signToken] at heq
    exact (h hy hr hr' heq.2).signed s
  | factorial => exact absurd rfl (hbang _)
  | _ => cases s <;> simp [tokens, signToken, openingToken] at heq

/-- The mark behind the first argument tells whether there is another. -/
lemma Told.call {a : Expr} (name : String) (pos : ℕ) (ha : Told a) : Told (.call name pos [a]) := by
  refine .of_unmarked fun z rest rest' hz hbang _ hr' heq => ?_
  cases hz with
  | @call name' _ b _ hb =>
    rw [tokens_call, tokens_call] at heq
    obtain ⟨hname, heq⟩ := List.cons.inj heq
    obtain ⟨harg, -, hrest⟩ := ha.operand hb ⟨rfl, rfl⟩ ⟨rfl, rfl⟩ (List.cons.inj heq).2
    exact .of_eq (by simp only [shown, shownAll, (Token.mk.inj hname).2.1, harg]) hrest
  | @callTwo name' _ b b' _ hb _ =>
    rw [tokens_call, tokens_callTwo] at heq
    obtain ⟨-, heq⟩ := List.cons.inj heq
    obtain ⟨-, hmark, -⟩ := ha.operand hb ⟨rfl, rfl⟩ ⟨rfl, rfl⟩ (List.cons.inj heq).2
    -- the argument ends at a parenthesis here and at a comma there
    cases hmark
  | reference => exact (not_tokens_call hr' heq.symm).elim
  | factorial => exact absurd rfl (hbang _)
  | signed s => cases s <;> simp [tokens, signToken] at heq
  | _ => simp [tokens, openingToken] at heq

lemma Told.callTwo {a a' : Expr} (name : String) (pos : ℕ) (ha : Told a) (ha' : Told a') :
    Told (.call name pos [a, a']) := by
  refine .of_unmarked fun z rest rest' hz hbang _ hr' heq => ?_
  cases hz with
  | @call name' _ b _ hb =>
    rw [tokens_callTwo, tokens_call] at heq
    obtain ⟨-, heq⟩ := List.cons.inj heq
    obtain ⟨-, hmark, -⟩ := ha.operand hb ⟨rfl, rfl⟩ ⟨rfl, rfl⟩ (List.cons.inj heq).2
    cases hmark
  | @callTwo name' _ b b' _ hb hb' =>
    rw [tokens_callTwo, tokens_callTwo] at heq
    obtain ⟨hname, heq⟩ := List.cons.inj heq
    obtain ⟨harg, -, heq⟩ := ha.operand hb ⟨rfl, rfl⟩ ⟨rfl, rfl⟩ (List.cons.inj heq).2
    obtain ⟨harg', -, hrest⟩ := ha'.operand hb' ⟨rfl, rfl⟩ ⟨rfl, rfl⟩ heq
    exact .of_eq (by simp only [shown, shownAll, (Token.mk.inj hname).2.1, harg, harg']) hrest
  | reference => exact (not_tokens_call hr' heq.symm).elim
  | factorial => exact absurd rfl (hbang _)
  | signed s => cases s <;> simp [tokens, signToken] at heq
  | _ => simp [tokens, openingToken] at heq

lemma told (h : Sourced x) : Told x := by
  induction h with
  | finite m => exact told_number _
  | infinite => exact told_number _
  | @reference name pos _ => exact told_reference name pos
  | binary op _ _ ihl ihr => exact ihl.binary op ihr
  | signed s _ ih => exact ih.signed s
  | factorial _ ih => exact ih.factorial
  | @call name pos _ _ _ ih => exact ih.call name pos
  | @callTwo name pos _ _ _ _ _ iha ihb => exact iha.callTwo name pos ihb

lemma shown_of_tokens (hx : Sourced x) (hy : Sourced y) (h : tokens x = tokens y) :
    shown x = shown y :=
  ((told hx hy (clear_nil _) (clear_nil _) (congrArg (· ++ []) h)).eq (clear_nil _)
    (clear_nil _)).1

/-- A text has one list of tokens. -/
lemma tokens_of_text (hx : Sourced x) (hfx : finite x = true) (hy : Sourced y)
    (hfy : finite y = true) (h : x.text = y.text) : tokens x = tokens y := by
  obtain ⟨us, pos, hus, hscan⟩ := scansAs_text hx hfx parts_nil 0
  obtain ⟨vs, pos', hvs, hscan'⟩ := scansAs_text hy hfy parts_nil 0
  rw [h, hscan'] at hscan
  simp only [Token.scanFrom, Except.map, List.append_nil, Except.ok.injEq] at hscan
  rw [← hus, ← hvs, hscan]

/-- **A text tells what it shows, and only that.** -/
theorem text_eq_iff (h : Sourced e) (h' : Sourced e') : e.text = e'.text ↔ shown e = shown e' := by
  constructor
  · intro htext
    obtain ⟨hs, hf⟩ := sourced_named h
    obtain ⟨hs', hf'⟩ := sourced_named h'
    rw [← text_named e, ← text_named e'] at htext
    rw [← shown_named e, ← shown_named e']
    exact shown_of_tokens hs hs' (tokens_of_text hs hf hs' hf' htext)
  · intro hshown
    rw [← text_shown e, ← text_shown e', hshown]

/-- A number out of range has the text of a name, and a sign below an exclamation mark that of a
sign above it. -/
example :
    (Expr.number (.inf false)).text = (Expr.reference "inf" 0).text ∧
      (Expr.factorial (.signed .minus (.reference "x" 2))).text =
        (Expr.signed .minus (.factorial (.reference "x" 1))).text := by
  decide

end Abacus.Proofs.ShownTrees
