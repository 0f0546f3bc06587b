import Abacus.Proofs.ShownTrees
import Abacus.Proofs.Supplying

/-!
Sources whose trees have one text. They have one outcome, unless the trees differ in what the text
hides: the order of minus signs and exclamation marks, and what is an infinite number and what is
the name `inf`. Plus signs, places and stars between neighbours may differ as well, but decide
nothing.
-/

namespace Abacus.Proofs.SharedTexts

open Grammar PlainWalk PrintedText ShownTrees WrittenProducts

variable {x e e' : Expr}

/-! ### What a text hides -/

mutual

/-- The minus signs and exclamation marks of a tree, outer ones first and those of left operands
before those of right ones. -/
def order : Expr → List Token.Kind
  | .number _ => []
  | .reference _ _ => []
  | .binary _ l r => order l ++ order r
  | .signed .plus e => order e
  | .signed .minus e => .minus :: order e
  | .factorial e => .bang :: order e
  | .call _ _ args => orderOfAll args

def orderOfAll : List Expr → List Token.Kind
  | [] => []
  | e :: rest => order e ++ orderOfAll rest

end

mutual

/-- Which of the numbers and names of a tree are infinite numbers, from left to right. -/
def infinities : Expr → List Bool
  | .number v => [v = .inf false]
  | .reference _ _ => [false]
  | .binary _ l r => infinities l ++ infinities r
  | .signed _ e => infinities e
  | .factorial e => infinities e
  | .call _ _ args => infinitiesOfAll args

def infinitiesOfAll : List Expr → List Bool
  | [] => []
  | e :: rest => infinities e ++ infinitiesOfAll rest

end

lemma length_order_bang (e : Expr) : (order (bang e)).length = (order e).length + 1 := by
  induction e using bang.induct with
  | case1 s e ih =>
    rw [bang]
    cases s with
    | plus => exact ih
    | minus => rw [order, order, List.length_cons, List.length_cons, ih]
  | case2 e hsign => rw [bang.eq_2 e hsign, order, List.length_cons]

lemma infinities_bang (e : Expr) : infinities (bang e) = infinities e := by
  induction e using bang.induct with
  | case1 s e ih => rw [bang, infinities, ih, infinities]
  | case2 e hsign => rw [bang.eq_2 e hsign, infinities]

/-! ### What decides an outcome -/

mutual

/-- The tree without plus signs and places, its products written. -/
def pruned : Expr → Expr
  | .number v => .number v
  | .reference name _ => .reference name 0
  | .binary op l r => .binary (written op) (pruned l) (pruned r)
  | .signed .plus e => pruned e
  | .signed .minus e => .signed .minus (pruned e)
  | .factorial e => .factorial (pruned e)
  | .call name _ args => .call name 0 (prunedAll args)

def prunedAll : List Expr → List Expr
  | [] => []
  | e :: rest => pruned e :: prunedAll rest

end

section Evaluation

variable (s : Scope)

mutual

lemma plain_pruned (e : Expr) : plain s (pruned e) = plain s e := by
  match e with
  | .number _ => rfl
  | .reference _ _ => rfl
  | .binary op l r =>
    simp only [pruned, plain, plain_pruned l, plain_pruned r, written, apply_explicit]
  | .signed .plus e => simp only [pruned, plain, plain_pruned e, Sign.apply, bind_pure]
  | .signed .minus e => simp only [pruned, plain, plain_pruned e]
  | .factorial e => simp only [pruned, plain, plain_pruned e]
  | .call _ _ args => simp only [pruned, plain, plainAll_pruned args]

lemma plainAll_pruned (es : List Expr) : plainAll s (prunedAll es) = plainAll s es := by
  match es with
  | [] => rfl
  | e :: rest => simp only [prunedAll, plainAll, plain_pruned e, plainAll_pruned rest]

end

lemma outcome_pruned (e : Expr) : s.outcome (pruned e) = s.outcome e := by
  rw [Scope.outcome, Scope.outcome, eval_eq, eval_eq, plain_pruned]

variable {s}

mutual

/-- The name `inf` may stand for infinite numbers if it means them. -/
lemma plain_named (hs : s.number? "inf" = some (.inf false)) (e : Expr) :
    plain s (named e) = plain s e := by
  match e with
  | .number v =>
    rw [named]
    split
    · rename_i hv
      rw [plain, plain, Scope.reference, hs, hv]
    · rfl
  | .reference _ _ => rfl
  | .binary op l r => simp only [named, plain, plain_named hs l, plain_named hs r]
  | .signed _ e => simp only [named, plain, plain_named hs e]
  | .factorial e => simp only [named, plain, plain_named hs e]
  | .call _ _ args => simp only [named, plain, plainAll_namedAll hs args]

lemma plainAll_namedAll (hs : s.number? "inf" = some (.inf false)) (es : List Expr) :
    plainAll s (namedAll es) = plainAll s es := by
  match es with
  | [] => rfl
  | e :: rest => simp only [namedAll, plainAll, plain_named hs e, plainAll_namedAll hs rest]

end

lemma outcome_named (hs : s.number? "inf" = some (.inf false)) (e : Expr) :
    s.outcome (named e) = s.outcome e := by
  rw [Scope.outcome, Scope.outcome, eval_eq, eval_eq, plain_named hs]

end Evaluation

/-! ### What is hidden decides the rest -/

lemma pruned_bang (e : Expr) : pruned (bang e) = bang (pruned e) := by
  induction e using bang.induct with
  | case1 s e ih =>
    rw [bang]
    cases s with
    | plus => exact ih
    | minus => rw [pruned, pruned, ih, bang]
  | case2 e hsign =>
    rw [bang.eq_2 e hsign, pruned]
    cases e with
    | signed s e => exact (hsign s e rfl).elim
    | _ => rfl

lemma bang_injective : Function.Injective bang := by
  intro x
  induction x using bang.induct with
  | case1 s x ih =>
    intro y h
    cases y with
    | signed s' y =>
      -- a mark goes under the signs, so both have the same sign
      obtain ⟨hsign, hbang⟩ := Expr.signed.inj h
      rw [hsign, ih hbang]
    | _ => cases h
  | case2 x hsign =>
    intro y h
    rw [bang.eq_2 x hsign] at h
    cases y with
    | signed => cases h
    | _ => exact Expr.factorial.inj h

/-- The top is a sign or an exclamation mark, as it is of every tree with a mark put into it. -/
def isUnary : Expr → Bool
  | .signed _ _ => true
  | .factorial _ => true
  | _ => false

lemma isUnary_bang (e : Expr) : isUnary (bang e) = true := by
  cases e <;> rfl

lemma ne_bang (h : isUnary x = false) (e : Expr) : x ≠ pruned (bang e) := by
  rintro rfl
  rw [pruned_bang, isUnary_bang] at h
  cases h

lemma written_written (op : Operator) : written (written op) = written op := by
  cases op <;> rfl

mutual

/-- A text shows how many minus signs and exclamation marks there are. -/
lemma length_order (e : Expr) : (order (pruned (shown e))).length = (order e).length := by
  match e with
  | .number v =>
    rw [shown]
    split <;> rfl
  | .reference _ _ => rfl
  | .binary op l r =>
    simp only [shown, pruned, order, List.length_append, length_order l, length_order r]
  | .signed .plus e => exact length_order e
  | .signed .minus e => simp only [shown, pruned, order, List.length_cons, length_order e]
  | .factorial e =>
    simp only [shown, pruned_bang, length_order_bang, order, List.length_cons, length_order e]
  | .call _ _ args => simp only [shown, pruned, order, length_orderOfAll args]

lemma length_orderOfAll (es : List Expr) :
    (orderOfAll (prunedAll (shownAll es))).length = (orderOfAll es).length := by
  match es with
  | [] => rfl
  | e :: rest =>
    simp only [shownAll, prunedAll, orderOfAll, List.length_append, length_order e,
      length_orderOfAll rest]

end

mutual

lemma length_infinities (e : Expr) :
    (infinities (pruned (shown e))).length = (infinities e).length := by
  match e with
  | .number v =>
    rw [shown]
    split <;> rfl
  | .reference _ _ => rfl
  | .binary op l r =>
    simp only [shown, pruned, infinities, List.length_append, length_infinities l,
      length_infinities r]
  | .signed .plus e => exact length_infinities e
  | .signed .minus e => exact length_infinities e
  | .factorial e =>
    simp only [shown, pruned_bang, infinities_bang, infinities, length_infinities e]
  | .call _ _ args => simp only [shown, pruned, infinities, length_infinitiesOfAll args]

lemma length_infinitiesOfAll (es : List Expr) :
    (infinitiesOfAll (prunedAll (shownAll es))).length = (infinitiesOfAll es).length := by
  match es with
  | [] => rfl
  | e :: rest =>
    simp only [shownAll, prunedAll, infinitiesOfAll, List.length_append, length_infinities e,
      length_infinitiesOfAll rest]

end

/-- The trees are shown alike but for plus signs, and hide the same. -/
structure Agree (x y : Expr) : Prop where
  shown : pruned (shown x) = pruned (shown y)
  order : order x = order y
  infinities : infinities x = infinities y

/-- A tree that agrees with this one is the same but for what decides nothing. -/
def Revealed (x : Expr) : Prop := ∀ ⦃y : Expr⦄, Sourced y → Agree x y → pruned x = pruned y

section Parts

variable {l r l' r' : Expr}

/-- The parts of two trees hide the same if the trees do, as they are shown to hide as much. -/
lemma agree_parts (hl : pruned (shown l) = pruned (shown l'))
    (hr : pruned (shown r) = pruned (shown r')) (ho : order l ++ order r = order l' ++ order r')
    (hi : infinities l ++ infinities r = infinities l' ++ infinities r') :
    Agree l l' ∧ Agree r r' := by
  have hlenOrder : (order l).length = (order l').length := by
    rw [← length_order l, ← length_order l', hl]
  have hlenInfinities : (infinities l).length = (infinities l').length := by
    rw [← length_infinities l, ← length_infinities l', hl]
  obtain ⟨hol, hor⟩ := List.append_inj ho hlenOrder
  obtain ⟨hil, hir⟩ := List.append_inj hi hlenInfinities
  exact ⟨⟨hl, hol, hil⟩, hr, hor, hir⟩

lemma Agree.binary {op op' : Operator} (h : Agree (.binary op l r) (.binary op' l' r')) :
    written op = written op' ∧ Agree l l' ∧ Agree r r' := by
  obtain ⟨hs, ho, hi⟩ := h
  simp only [ShownTrees.shown, pruned, written_written, Expr.binary.injEq] at hs
  exact ⟨hs.1, agree_parts hs.2.1 hs.2.2 ho hi⟩

lemma Agree.callTwo {name name' : String} {pos pos' : ℕ}
    (h : Agree (.call name pos [l, r]) (.call name' pos' [l', r'])) :
    name = name' ∧ Agree l l' ∧ Agree r r' := by
  obtain ⟨hs, ho, hi⟩ := h
  simp only [ShownTrees.shown, shownAll, pruned, prunedAll, Expr.call.injEq, List.cons.injEq,
    and_true, true_and] at hs
  simp only [SharedTexts.order, orderOfAll, SharedTexts.infinities, infinitiesOfAll,
    List.append_nil] at ho hi
  exact ⟨hs.1, agree_parts hs.2.1 hs.2.2 ho hi⟩

lemma Agree.call {name name' : String} {pos pos' : ℕ}
    (h : Agree (.call name pos [l]) (.call name' pos' [l'])) : name = name' ∧ Agree l l' := by
  obtain ⟨hs, ho, hi⟩ := h
  simp only [ShownTrees.shown, shownAll, pruned, prunedAll, Expr.call.injEq, List.cons.injEq,
    and_true, true_and] at hs
  simp only [SharedTexts.order, orderOfAll, SharedTexts.infinities, infinitiesOfAll,
    List.append_nil] at ho hi
  exact ⟨hs.1, hs.2, ho, hi⟩

lemma Agree.minus (h : Agree (.signed .minus l) (.signed .minus l')) : Agree l l' :=
  ⟨(Expr.signed.inj h.shown).2, (List.cons.inj h.order).2, h.infinities⟩

lemma Agree.factorial (h : Agree (.factorial l) (.factorial l')) : Agree l l' := by
  refine ⟨bang_injective ?_, (List.cons.inj h.order).2, h.infinities⟩
  rw [← pruned_bang, ← pruned_bang]
  exact h.shown

/-- An exclamation mark is hidden below signs only, and then their order tells. -/
lemma not_agree_factorial (hx : isUnary (pruned (shown x)) = false ∨ ∃ e, x = .signed .minus e)
    (h : Agree x (.factorial l)) : False := by
  rcases hx with hx | ⟨e, rfl⟩
  · exact ne_bang hx _ h.shown
  · exact absurd h.order (by simp [SharedTexts.order])

end Parts

lemma Revealed.of_unsigned (h : ∀ ⦃y : Expr⦄, Sourced y → (∀ a, y ≠ .signed .plus a) →
    Agree x y → pruned x = pruned y) : Revealed x := by
  intro y hy hxy
  induction hy with
  | @signed e s he ih =>
    cases s with
    | plus => exact ih ⟨hxy.shown, hxy.order, hxy.infinities⟩
    | minus => exact h (.signed .minus he) (by simp) hxy
  | finite m => exact h (.finite m) (by simp) hxy
  | infinite => exact h .infinite (by simp) hxy
  | reference hn => exact h (.reference hn) (by simp) hxy
  | binary op hl hr => exact h (.binary op hl hr) (by simp) hxy
  | factorial he => exact h (.factorial he) (by simp) hxy
  | call hn ha => exact h (.call hn ha) (by simp) hxy
  | callTwo hn ha hb => exact h (.callTwo hn ha hb) (by simp) hxy

/-- A tree that is shown with no mark at its top is to be compared with trees of that kind only. -/
lemma Revealed.of_not_unary (hx : isUnary (pruned (shown x)) = false)
    (h : ∀ ⦃y : Expr⦄, Sourced y → isUnary y = false → Agree x y → pruned x = pruned y) :
    Revealed x := by
  refine .of_unsigned fun y hy hplus hxy => ?_
  cases hy with
  | @signed e s =>
    cases s with
    | plus => exact absurd rfl (hplus e)
    | minus =>
      rw [hxy.shown] at hx
      cases hx
  | factorial => exact (not_agree_factorial (.inl hx) hxy).elim
  | finite m => exact h (.finite m) rfl hxy
  | infinite => exact h .infinite rfl hxy
  | reference hn => exact h (.reference hn) rfl hxy
  | binary op hl hr => exact h (.binary op hl hr) rfl hxy
  | call hn ha => exact h (.call hn ha) rfl hxy
  | callTwo hn ha hb => exact h (.callTwo hn ha hb) rfl hxy

lemma revealed_finite (m : Magnitude) : Revealed (.number (.finite false m)) := by
  refine .of_not_unary rfl fun y hy hunary h => ?_
  have hs := h.shown
  cases hy with
  | finite => exact hs
  | signed | factorial => cases hunary
  | _ => simp [shown, pruned] at hs

/-- An infinite number is shown as a name is, but is told among the infinite numbers. -/
lemma revealed_infinite : Revealed (.number (.inf false)) := by
  refine .of_not_unary rfl fun y hy hunary h => ?_
  have hs := h.shown
  cases hy with
  | infinite => rfl
  | reference => exact absurd h.infinities (by simp [infinities])
  | signed | factorial => cases hunary
  | _ => simp [shown, pruned] at hs

lemma revealed_reference (name : String) (pos : ℕ) : Revealed (.reference name pos) := by
  refine .of_not_unary rfl fun y hy hunary h => ?_
  have hs := h.shown
  cases hy with
  | reference => exact hs
  | infinite => exact absurd h.infinities (by simp [infinities])
  | signed | factorial => cases hunary
  | _ => simp [shown, pruned] at hs

lemma Revealed.plus (hx : Revealed x) : Revealed (.signed .plus x) :=
  fun _ hy h => hx hy ⟨h.shown, h.order, h.infinities⟩

lemma Revealed.minus (hx : Revealed x) : Revealed (.signed .minus x) := by
  refine .of_unsigned fun y hy hplus h => ?_
  have hs := h.shown
  cases hy with
  | @signed e s he =>
    cases s with
    | plus => exact absurd rfl (hplus e)
    | minus => rw [pruned, pruned, hx he h.minus]
  | factorial => exact (not_agree_factorial (.inr ⟨x, rfl⟩) h).elim
  | infinite => simp [shown, pruned] at hs
  | _ => simp [shown, pruned] at hs

lemma Revealed.factorial (hx : Revealed x) : Revealed (.factorial x) := by
  refine .of_unsigned fun y hy hplus h => ?_
  have hs := h.shown
  cases hy with
  | factorial he => rw [pruned, pruned, hx he h.factorial]
  | @signed e s =>
    cases s with
    | plus => exact absurd rfl (hplus e)
    | minus => exact absurd h.order (by simp [order])
  | _ => exact absurd hs.symm (ne_bang rfl _)

lemma Revealed.binary {l r : Expr} (op : Operator) (hl : Revealed l) (hr : Revealed r) :
    Revealed (.binary op l r) := by
  refine .of_not_unary rfl fun y hy hunary h => ?_
  have hs := h.shown
  cases hy with
  | @binary l' r' op' hl' hr' =>
    obtain ⟨hop, hleft, hright⟩ := h.binary
    rw [pruned, pruned, hop, hl hl' hleft, hr hr' hright]
  | signed | factorial => cases hunary
  | _ => simp [shown, pruned] at hs

lemma Revealed.call {a : Expr} (name : String) (pos : ℕ) (ha : Revealed a) :
    Revealed (.call name pos [a]) := by
  refine .of_not_unary rfl fun y hy hunary h => ?_
  have hs := h.shown
  cases hy with
  | @call name' _ b _ hb =>
    obtain ⟨hname, harg⟩ := h.call
    simp only [pruned, prunedAll, hname, ha hb harg]
  | signed | factorial => cases hunary
  | _ => simp [shown, shownAll, pruned, prunedAll] at hs

lemma Revealed.callTwo {a a' : Expr} (name : String) (pos : ℕ) (ha : Revealed a)
    (ha' : Revealed a') : Revealed (.call name pos [a, a']) := by
  refine .of_not_unary rfl fun y hy hunary h => ?_
  have hs := h.shown
  cases hy with
  | @callTwo name' _ b b' _ hb hb' =>
    obtain ⟨hname, harg, harg'⟩ := h.callTwo
    simp only [pruned, prunedAll, hname, ha hb harg, ha' hb' harg']
  | signed | factorial => cases hunary
  | _ => simp [shown, shownAll, pruned, prunedAll] at hs

lemma revealed (h : Sourced x) : Revealed x := by
  induction h with
  | finite m => exact revealed_finite m
  | infinite => exact revealed_infinite
  | @reference name pos _ => exact revealed_reference name pos
  | binary op _ _ ihl ihr => exact ihl.binary op ihr
  | @signed e s _ ih =>
    cases s with
    | plus => exact ih.plus
    | minus => exact ih.minus
  | factorial _ ih => exact ih.factorial
  | @call name pos _ _ _ ih => exact ih.call name pos
  | @callTwo name pos _ _ _ _ _ iha ihb => exact iha.callTwo name pos ihb

/-! ### Infinite numbers as names -/

mutual

lemma order_named (e : Expr) : order (named e) = order e := by
  match e with
  | .number v =>
    rw [named]
    split <;> rfl
  | .reference _ _ => rfl
  | .binary op l r => simp only [named, order, order_named l, order_named r]
  | .signed .plus e => exact order_named e
  | .signed .minus e => simp only [named, order, order_named e]
  | .factorial e => simp only [named, order, order_named e]
  | .call _ _ args => simp only [named, order, orderOfAll_namedAll args]

lemma orderOfAll_namedAll (es : List Expr) : orderOfAll (namedAll es) = orderOfAll es := by
  match es with
  | [] => rfl
  | e :: rest => simp only [namedAll, orderOfAll, order_named e, orderOfAll_namedAll rest]

end

mutual

lemma infinities_named (e : Expr) :
    infinities (named e) = List.replicate (infinities e).length false := by
  match e with
  | .number v =>
    rw [named]
    split
    · rfl
    · rename_i hv
      simp [infinities, hv]
  | .reference _ _ => rfl
  | .binary op l r =>
    simp only [named, infinities, infinities_named l, infinities_named r, List.length_append,
      List.replicate_append_replicate]
  | .signed _ e => exact infinities_named e
  | .factorial e => exact infinities_named e
  | .call _ _ args => exact infinitiesOfAll_namedAll args

lemma infinitiesOfAll_namedAll (es : List Expr) :
    infinitiesOfAll (namedAll es) = List.replicate (infinitiesOfAll es).length false := by
  match es with
  | [] => rfl
  | e :: rest =>
    simp only [namedAll, infinitiesOfAll, infinities_named e, infinitiesOfAll_namedAll rest,
      List.length_append, List.replicate_append_replicate]

end

/-! ### Outcomes -/

lemma outcome_eq_of_infinities {s : Scope} (h : Sourced e) (h' : Sourced e')
    (hs : shown e = shown e') (ho : order e = order e') (hi : infinities e = infinities e') :
    s.outcome e = s.outcome e' := by
  rw [← outcome_pruned, revealed h h' ⟨congrArg pruned hs, ho, hi⟩, outcome_pruned]

lemma outcome_eq_of_supplied {s : Scope} (h : Sourced e) (h' : Sourced e')
    (hs : shown e = shown e') (ho : order e = order e')
    (hinf : s.number? "inf" = some (.inf false)) : s.outcome e = s.outcome e' := by
  have hlen : (infinities e).length = (infinities e').length := by
    rw [← length_infinities e, ← length_infinities e', hs]
  rw [← outcome_named hinf e, ← outcome_named hinf e']
  refine outcome_eq_of_infinities (sourced_named h).1 (sourced_named h').1 ?_ ?_ ?_
  · rw [shown_named, shown_named, hs]
  · rw [order_named, order_named, ho]
  · rw [infinities_named, infinities_named, hlen]

/-- **Sources whose trees have one text have one outcome**, as long as the trees have their minus
signs and exclamation marks in one order, and infinite numbers in the same places or a name `inf`
for infinity. A text tells all but that: trees have one text if, and only if, they are the same
when signs are put before exclamation marks, names for infinite numbers, and stars between
neighbours. -/
theorem calculate_eq_of_text_eq {implied : Bool} {source source' : String}
    (h : Expr.parse implied source = .ok e) (h' : Expr.parse implied source' = .ok e') :
    (e.text = e'.text ↔ shown e = shown e') ∧
    ∀ (lib : Library) (vars : Snapshot), e.text = e'.text → order e = order e' →
      (infinities e = infinities e' ∨
        (Report.scope lib implied vars).number? "inf" = some (.inf false)) →
      lib.calculate implied source vars = lib.calculate implied source' vars := by
  have he := sourced_of_parse h
  have he' := sourced_of_parse h'
  refine ⟨text_eq_iff he he', fun lib vars htext ho hinf => ?_⟩
  have hs := (text_eq_iff he he').mp htext
  rw [Report.calculate_of_parse lib vars h, Report.calculate_of_parse lib vars h']
  rcases hinf with hi | hsupplied
  · exact outcome_eq_of_infinities he he' hs ho hi
  · exact outcome_eq_of_supplied he he' hs ho hsupplied

/-- A plus sign may stand on either side of an exclamation mark. -/
theorem calculate_eq_of_text_eq_plus :
    ∃ e e', Expr.parse true "1e999(+3)!" = .ok e ∧ Expr.parse true "1e400*+3!" = .ok e' ∧
      e.text = e'.text ∧ order e = order e' ∧ infinities e = infinities e' ∧
      ∀ (lib : Library) (vars : Snapshot),
        lib.calculate true "1e999(+3)!" vars = lib.calculate true "1e400*+3!" vars := by
  obtain ⟨e, he⟩ := exists_of_isOk (x := Expr.parse true "1e999(+3)!") (by decide +kernel)
  obtain ⟨e', he'⟩ := exists_of_isOk (x := Expr.parse true "1e400*+3!") (by decide +kernel)
  have hall : ((Expr.parse true "1e999(+3)!").toOption.all fun e =>
      (Expr.parse true "1e400*+3!").toOption.all fun e' => e.text == e'.text &&
        order e == order e' && infinities e == infinities e') = true := by
    decide +kernel
  simp only [he, he', Except.toOption, Option.all_some, Bool.and_eq_true, beq_iff_eq] at hall
  obtain ⟨⟨htext, ho⟩, hi⟩ := hall
  exact ⟨e, e', he, he', htext, ho, hi, fun lib vars =>
    (calculate_eq_of_text_eq he he').2 lib vars htext ho (.inl hi)⟩

/-- A minus sign below an exclamation mark has the text of one above it. -/
theorem not_forall_calculate_eq_of_text :
    ¬ ∀ (lib : Library) (vars : Snapshot) (implied : Bool) (source source' : String) (e e' : Expr),
      Expr.parse implied source = .ok e → Expr.parse implied source' = .ok e' →
      e.text = e'.text →
      lib.calculate implied source vars = lib.calculate implied source' vars := by
  intro h
  obtain ⟨e, he⟩ := exists_of_isOk (x := Expr.parse false "(-3)!") (by decide +kernel)
  obtain ⟨e', he'⟩ := exists_of_isOk (x := Expr.parse false "-3!") (by decide +kernel)
  have hall : ((Expr.parse false "(-3)!").toOption.all fun e =>
      (Expr.parse false "-3!").toOption.all fun e' => e.text == e'.text) = true := by
    decide +kernel
  simp only [he, he', Except.toOption, Option.all_some, beq_iff_eq] at hall
  have hsame := h ⟨.standard, .empty⟩ ⟨[]⟩ false _ _ e e' he he' hall
  exact absurd hsame (by decide +kernel)

end Abacus.Proofs.SharedTexts
