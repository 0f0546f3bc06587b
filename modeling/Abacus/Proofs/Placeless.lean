import Mathlib.Tactic.Common
import Abacus.Display
import Abacus.Stack
import Abacus.Proofs.PlainWalk
import Abacus.Proofs.Reading

/-!
Places in a source are data that nothing is decided by. Tokens that are spelled alike are read
alike wherever they stand: as the same tree but for the places of its names, or with the same
message. A tree without its places has the outcome that it has with them.
-/

namespace Abacus

/-! ### Without places -/

/-- The token at the place zero: what it is and how it is spelled. -/
def Token.bare (t : Token) : Token := { t with pos := 0 }

mutual

/-- The tree without the places of its names. -/
def Expr.bare : Expr → Expr
  | .number v => .number v
  | .reference name _ => .reference name 0
  | .binary op l r => .binary op l.bare r.bare
  | .signed s e => .signed s e.bare
  | .factorial e => .factorial e.bare
  | .call name _ args => .call name 0 (Expr.bareAll args)

def Expr.bareAll : List Expr → List Expr
  | [] => []
  | e :: rest => e.bare :: Expr.bareAll rest

end

def Failure.Cause.bare : Failure.Cause → Failure.Cause
  | .scan fault => .scan fault
  | .empty => .empty
  | .tooDeep => .tooDeep
  | .missingOperator t => .missingOperator t.bare
  | .expectedClosing t => .expectedClosing (t.map Token.bare)
  | .unexpected t => .unexpected (t.map Token.bare)
  | .leftOver t => .leftOver t.bare
  | .noArguments name => .noArguments name
  | .tooManyArguments name => .tooManyArguments name

def Failure.bare (f : Failure) : Failure := ⟨f.cause.bare, 0⟩

/-- No message names a place. -/
lemma Failure.message_bare (f : Failure) : f.bare.message = f.message := by
  obtain ⟨cause, pos⟩ := f
  cases cause with
  | expectedClosing t | unexpected t => cases t <;> rfl
  | _ => rfl

namespace Grammar

lemma Reading.rest_lt {ts : List Token} (p : Reading ts) :
    (p.rest.map Token.bare).length < (ts.map Token.bare).length := by
  simpa using p.shorter

def Reading.bare {ts : List Token} (p : Reading ts) : Reading (ts.map Token.bare) :=
  ⟨p.tree.bare, p.rest.map Token.bare, p.rest_lt⟩

def Result.bare {ts : List Token} : Result ts → Result (ts.map Token.bare)
  | .error f => .error f.bare
  | .ok p => .ok p.bare

/-- The grammar of sources whose tokens have no places. -/
def bare (g : Grammar) : Grammar := ⟨g.implied, 0⟩

variable (g : Grammar)

/-! ### Reading without places -/

lemma placeOf_bare (ts : List Token) : g.bare.placeOf (ts.map Token.bare) = 0 := by
  cases ts <;> rfl

lemma head?_any_bare (ts : List Token) (k : Token.Kind) :
    (ts.map Token.bare).head?.any (·.kind = k) = ts.head?.any (·.kind = k) := by
  cases ts <;> rfl

lemma closing_bare {ts : List Token} (p : Reading ts) :
    g.bare.closing p.bare = (g.closing p).bare := by
  obtain ⟨e, rest, h⟩ := p
  cases rest with
  | nil => rfl
  | cons t rest =>
    by_cases ht : t.kind = .rparen
    · simp [closing, Reading.bare, Result.bare, Token.bare, ht]
    · simp [closing, Reading.bare, Result.bare, Token.bare, Failure.bare, Failure.Cause.bare, ht]

lemma bangs_bare (ts : List Token) (e : Expr) (rest : List Token) (h : rest.length < ts.length) :
    ∀ h', bangs (ts.map Token.bare) e.bare (rest.map Token.bare) h' = (bangs ts e rest h).bare := by
  induction rest generalizing e with
  | nil => exact fun _ => rfl
  | cons t rest ih =>
    intro h'
    by_cases ht : t.kind = .bang
    · have ht' : t.bare.kind = .bang := ht
      simp only [List.map_cons, bangs, ht, ht', if_true]
      exact ih (.factorial e) _ _
    · have ht' : ¬ t.bare.kind = .bang := ht
      simp only [List.map_cons, bangs, ht, ht', if_false]
      rfl

lemma enter_bare (n : ℕ) (t : Token) :
    enter n t.bare = (match enter n t with | .error f => .error f.bare | .ok m => .ok m) := by
  by_cases hn : n < maxDepth <;> simp [enter, hn, Failure.bare, Failure.Cause.bare, Token.bare]

lemma clear_bare {p : Token.Kind → Bool} {ts : List Token} (h : Clear p ts) :
    Clear p (ts.map Token.bare) := by
  cases ts with
  | nil => exact clear_nil p
  | cons t ts =>
    have ht : p t.kind = false := clear_cons.mp h
    exact clear_cons.mpr ht

mutual

lemma sum_bare (n : ℕ) (ts : List Token) :
    g.bare.sum n (ts.map Token.bare) = (g.sum n ts).bare := by
  rw [sum, sum, product_bare n ts]
  cases g.product n ts with
  | error f => rfl
  | ok p => exact sumFrom_bare n ts p
termination_by 10 * ts.length + 8
decreasing_by
  · omega
  · have := p.shorter; omega

lemma sumFrom_bare (n : ℕ) (ts : List Token) (p : Reading ts) :
    g.bare.sumFrom n (ts.map Token.bare) p.bare = (g.sumFrom n ts p).bare := by
  match p with
  | ⟨left, [], h⟩ =>
    simp only [Reading.bare, List.map_nil, sumFrom]
    rfl
  | ⟨left, t :: after, h⟩ =>
    have hk : t.bare.kind = t.kind := rfl
    simp only [Reading.bare, List.map_cons, sumFrom, hk]
    cases sumOperator? t.kind with
    | none => rfl
    | some op =>
      simp only [product_bare n after]
      cases g.product n after with
      | error f => rfl
      | ok q => exact sumFrom_bare n ts ⟨.binary op left q.tree, q.rest, _⟩
termination_by 10 * p.rest.length + 9
decreasing_by
  · simp; omega
  · have := q.shorter; simp; omega

lemma product_bare (n : ℕ) (ts : List Token) :
    g.bare.product n (ts.map Token.bare) = (g.product n ts).bare := by
  rw [product, product, signed_bare n ts]
  cases g.signed n ts with
  | error f => rfl
  | ok p => exact productFrom_bare n ts p
termination_by 10 * ts.length + 6
decreasing_by
  · omega
  · have := p.shorter; omega

lemma productFrom_bare (n : ℕ) (ts : List Token) (p : Reading ts) :
    g.bare.productFrom n (ts.map Token.bare) p.bare = (g.productFrom n ts p).bare := by
  match p with
  | ⟨left, [], h⟩ =>
    simp only [Reading.bare, List.map_nil, productFrom]
    rfl
  | ⟨left, t :: after, h⟩ =>
    have hk : t.bare.kind = t.kind := rfl
    have hi : g.bare.implied = g.implied := rfl
    simp only [Reading.bare, List.map_cons, productFrom, hk, hi]
    cases productOperator? t.kind with
    | some op =>
      simp only [signed_bare n after]
      cases g.signed n after with
      | error f => rfl
      | ok q => exact productFrom_bare n ts ⟨.binary op left q.tree, q.rest, _⟩
    | none =>
      cases startsOperand t.kind with
      | false => rfl
      | true =>
        cases g.implied with
        | false => rfl
        | true =>
          have hpower : g.bare.power n (t.bare :: after.map Token.bare)
              = (g.power n (t :: after)).bare := power_bare n (t :: after)
          simp only [if_true, hpower]
          cases g.power n (t :: after) with
          | error f => rfl
          | ok q => exact productFrom_bare n ts ⟨.binary .implied left q.tree, q.rest, _⟩
termination_by 10 * p.rest.length + 7
decreasing_by
  · simp
  · have := q.shorter; simp at this ⊢; omega
  · simp; omega
  · have := q.shorter; simp; omega

lemma signed_bare (n : ℕ) (ts : List Token) :
    g.bare.signed n (ts.map Token.bare) = (g.signed n ts).bare := by
  match ts with
  | [] =>
    rw [signed]
    change g.bare.signed n [] = _
    rw [signed]
    exact power_bare n []
  | t :: after =>
    have hk : t.bare.kind = t.kind := rfl
    change g.bare.signed n (t.bare :: after.map Token.bare) = _
    rw [signed, signed, hk]
    cases sign? t.kind with
    | none => exact power_bare n (t :: after)
    | some s =>
      simp only [enter_bare]
      cases enter n t with
      | error f => rfl
      | ok inner =>
        simp only [signed_bare inner after]
        cases g.signed inner after with
        | error f => rfl
        | ok q => rfl
termination_by 10 * ts.length + 5

lemma power_bare (n : ℕ) (ts : List Token) :
    g.bare.power n (ts.map Token.bare) = (g.power n ts).bare := by
  rw [power, power, factorial_bare n ts]
  cases hf : g.factorial n ts with
  | error f => rfl
  | ok p =>
    match p with
    | ⟨base, [], h⟩ => rfl
    | ⟨base, t :: after, h⟩ =>
      by_cases ht : t.kind = .caret
      · have ht' : t.bare.kind = .caret := ht
        simp only [Result.bare, Reading.bare, List.map_cons, ht, ht', if_true, enter_bare]
        cases enter n t with
        | error f => rfl
        | ok inner =>
          simp only [signed_bare inner after]
          cases g.signed inner after with
          | error f => rfl
          | ok q => rfl
      · have ht' : ¬ t.bare.kind = .caret := ht
        simp only [Result.bare, Reading.bare, List.map_cons, ht, ht', if_false]
termination_by 10 * ts.length + 4
decreasing_by
  · omega
  · simp at h; omega

lemma factorial_bare (n : ℕ) (ts : List Token) :
    g.bare.factorial n (ts.map Token.bare) = (g.factorial n ts).bare := by
  rw [factorial, factorial, operand_bare n ts]
  cases g.operand n ts with
  | error f => rfl
  | ok p => exact congrArg Except.ok (bangs_bare ts p.tree p.rest p.shorter _)
termination_by 10 * ts.length + 3

lemma operand_bare (n : ℕ) (ts : List Token) :
    g.bare.operand n (ts.map Token.bare) = (g.operand n ts).bare := by
  match ts with
  | [] =>
    rw [operand]
    change g.bare.operand n [] = _
    rw [operand]
    rfl
  | t :: after =>
    have hk : t.bare.kind = t.kind := rfl
    by_cases hf : t.kind = .ident
    · change g.bare.operand n (t.bare :: after.map Token.bare) = _
      -- a name: what follows it decides between a reference and a call
      by_cases hclear : Clear isOpening after
      · obtain ⟨h, hread⟩ := reads_name (g := g) (n := n) hf hclear
        obtain ⟨h', hread'⟩ := reads_name (g := g.bare) (n := n) (hk.trans hf) (clear_bare hclear)
        rw [hread, hread']
        rfl
      · match after with
        | [] => exact absurd (clear_nil _) hclear
        | o :: inside =>
          have ho : o.kind = .lparen := by simpa [isOpening] using hclear
          have ho' : o.bare.kind = .lparen := ho
          have hbare := call_bare n t o inside
          cases hcall : g.call n t o inside with
          | error f =>
            rw [hcall] at hbare
            rw [operand_error_of_call hf ho hcall]
            exact operand_error_of_call (hk.trans hf) ho' hbare
          | ok p =>
            rw [hcall] at hbare
            obtain ⟨h, hread⟩ := operand_of_call hf ho ⟨p.shorter, hcall⟩
            obtain ⟨h', hread'⟩ := operand_of_call (hk.trans hf) ho' ⟨p.bare.shorter, hbare⟩
            rw [hread]
            exact hread'
    · change g.bare.operand n (t.bare :: after.map Token.bare) = _
      -- any other kind of token is enough to tell which branch is taken
      rw [operand.eq_def, operand.eq_def]
      simp only [hk]
      split
      · simp only [enter_bare]
        cases enter n t with
        | error f => rfl
        | ok inner =>
          simp only [sum_bare inner after]
          cases g.sum inner after with
          | error f => rfl
          | ok p =>
            have hrest : p.rest.length < (t :: after).length := by
              have := p.shorter
              simp only [List.length_cons]
              omega
            exact closing_bare g ⟨p.tree, p.rest, hrest⟩
      · rfl
      · contradiction
      · rfl
termination_by 10 * ts.length + 2

lemma call_bare (n : ℕ) (name opening : Token) (ts : List Token) :
    g.bare.call n name.bare opening.bare (ts.map Token.bare) = (g.call n name opening ts).bare := by
  rw [call, call, head?_any_bare]
  split
  · simp only [placeOf_bare]
    rfl
  · simp only [enter_bare]
    cases enter n opening with
    | error f => rfl
    | ok inner =>
      simp only [sum_bare inner ts]
      cases g.sum inner ts with
      | error f => rfl
      | ok p =>
        match p with
        | ⟨first, [], h⟩ => exact closing_bare g ⟨.call name.text name.pos [first], [], h⟩
        | ⟨first, t :: more, h⟩ =>
          by_cases ht : t.kind = .comma
          · have ht' : t.bare.kind = .comma := ht
            simp only [Result.bare, Reading.bare, List.map_cons, ht, ht', if_true,
              sum_bare inner more]
            cases g.sum inner more with
            | error f => rfl
            | ok q =>
              obtain ⟨second, rest, h'⟩ := q
              simp only [head?_any_bare]
              split
              · simp only [placeOf_bare]
                rfl
              · exact closing_bare g ⟨.call name.text name.pos [first, second], rest, _⟩
          · have ht' : ¬ t.bare.kind = .comma := ht
            simp only [Result.bare, Reading.bare, List.map_cons, ht, ht', if_false]
            exact closing_bare g ⟨.call name.text name.pos [first], t :: more, h⟩
termination_by 10 * ts.length + 9
decreasing_by
  · omega
  · simp at h; omega

end

/-- The whole of an expression is read without places as it is with them. -/
lemma expression_bare (ts : List Token) :
    g.bare.expression (ts.map Token.bare) =
      match g.expression ts with
      | .error f => .error f.bare
      | .ok e => .ok e.bare := by
  cases ts with
  | nil => rfl
  | cons t ts =>
    have hsum := g.sum_bare 0 (t :: ts)
    simp only [expression, List.isEmpty_map, hsum]
    cases g.sum 0 (t :: ts) with
    | error f => rfl
    | ok p =>
      obtain ⟨e, rest, hlt⟩ := p
      cases rest <;> rfl

end Grammar

/-- Both trees, equal but for places, or both failures, with one message. -/
def Alike : Except Failure Expr → Except Failure Expr → Prop
  | .ok e, .ok e' => e.bare = e'.bare
  | .error f, .error f' => f.message = f'.message
  | _, _ => False

/-- **Tokens that are spelled alike are read alike**, wherever each of them stands and wherever
their sources end. -/
theorem Grammar.expression_alike {ts us : List Token} (implied : Bool) (stop stop' : ℕ)
    (h : ts.map Token.bare = us.map Token.bare) :
    Alike (expression ⟨implied, stop⟩ ts) (expression ⟨implied, stop'⟩ us) := by
  have hts := expression_bare ⟨implied, stop⟩ ts
  have hus := expression_bare ⟨implied, stop'⟩ us
  have hbare : (⟨implied, stop⟩ : Grammar).bare = (⟨implied, stop'⟩ : Grammar).bare := rfl
  -- without places both tokens and grammars are the same, and so are the results
  rw [hbare, h, hus] at hts
  cases he : expression ⟨implied, stop⟩ ts with
  | error f =>
    cases he' : expression ⟨implied, stop'⟩ us with
    | ok e' => simp [he, he'] at hts
    | error f' =>
      have hf : f'.bare = f.bare := by simpa [he, he'] using hts
      rw [Alike, ← f.message_bare, ← f'.message_bare, hf]
  | ok e =>
    cases he' : expression ⟨implied, stop'⟩ us with
    | error f' => simp [he, he'] at hts
    | ok e' =>
      have hb : e'.bare = e.bare := by simpa [he, he'] using hts
      exact hb.symm

/-! ### Evaluation without places -/

namespace Proofs.PlainWalk

variable (s : Scope)

mutual

lemma plain_bare (e : Expr) : plain s e.bare = plain s e := by
  match e with
  | .number v => rfl
  | .reference name _ => rfl
  | .binary op l r => simp only [Expr.bare, plain, plain_bare l, plain_bare r]
  | .signed sign e => simp only [Expr.bare, plain, plain_bare e]
  | .factorial e => simp only [Expr.bare, plain, plain_bare e]
  | .call name _ args => simp only [Expr.bare, plain, plainAll_bare args]

lemma plainAll_bare (es : List Expr) : plainAll s (Expr.bareAll es) = plainAll s es := by
  match es with
  | [] => rfl
  | e :: rest => simp only [Expr.bareAll, plainAll, plain_bare e, plainAll_bare rest]

end

end Proofs.PlainWalk

lemma Scope.outcome_bare (s : Scope) (e : Expr) : s.outcome e.bare = s.outcome e := by
  simp only [Scope.outcome, Proofs.PlainWalk.eval_eq, Proofs.PlainWalk.plain_bare]

namespace Expr

mutual

lemma bare_bare (e : Expr) : e.bare.bare = e.bare := by
  match e with
  | .number v => rfl
  | .reference name _ => rfl
  | .binary op l r => simp only [bare, bare_bare l, bare_bare r]
  | .signed s e => simp only [bare, bare_bare e]
  | .factorial e => simp only [bare, bare_bare e]
  | .call name _ args => simp only [bare, bareAll_bareAll args]

lemma bareAll_bareAll (es : List Expr) : bareAll (bareAll es) = bareAll es := by
  match es with
  | [] => rfl
  | e :: rest => simp only [bareAll, bare_bare e, bareAll_bareAll rest]

end

mutual

lemma framesIn_bare (s : Surrounding) (e : Expr) : e.bare.framesIn s = e.framesIn s := by
  match e with
  | .number v => rfl
  | .reference name _ => rfl
  | .binary op l r => simp only [bare, framesIn, framesIn_bare _ l, framesIn_bare _ r]
  | .signed sign e => simp only [bare, framesIn, framesIn_bare _ e]
  | .factorial e => simp only [bare, framesIn, framesIn_bare _ e]
  | .call name _ args => simp only [bare, framesIn, framesOfAll_bareAll args]

lemma framesOfAll_bareAll (es : List Expr) : framesOfAll (bareAll es) = framesOfAll es := by
  match es with
  | [] => rfl
  | e :: rest => simp only [bareAll, framesOfAll, framesIn_bare _ e, framesOfAll_bareAll rest]

end

end Expr

namespace Library

variable (lib : Library) (vars : Snapshot) {implied : Bool} {source source' : String}

/-- **Sources that are read alike have one answer**, and there is room for both evaluations or for
neither. -/
theorem answer_eq_of_alike
    (h : Alike (Expr.parse implied source) (Expr.parse implied source')) :
    lib.answer implied source vars = lib.answer implied source' vars ∧
      (lib.calculateOnStack implied source vars).map Outcome.display =
        (lib.calculateOnStack implied source' vars).map Outcome.display := by
  unfold answer calculate calculateOnStack Compiled.ofSource
  cases hs : Expr.parse implied source with
  | error f =>
    cases hs' : Expr.parse implied source' with
    | error f' => exact ⟨rfl, rfl⟩
    | ok e' => simp [hs, hs', Alike] at h
  | ok e =>
    cases hs' : Expr.parse implied source' with
    | error f' => simp [hs, hs', Alike] at h
    | ok e' =>
      have hb : e.bare = e'.bare := by simpa [hs, hs', Alike] using h
      have hout : ∀ s : Scope, s.outcome e = s.outcome e' := fun s => by
        rw [← s.outcome_bare e, ← s.outcome_bare e', hb]
      have hroom : e.frames = e'.frames := by
        rw [Expr.frames, Expr.frames, ← Expr.framesIn_bare, ← Expr.framesIn_bare _ e', hb]
      simp only [Except.map, Compiled.outcome, Compiled.outcomeOnStack, hout, hroom]
      exact ⟨trivial, trivial⟩

end Library

end Abacus
