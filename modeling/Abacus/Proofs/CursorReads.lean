import Mathlib.Data.List.Infix
import Mathlib.Tactic.Common
import Abacus.Proofs.NumberTexts
import Abacus.Raising.Cursor

/-!
The cursor reads what the grammar reads. Where the grammar has a rest of the tokens left, the cursor
stands at the place where that rest begins, and it has gone down as many levels as it has come up.
So it never looks past the mark of the end and never takes a token of another kind than it has seen.
Room for ten rules at each token is enough for it to come to an end.
-/

namespace Abacus.Cursor

open Grammar (Result Reading)

/-! ### Steps -/

variable {α β : Type}

section

variable {x : Moving α} {c c' : Cursor} {a : α} {s : Stop}

/-- `x` comes to an end with `a`, and the cursor moves from `c` to `c'`. -/
def Runs (x : Moving α) (c : Cursor) (a : α) (c' : Cursor) : Prop := x.run c = pure (a, c')

def Stops (x : Moving α) (c : Cursor) (s : Stop) : Prop := x.run c = throw s

lemma Runs.bind (h : Runs x c a c') (f : α → Moving β) : (x >>= f).run c = (f a).run c' := by
  rw [StateT.run_bind, h]
  rfl

lemma Stops.bind (h : Stops x c s) (f : α → Moving β) : Stops (x >>= f) c s := by
  rw [Stops, StateT.run_bind, h]
  rfl

end

/-- The cursor where the rest `ts` of all the tokens begins. -/
def spot (all ts : List Token) (n : ℕ) : Cursor := ⟨all.length - ts.length, n⟩

variable {g : Grammar} {all ts us : List Token} {t : Token} {n : ℕ}

lemma getElem?_tapeOf (h : ts <:+ all) :
    (tapeOf all)[all.length - ts.length]? = some ts.head? := by
  obtain ⟨pre, rfl⟩ := h
  have hlen : (pre ++ ts).length - ts.length = (pre.map some).length := by simp
  rw [hlen, tapeOf, List.map_append, List.append_assoc, List.getElem?_append_right le_rfl,
    Nat.sub_self]
  cases ts <;> rfl

lemma current_runs (h : ts <:+ all) (n : ℕ) :
    Runs (current (tapeOf all)) (spot all ts n) ts.head? (spot all ts n) := by
  simp [Runs, current, spot, getElem?_tapeOf h]

lemma spot_succ (h : t :: ts <:+ all) (n : ℕ) :
    spot all ts n = ⟨all.length - (t :: ts).length + 1, n⟩ := by
  have hle := h.length_le
  rw [List.length_cons] at hle
  rw [spot, List.length_cons]
  congr 1
  omega

lemma advance_runs (h : t :: ts <:+ all) (n : ℕ) :
    Runs (advance (tapeOf all)) (spot all (t :: ts) n) () (spot all ts n) := by
  have hle := h.length_le
  have hroom : (spot all (t :: ts) n).place + 1 < (tapeOf all).length := by
    simp only [List.length_cons, spot, tapeOf, List.length_append, List.length_map,
      List.length_nil] at hle ⊢
    omega
  rw [Runs, advance, (current_runs h n).bind, spot_succ h]
  simp only [StateT.run_modify, if_pos hroom]
  rfl

lemma following_runs (h : t :: ts <:+ all) (n : ℕ) :
    Runs (following (tapeOf all)) (spot all (t :: ts) n) ts.head? (spot all (t :: ts) n) := by
  have hnext := getElem?_tapeOf ((List.suffix_cons t ts).trans h)
  have hplace : (spot all (t :: ts) n).place + 1 = all.length - ts.length :=
    (congrArg Cursor.place (spot_succ h n)).symm
  rw [← hplace] at hnext
  simp [Runs, following, hnext]

lemma take_runs {k : Token.Kind} (h : t :: ts <:+ all) (hk : t.kind = k) (n : ℕ) :
    Runs (take (tapeOf all) k) (spot all (t :: ts) n) t (spot all ts n) := by
  rw [Runs, take, (current_runs h n).bind]
  simp only [List.head?_cons, if_pos hk]
  rw [(advance_runs h n).bind]
  rfl

lemma enter_runs (hn : n < maxDepth) :
    Runs (enter g t) (spot all ts n) () (spot all ts (n + 1)) := by
  have hroom : ¬ maxDepth < n + 1 := by omega
  simp [Runs, enter, spot, hroom]

lemma enter_stops (hn : ¬ n < maxDepth) :
    Stops (enter g t) (spot all ts n) (.failure ⟨.tooDeep, t.pos⟩) := by
  have hroom : maxDepth < n + 1 := by omega
  simp [Stops, enter, spot, hroom, fail, Grammar.placeOf]

lemma leave_runs : Runs leave (spot all ts (n + 1)) () (spot all ts n) := rfl

lemma placeOf_head? (ts : List Token) : g.placeOf ts.head?.toList = g.placeOf ts := by
  cases ts <;> rfl

lemma fail_stops (cause : Failure.Cause) (ts : List Token) (c : Cursor) :
    Stops (fail (α := α) g cause ts.head?) c (.failure ⟨cause, g.placeOf ts⟩) := by
  rw [← placeOf_head? ts]
  rfl

/-! ### Readings -/

/-- What `x` comes to from `c` is the result `r`: a failure, or a rest of `us` at level `n`. -/
def Agrees (all : List Token) (x : Moving Expr) (c : Cursor) (n : ℕ) (us : List Token)
    (r : Result ts) : Prop :=
  match r with
  | .error f => Stops x c (.failure f)
  | .ok q => q.rest <:+ us ∧ Runs x c q.tree (spot all q.rest n)

variable {c c' : Cursor} {r : Result ts} {mid : List Token}

lemma Agrees.bind {x : Moving α} {a : α} {f : α → Moving Expr} (h : Runs x c a c')
    (hf : Agrees all (f a) c' n us r) : Agrees all (x >>= f) c n us r := by
  cases r with
  | error e =>
    rw [Agrees, Stops, h.bind]
    exact hf
  | ok q =>
    refine ⟨hf.1, ?_⟩
    rw [Runs, h.bind]
    exact hf.2

lemma Agrees.bind_congr {x y : Moving α} {f : α → Moving Expr} (h : x.run c = y.run c')
    (hf : Agrees all (y >>= f) c' n us r) : Agrees all (x >>= f) c n us r := by
  have hrun : (x >>= f).run c = (y >>= f).run c' := by rw [StateT.run_bind, StateT.run_bind, h]
  cases r with
  | error e =>
    rw [Agrees, Stops, hrun]
    exact hf
  | ok q =>
    refine ⟨hf.1, ?_⟩
    rw [Runs, hrun]
    exact hf.2

lemma Agrees.mono {x : Moving Expr} (hs : mid <:+ us) (h : Agrees all x c n mid r) :
    Agrees all x c n us r := by
  cases r with
  | error e => exact h
  | ok q => exact ⟨h.1.trans hs, h.2⟩

/-- What is read first decides what is read next. -/
lemma Agrees.andThen {vs : List Token} {x : Moving Expr} {f : Expr → Moving Expr} {m : ℕ}
    {r₁ : Result vs} {next : Reading vs → Result ts} (h : Agrees all x c m mid r₁) (hs : mid <:+ us)
    (hf : ∀ q : Reading vs, q.rest <:+ mid →
      Agrees all (f q.tree) (spot all q.rest m) n q.rest (next q)) :
    Agrees all (x >>= f) c n us
      (match r₁ with
        | .error e => .error e
        | .ok q => next q) := by
  cases r₁ with
  | error e => exact Stops.bind h f
  | ok q => exact Agrees.mono (h.1.trans hs) (Agrees.bind h.2 (hf q h.1))

/-- With room for `k` rules the cursor reads as the grammar does, if the tokens are few enough. -/
structure AgreesAt (g : Grammar) (all : List Token) (k : ℕ) : Prop where
  sum : ∀ {n ts}, 10 * ts.length + 9 ≤ k → ts <:+ all →
    Agrees all (sum g (tapeOf all) k) (spot all ts n) n ts (g.sum n ts)
  sumFrom : ∀ {n ts left rest} (hlt : rest.length < ts.length), 10 * rest.length + 9 ≤ k →
    rest <:+ all → Agrees all (sumFrom g (tapeOf all) k left) (spot all rest n) n rest
      (g.sumFrom n ts ⟨left, rest, hlt⟩)
  product : ∀ {n ts}, 10 * ts.length + 8 ≤ k → ts <:+ all →
    Agrees all (product g (tapeOf all) k) (spot all ts n) n ts (g.product n ts)
  productFrom : ∀ {n ts left rest} (hlt : rest.length < ts.length), 10 * rest.length + 8 ≤ k →
    rest <:+ all → Agrees all (productFrom g (tapeOf all) k left) (spot all rest n) n rest
      (g.productFrom n ts ⟨left, rest, hlt⟩)
  signed : ∀ {n ts}, 10 * ts.length + 7 ≤ k → ts <:+ all →
    Agrees all (signed g (tapeOf all) k) (spot all ts n) n ts (g.signed n ts)
  power : ∀ {n ts}, 10 * ts.length + 6 ≤ k → ts <:+ all →
    Agrees all (power g (tapeOf all) k) (spot all ts n) n ts (g.power n ts)
  factorial : ∀ {n ts}, 10 * ts.length + 5 ≤ k → ts <:+ all →
    Agrees all (factorial g (tapeOf all) k) (spot all ts n) n ts (g.factorial n ts)
  operand : ∀ {n ts}, 10 * ts.length + 4 ≤ k → ts <:+ all →
    Agrees all (operand g (tapeOf all) k) (spot all ts n) n ts (g.operand n ts)
  call : ∀ {n t o ts}, 10 * (t :: o :: ts).length + 3 ≤ k → t :: o :: ts <:+ all →
    t.kind = .ident → o.kind = .lparen →
    Agrees all (call g (tapeOf all) k) (spot all (t :: o :: ts) n) n (t :: o :: ts)
      (g.call n t o ts)

variable {k : ℕ}

/-! ### Parts of an operand -/

lemma closing_runs (h : t :: ts <:+ all) (ht : t.kind = .rparen) :
    Runs (closing g (tapeOf all)) (spot all (t :: ts) n) () (spot all ts n) := by
  rw [Runs, closing, (current_runs h n).bind]
  simp only [List.head?_cons, if_pos ht]
  exact advance_runs h n

lemma closing_stops (h : ts <:+ all) (hno : ∀ t ∈ ts.head?, t.kind ≠ .rparen) :
    Stops (closing g (tapeOf all)) (spot all ts n)
      (.failure ⟨.expectedClosing ts.head?, g.placeOf ts⟩) := by
  rw [Stops, closing, (current_runs h n).bind]
  cases ts with
  | nil => rfl
  | cons t ts =>
    simp only [List.head?_cons, if_neg (hno t rfl)]
    rfl

lemma agrees_closing (p : Reading ts) (h : p.rest <:+ all) :
    Agrees all (do closing g (tapeOf all); return p.tree) (spot all p.rest n) n p.rest
      (g.closing p) := by
  obtain ⟨e, rest, hlt⟩ := p
  cases rest with
  | nil => exact (closing_stops h (by simp)).bind _
  | cons b rest =>
    rw [Grammar.closing]
    split
    · rename_i hb
      exact Agrees.bind (closing_runs h hb) ⟨List.suffix_cons b rest, rfl⟩
    · rename_i hb
      exact (closing_stops h (by simpa using hb)).bind _

lemma bangs_runs (e : Expr) {rest : List Token} (hlt : rest.length < ts.length)
    (hroom : rest.length < k) (h : rest <:+ all) :
    (Grammar.bangs ts e rest hlt).rest <:+ rest ∧
      Runs (bangs (tapeOf all) k e) (spot all rest n) (Grammar.bangs ts e rest hlt).tree
        (spot all (Grammar.bangs ts e rest hlt).rest n) := by
  induction rest generalizing e k with
  | nil =>
    obtain ⟨k, rfl⟩ := Nat.exists_eq_succ_of_ne_zero (Nat.ne_of_gt hroom)
    refine ⟨List.suffix_rfl, ?_⟩
    rw [Runs, bangs, (current_runs h n).bind]
    rfl
  | cons b rest ih =>
    obtain ⟨k, rfl⟩ := Nat.exists_eq_succ_of_ne_zero (Nat.ne_zero_of_lt hroom)
    rw [List.length_cons] at hlt hroom
    rw [Grammar.bangs]
    split
    · rename_i hb
      obtain ⟨hs, hrun⟩ := ih (.factorial e) (Nat.lt_of_succ_lt hlt) (Nat.lt_of_succ_lt_succ hroom)
        ((List.suffix_cons b rest).trans h)
      refine ⟨hs.trans (List.suffix_cons b rest), ?_⟩
      rw [Runs, bangs, (current_runs h n).bind]
      simp only [List.head?_cons, if_pos hb]
      rw [(advance_runs h n).bind]
      exact hrun
    · rename_i hb
      refine ⟨List.suffix_rfl, ?_⟩
      rw [Runs, bangs, (current_runs h n).bind]
      simp only [List.head?_cons, if_neg hb]
      rfl

lemma arguments_runs (name : Token) (args : List Expr) (h : ts <:+ all)
    (hc : ts.head?.any (·.kind = .comma) = false) :
    Runs (arguments g (tapeOf all) (k + 1) name args) (spot all ts n) args (spot all ts n) := by
  rw [Runs, arguments, (current_runs h n).bind, hc]
  rfl

lemma arguments_stops (name : Token) (e e' : Expr) (h : ts <:+ all)
    (hc : ts.head?.any (·.kind = .comma) = true) :
    Stops (arguments g (tapeOf all) (k + 1) name [e, e']) (spot all ts n)
      (.failure ⟨.tooManyArguments name.text, g.placeOf ts⟩) := by
  rw [Stops, arguments, (current_runs h n).bind, hc, ← placeOf_head? ts]
  rfl

/-- The second argument. -/
lemma arguments_comma (name : Token) (e : Expr) (h : t :: ts <:+ all) (hc : t.kind = .comma) :
    (arguments g (tapeOf all) (k + 1) name [e]).run (spot all (t :: ts) n) =
      (do let e' ← sum g (tapeOf all) k; arguments g (tapeOf all) k name [e, e']).run
        (spot all ts n) := by
  have hany : (t :: ts).head?.any (·.kind = .comma) = true := by simp [hc]
  rw [arguments, (current_runs h n).bind, hany]
  exact (advance_runs h n).bind _

/-- The end of a call after its arguments. -/
lemma agrees_close (name : Token) (args : List Expr) {rest : List Token}
    (hlt : rest.length < ts.length) (h : rest <:+ all) :
    Agrees all (do
        leave
        closing g (tapeOf all)
        return Expr.call name.text name.pos args)
      (spot all rest (n + 1)) n rest
      (g.closing ⟨.call name.text name.pos args, rest, hlt⟩) :=
  Agrees.bind leave_runs (agrees_closing ⟨.call name.text name.pos args, rest, hlt⟩ h)

/-- The rest of a call from the comma after its first argument. -/
lemma agrees_second {m : Token} {more : List Token} {e : Expr}
    (hk : AgreesAt g all (k + 1)) (hlt : (m :: more).length < ts.length)
    (hroom : 10 * more.length + 9 ≤ k + 1) (h : m :: more <:+ all) (hm : m.kind = .comma) :
    Agrees all (do
        let args ← arguments g (tapeOf all) (k + 2) t [e]
        leave
        closing g (tapeOf all)
        return Expr.call t.text t.pos args)
      (spot all (m :: more) (n + 1)) n (m :: more)
      (match g.sum (n + 1) more with
        | .error f => (.error f : Result ts)
        | .ok ⟨second, rest, h'⟩ =>
          if rest.head?.any (·.kind = .comma) then
            .error ⟨.tooManyArguments t.text, g.placeOf rest⟩
          else
            g.closing ⟨.call t.text t.pos [e, second], rest,
              h'.trans (Nat.lt_of_succ_lt hlt)⟩) := by
  have hmore : more <:+ all := (List.suffix_cons m more).trans h
  have hsum := hk.sum (n := n + 1) hroom hmore
  refine Agrees.bind_congr (arguments_comma t e h hm) ?_
  rw [bind_assoc]
  cases hq : g.sum (n + 1) more with
  | error f =>
    rw [hq] at hsum
    exact Stops.bind hsum _
  | ok q =>
    rw [hq] at hsum
    obtain ⟨second, rest, hlt'⟩ := q
    obtain ⟨hs, hrun⟩ := hsum
    have hrest : rest <:+ all := hs.trans hmore
    refine Agrees.mono (hs.trans (List.suffix_cons m more)) (Agrees.bind hrun ?_)
    dsimp only
    split
    · -- a third argument
      rename_i hcomma
      exact (arguments_stops t e second hrest hcomma).bind _
    · rename_i hcomma
      exact Agrees.bind (arguments_runs t [e, second] hrest (by simpa using hcomma))
        (agrees_close t [e, second] _ hrest)

lemma agrees_call {o : Token} (hk : ∀ j ≤ k, AgreesAt g all j)
    (hroom : 10 * (t :: o :: ts).length + 3 ≤ k + 1) (h : t :: o :: ts <:+ all)
    (ht : t.kind = .ident) (ho : o.kind = .lparen) :
    Agrees all (call g (tapeOf all) (k + 1)) (spot all (t :: o :: ts) n) n (t :: o :: ts)
      (g.call n t o ts) := by
  have ho' : o :: ts <:+ all := (List.suffix_cons t _).trans h
  have hts : ts <:+ all := (List.suffix_cons o _).trans ho'
  have hsuff : ts <:+ t :: o :: ts := (List.suffix_cons o _).trans (List.suffix_cons t _)
  simp only [List.length_cons] at hroom
  -- the arguments open a rule each, and there is room for the end of them
  obtain ⟨k, rfl⟩ : ∃ j, k = j + 2 := ⟨k - 2, by omega⟩
  rw [call]
  refine Agrees.bind (take_runs h ht n) (Agrees.bind (take_runs ho' ho n)
    (Agrees.bind (current_runs hts n) ?_))
  rw [Grammar.call]
  split
  · exact (fail_stops _ ts _).bind _
  · by_cases hn : n < maxDepth
    · have hsum := (hk _ le_rfl).sum (n := n + 1) (by omega) hts
      rw [Grammar.enter, if_pos hn]
      refine Agrees.bind (enter_runs hn) ?_
      dsimp only
      split
      · -- the first argument fails
        rename_i f hq
        rw [hq] at hsum
        exact Stops.bind hsum _
      · -- the tokens end after it
        rename_i first hlt hq
        rw [hq] at hsum
        obtain ⟨hs, hrun⟩ := hsum
        refine Agrees.mono (hs.trans hsuff) (Agrees.bind hrun ?_)
        exact Agrees.bind (arguments_runs t [first] (hs.trans hts) rfl)
          (agrees_close t [first] hlt (hs.trans hts))
      · -- a token follows it: a comma or what should be the parenthesis
        rename_i first m more hlt hq
        rw [hq] at hsum
        obtain ⟨hs, hrun⟩ := hsum
        have hm : m :: more <:+ all := hs.trans hts
        refine Agrees.mono (hs.trans hsuff) (Agrees.bind hrun ?_)
        split
        · rename_i hcomma
          rw [List.length_cons] at hlt
          exact agrees_second (hk _ (Nat.le_succ _)) hlt (by omega) hm hcomma
        · rename_i hcomma
          exact Agrees.bind (arguments_runs t [first] hm (by simp [hcomma]))
            (agrees_close t [first] hlt hm)
    · rw [Grammar.enter, if_neg hn]
      exact (enter_stops hn).bind _

/-! ### Rules -/

/-- The number tokens are converted to their numbers. -/
def Converts (ts : List Token) : Prop :=
  ∀ t ∈ ts, ∀ v, t.kind = .number v → convertNumber? t.text = some v

lemma agrees_operand (hc : Converts all) (hk : AgreesAt g all k)
    (hroom : 10 * ts.length + 4 ≤ k + 1) (h : ts <:+ all) :
    Agrees all (operand g (tapeOf all) (k + 1)) (spot all ts n) n ts (g.operand n ts) := by
  rw [operand]
  refine Agrees.bind (current_runs h n) ?_
  cases ts with
  | nil =>
    rw [Grammar.operand]
    exact fail_stops _ [] _
  | cons t after =>
    have hafter : after <:+ all := (List.suffix_cons t after).trans h
    rw [List.length_cons] at hroom
    rw [Grammar.operand.eq_def]
    simp only [List.head?_cons]
    cases ht : t.kind with
    | lparen =>
      by_cases hn : n < maxDepth
      · have hsum := hk.sum (n := n + 1) (by omega) hafter
        rw [Grammar.enter, if_pos hn]
        refine Agrees.bind (advance_runs h n) (Agrees.bind (enter_runs hn) ?_)
        refine hsum.andThen (List.suffix_cons t after) fun q hs => Agrees.bind leave_runs ?_
        exact agrees_closing ⟨q.tree, q.rest, _⟩ (hs.trans hafter)
      · rw [Grammar.enter, if_neg hn]
        refine Agrees.bind (advance_runs h n) ?_
        exact (enter_stops hn).bind _
    | number v =>
      have hconv : convert t = (return .number v : Moving Expr) := by
        rw [convert, hc t (h.mem (by simp)) v ht]
      refine Agrees.bind (advance_runs h n) ?_
      rw [hconv]
      exact ⟨List.suffix_cons t after, rfl⟩
    | ident =>
      refine Agrees.bind (following_runs h n) ?_
      cases after with
      | nil => exact Agrees.bind (advance_runs h n) ⟨List.suffix_cons t [], rfl⟩
      | cons o inside =>
        simp only [List.head?_cons, Option.any_some, decide_eq_true_eq]
        split
        · rename_i ho
          have hcall := hk.call (n := n) (by simp only [List.length_cons] at hroom ⊢; omega) h ht ho
          cases hq : g.call n t o inside with
          | error f =>
            rw [hq] at hcall
            exact hcall
          | ok q =>
            rw [hq] at hcall
            exact hcall
        · exact Agrees.bind (advance_runs h n) ⟨List.suffix_cons t _, rfl⟩
    | _ => exact fail_stops _ (t :: after) _

lemma agrees_factorial (hk : AgreesAt g all k) (hroom : 10 * ts.length + 5 ≤ k + 1)
    (h : ts <:+ all) :
    Agrees all (factorial g (tapeOf all) (k + 1)) (spot all ts n) n ts (g.factorial n ts) := by
  have hop := hk.operand (n := n) (Nat.le_of_succ_le_succ hroom) h
  rw [factorial, Grammar.factorial]
  refine hop.andThen List.suffix_rfl fun q hs => ?_
  exact bangs_runs q.tree q.shorter (by have := q.shorter; omega) (hs.trans h)

/-- What is a level deeper, read after the token that begins it. -/
lemma agrees_deeper {f : Expr → Expr} {next : Reading us → Reading ts} (hk : AgreesAt g all k)
    (hroom : 10 * us.length + 7 ≤ k) (h : t :: us <:+ all)
    (hnext : ∀ q, (next q).tree = f q.tree ∧ (next q).rest = q.rest) :
    Agrees all (do
        advance (tapeOf all)
        enter g t
        let e ← signed g (tapeOf all) k
        leave
        return f e)
      (spot all (t :: us) n) n (t :: us)
      (match Grammar.enter n t with
        | .error f => (.error f : Result ts)
        | .ok inner =>
          match g.signed inner us with
          | .error f => .error f
          | .ok q => .ok (next q)) := by
  have hus : us <:+ all := (List.suffix_cons t us).trans h
  refine Agrees.bind (advance_runs h n) ?_
  by_cases hn : n < maxDepth
  · have hsigned := hk.signed (n := n + 1) hroom hus
    rw [Grammar.enter, if_pos hn]
    refine Agrees.bind (enter_runs hn) ?_
    refine hsigned.andThen (List.suffix_cons t us) fun q _ => Agrees.bind leave_runs ?_
    obtain ⟨htree, hrest⟩ := hnext q
    rw [Agrees, htree, hrest]
    exact ⟨List.suffix_rfl, rfl⟩
  · rw [Grammar.enter, if_neg hn]
    exact (enter_stops hn).bind _

lemma agrees_power (hk : AgreesAt g all k) (hroom : 10 * ts.length + 6 ≤ k + 1) (h : ts <:+ all) :
    Agrees all (power g (tapeOf all) (k + 1)) (spot all ts n) n ts (g.power n ts) := by
  have hfac := hk.factorial (n := n) (Nat.le_of_succ_le_succ hroom) h
  rw [power, Grammar.power]
  split
  · rename_i f hq
    rw [hq] at hfac
    exact Stops.bind hfac _
  · rename_i base hlt hq
    rw [hq] at hfac
    obtain ⟨hs, hrun⟩ := hfac
    exact Agrees.bind hrun (Agrees.bind (current_runs (hs.trans h) n) ⟨hs, rfl⟩)
  · rename_i base t after hlt hq
    rw [hq] at hfac
    obtain ⟨hs, hrun⟩ := hfac
    refine Agrees.bind hrun (Agrees.bind (current_runs (hs.trans h) n) ?_)
    simp only [List.head?_cons]
    split
    · rw [List.length_cons] at hlt
      refine Agrees.mono hs (agrees_deeper hk (by omega) (hs.trans h) fun q => ?_)
      exact ⟨rfl, rfl⟩
    · exact ⟨hs, rfl⟩

lemma agrees_signed (hk : AgreesAt g all k) (hroom : 10 * ts.length + 7 ≤ k + 1)
    (h : ts <:+ all) :
    Agrees all (signed g (tapeOf all) (k + 1)) (spot all ts n) n ts (g.signed n ts) := by
  have hpow := hk.power (n := n) (Nat.le_of_succ_le_succ hroom) h
  rw [signed]
  refine Agrees.bind (current_runs h n) ?_
  cases ts with
  | nil =>
    rw [Grammar.signed]
    exact hpow
  | cons t after =>
    rw [List.length_cons] at hroom
    rw [Grammar.signed]
    simp only [List.head?_cons]
    cases hs : Grammar.sign? t.kind with
    | none => exact hpow
    | some s =>
      refine agrees_deeper hk (by omega) h fun q => ?_
      exact ⟨rfl, rfl⟩

/-! ### Chains -/

lemma agrees_productFrom {left : Expr} {rest : List Token} (hk : AgreesAt g all k)
    (hlt : rest.length < ts.length) (hroom : 10 * rest.length + 8 ≤ k + 1) (h : rest <:+ all) :
    Agrees all (productFrom g (tapeOf all) (k + 1) left) (spot all rest n) n rest
      (g.productFrom n ts ⟨left, rest, hlt⟩) := by
  rw [productFrom]
  refine Agrees.bind (current_runs h n) ?_
  cases rest with
  | nil =>
    rw [Grammar.productFrom]
    exact ⟨List.suffix_rfl, rfl⟩
  | cons t after =>
    have hafter : after <:+ all := (List.suffix_cons t after).trans h
    have hroom' := hroom
    rw [List.length_cons] at hroom'
    rw [Grammar.productFrom]
    simp only [List.head?_cons]
    cases hop : Grammar.productOperator? t.kind with
    | some op =>
      have hsigned := hk.signed (n := n) (by omega) hafter
      refine Agrees.bind (advance_runs h n) ?_
      refine hsigned.andThen (List.suffix_cons t after) fun q hs => ?_
      exact hk.productFrom _ (by have := q.shorter; omega) (hs.trans hafter)
    | none =>
      dsimp only
      split
      · split
        · -- a neighbour: no operator is taken, and the operand is read from the same place
          have hpower := hk.power (n := n) (by omega) h
          cases hq : g.power n (t :: after) with
          | error f =>
            rw [hq] at hpower
            exact Stops.bind hpower _
          | ok q =>
            rw [hq] at hpower
            refine Agrees.mono hpower.1 (Agrees.bind hpower.2 ?_)
            exact hk.productFrom _ (by have := q.shorter; omega) (hpower.1.trans h)
        · exact fail_stops _ (t :: after) _
      · exact ⟨List.suffix_rfl, rfl⟩

lemma agrees_product (hk : AgreesAt g all k) (hroom : 10 * ts.length + 8 ≤ k + 1)
    (h : ts <:+ all) :
    Agrees all (product g (tapeOf all) (k + 1)) (spot all ts n) n ts (g.product n ts) := by
  have hsigned := hk.signed (n := n) (Nat.le_of_succ_le_succ hroom) h
  rw [product, Grammar.product]
  exact hsigned.andThen List.suffix_rfl fun q hs =>
    hk.productFrom q.shorter (by have := q.shorter; omega) (hs.trans h)

lemma agrees_sumFrom {left : Expr} {rest : List Token} (hk : AgreesAt g all k)
    (hlt : rest.length < ts.length) (hroom : 10 * rest.length + 9 ≤ k + 1) (h : rest <:+ all) :
    Agrees all (sumFrom g (tapeOf all) (k + 1) left) (spot all rest n) n rest
      (g.sumFrom n ts ⟨left, rest, hlt⟩) := by
  rw [sumFrom]
  refine Agrees.bind (current_runs h n) ?_
  cases rest with
  | nil =>
    rw [Grammar.sumFrom]
    exact ⟨List.suffix_rfl, rfl⟩
  | cons t after =>
    have hafter : after <:+ all := (List.suffix_cons t after).trans h
    rw [List.length_cons] at hroom
    rw [Grammar.sumFrom]
    simp only [List.head?_cons, Option.bind_some]
    cases hop : Grammar.sumOperator? t.kind with
    | none => exact ⟨List.suffix_rfl, rfl⟩
    | some op =>
      have hproduct := hk.product (n := n) (by omega) hafter
      refine Agrees.bind (advance_runs h n) ?_
      refine hproduct.andThen (List.suffix_cons t after) fun q hs => ?_
      exact hk.sumFrom _ (by have := q.shorter; omega) (hs.trans hafter)

lemma agrees_sum (hk : AgreesAt g all k) (hroom : 10 * ts.length + 9 ≤ k + 1) (h : ts <:+ all) :
    Agrees all (sum g (tapeOf all) (k + 1)) (spot all ts n) n ts (g.sum n ts) := by
  have hproduct := hk.product (n := n) (Nat.le_of_succ_le_succ hroom) h
  rw [sum, Grammar.sum]
  exact hproduct.andThen List.suffix_rfl fun q hs =>
    hk.sumFrom q.shorter (by have := q.shorter; omega) (hs.trans h)

/-- **Every rule reads as the grammar does**, by induction on the room for the rules inside it. -/
theorem agreesAt (hc : Converts all) (k : ℕ) : AgreesAt g all k := by
  induction k using Nat.strong_induction_on with
  | _ k ih =>
    cases k with
    | zero => constructor <;> intros <;> omega
    | succ k =>
      -- a call reads two rules down, so the induction is on all smaller amounts of room
      have hk : AgreesAt g all k := ih k (Nat.lt_succ_self k)
      exact
        { sum := agrees_sum hk
          sumFrom := agrees_sumFrom hk
          product := agrees_product hk
          productFrom := agrees_productFrom hk
          signed := agrees_signed hk
          power := agrees_power hk
          factorial := agrees_factorial hk
          operand := agrees_operand hc hk
          call := agrees_call fun j hj => ih j (Nat.lt_succ_of_le hj) }

lemma expression_agrees (hc : Converts all) (hroom : room all ≤ k) :
    match g.expression all with
    | .error f => Stops (expression g (tapeOf all) k) (spot all all 0) (.failure f)
    | .ok e => Runs (expression g (tapeOf all) k) (spot all all 0) e (spot all [] 0) := by
  have hsum := (agreesAt (g := g) hc k).sum (n := 0) hroom List.suffix_rfl
  have hfirst := current_runs (List.suffix_refl all) 0
  rw [Grammar.expression]
  cases all with
  | nil =>
    simp only [List.isEmpty_nil, if_true]
    rw [expression, Stops, hfirst.bind]
    rfl
  | cons t ts =>
    simp only [List.isEmpty_cons, Bool.false_eq_true, if_false]
    cases hq : g.sum 0 (t :: ts) with
    | error f =>
      rw [hq] at hsum
      dsimp only
      rw [expression, Stops, hfirst.bind]
      exact Stops.bind hsum _
    | ok q =>
      rw [hq] at hsum
      obtain ⟨hs, hrun⟩ := hsum
      have hlast := current_runs hs 0
      obtain ⟨e, rest, hlt⟩ := q
      cases rest with
      | nil =>
        dsimp only
        rw [expression, Runs, hfirst.bind]
        simp only [List.head?_cons]
        rw [hrun.bind, hlast.bind]
        rfl
      | cons u us =>
        dsimp only
        rw [expression, Stops, hfirst.bind]
        simp only [List.head?_cons]
        rw [hrun.bind, hlast.bind]
        rfl

/-- **The cursor reads every list of tokens as the grammar does**: it comes to an end, and never by
a look past the list, a text that is no number or a token of another kind. More room changes
nothing. -/
theorem parse_eq (hc : Converts all) (hroom : room all ≤ k) :
    parse k g all = some ((g.expression all).mapError .failure) := by
  have hagree := expression_agrees (g := g) hc hroom
  have hstart : (⟨0, 0⟩ : Cursor) = spot all all 0 := by rw [spot, Nat.sub_self]
  rw [parse, hstart, StateT.run'_eq]
  cases he : g.expression all with
  | error f =>
    rw [he] at hagree
    rw [show (expression g (tapeOf all) k).run (spot all all 0) = throw (.failure f) from hagree]
    rfl
  | ok e =>
    rw [he] at hagree
    rw [show (expression g (tapeOf all) k).run (spot all all 0) = pure (e, spot all [] 0)
      from hagree]
    rfl

end Abacus.Cursor
