import Mathlib.Data.List.Infix
import Mathlib.Tactic.Common
import Abacus.Proofs.CursorReads

/-!
Rules make progress. Where the tokens of numbers can be read, a rule of the cursor comes to an end:
it fails at a place that it has reached, or it stands farther on than it began, though not past the
mark of the end, and on the level on which it began. A loop takes a token in each round, so it ends
as well, and no look at the list misses it. A scan only gives tokens that can be read. On other
lists there is one more end, at a token of a number whose text is none.
-/

namespace Abacus.Cursor

variable {α β : Type} {g : Grammar} {all ts us mid : List Token} {t : Token} {m n k j b b' : ℕ}
  {c c' : Cursor}

/-! ### Ends -/

/-- A text that stands for a number can be read as one. -/
def Readable (t : Token) : Prop := ∀ v, t.kind = .number v → (convertNumber? t.text).isSome = true

lemma readable_of_scan {source : String} (h : Token.scan source = .ok ts) :
    ∀ t ∈ ts, Readable t := by
  intro t ht v hv
  rw [Conversion.convertNumber?_of_scan h t ht v hv]
  rfl

/-- With room for `k` rules or more, what begins at `c` ends in one way: by a failure at a place in
`ts`, by a text that is no number, or on level `n` before a rest of `ts` that has fewer than `b`
tokens. -/
inductive Ends (g : Grammar) (all ts : List Token) (n b k : ℕ) (x : ℕ → Moving α) (c : Cursor) :
    Prop
  | failure (cause : Failure.Cause) {us : List Token} (hs : us <:+ ts)
      (h : ∀ fuel, k ≤ fuel → Stops (x fuel) c (.failure ⟨cause, g.placeOf us⟩))
  | number {t : Token} (ht : t ∈ ts) (hno : ¬ Readable t)
      (h : ∀ fuel, k ≤ fuel → Stops (x fuel) c (.raised .value))
  | moved (a : α) {us : List Token} (hs : us <:+ ts) (hlt : us.length < b)
      (h : ∀ fuel, k ≤ fuel → Runs (x fuel) c a (spot all us n))

namespace Ends

variable {x : ℕ → Moving α} {f : ℕ → α → Moving β} {y : Moving α} {a : α} {cause : Failure.Cause}

lemma pure (hs : us <:+ ts) (hlt : us.length < b) :
    Ends g all ts n b k (fun _ => return a) (spot all us n) :=
  .moved a hs hlt fun _ _ => rfl

lemma stay : Ends g all ts n (ts.length + 1) k (fun _ => return a) (spot all ts n) :=
  pure List.suffix_rfl (Nat.lt_succ_self _)

lemma stops (hs : us <:+ ts) (h : Stops y c (.failure ⟨cause, g.placeOf us⟩)) :
    Ends g all ts n b k (fun _ => y) c :=
  .failure cause hs fun _ _ => h

/-- What runs as `z` does, given enough room, ends as `z` does. -/
lemma transfer {z : ℕ → Moving α} (h : Ends g all us n b k z c') (hs : us <:+ ts) (hb : b ≤ b')
    (hx : ∀ fuel, j ≤ fuel → ∃ fuel', k ≤ fuel' ∧ (x fuel).run c = (z fuel').run c') :
    Ends g all ts n b' j x c := by
  have hall : ∀ {r}, (∀ fuel, k ≤ fuel → (z fuel).run c' = r) →
      ∀ fuel, j ≤ fuel → (x fuel).run c = r := by
    intro r h fuel hle
    obtain ⟨fuel', hle', hrun⟩ := hx fuel hle
    exact hrun.trans (h fuel' hle')
  cases h with
  | failure cause hs' h => exact .failure cause (hs'.trans hs) (hall h)
  | number ht hno h => exact .number (hs.subset ht) hno (hall h)
  | moved a hs' hlt h => exact .moved a (hs'.trans hs) (hlt.trans_le hb) (hall h)

lemma mono (h : Ends g all us n b k x c) (hs : us <:+ ts) (hk : k ≤ j) (hb : b ≤ b') :
    Ends g all ts n b' j x c :=
  h.transfer hs hb fun fuel hle => ⟨fuel, hk.trans hle, rfl⟩

/-- A rule takes room for one. -/
lemma succ (h : Ends g all ts n b k (fun fuel => x (fuel + 1)) c) :
    Ends g all ts n b (k + 1) x c := by
  refine h.transfer List.suffix_rfl le_rfl fun fuel hle => ⟨fuel - 1, by omega, ?_⟩
  rw [Nat.sub_add_cancel (Nat.one_le_of_lt hle)]

lemma after_runs (h : Runs y c a c') (hf : Ends g all ts n b k (fun fuel => f fuel a) c') :
    Ends g all ts n b k (fun fuel => y >>= f fuel) c :=
  hf.transfer List.suffix_rfl le_rfl fun fuel hle => ⟨fuel, hle, h.bind (f fuel)⟩

lemma after_stops (hs : us <:+ ts) (h : Stops y c (.failure ⟨cause, g.placeOf us⟩)) :
    Ends g all ts n b k (fun fuel => y >>= f fuel) c :=
  .failure cause hs fun fuel _ => h.bind (f fuel)

/-- What is left by the first is where the second begins. -/
lemma bind (h : Ends g all mid m b k x c) (hs : mid <:+ ts)
    (hf : ∀ a us, us <:+ mid → us.length < b →
      Ends g all us n b' k (fun fuel => f fuel a) (spot all us m)) :
    Ends g all ts n b' k (fun fuel => x fuel >>= f fuel) c := by
  cases h with
  | failure cause hs' h =>
    exact .failure cause (hs'.trans hs) fun fuel hle => (h fuel hle).bind (f fuel)
  | number ht hno h => exact .number (hs.subset ht) hno fun fuel hle => (h fuel hle).bind (f fuel)
  | moved a hs' hlt h =>
    exact (hf a _ hs' hlt).transfer (hs'.trans hs) le_rfl fun fuel hle =>
      ⟨fuel, hle, (h fuel hle).bind (f fuel)⟩

/-- One level deeper, unless that is too deep. -/
lemma after_enter {f : ℕ → Unit → Moving β} (hs : t :: us <:+ ts)
    (hf : Ends g all ts n b k (fun fuel => f fuel ()) (spot all mid (m + 1))) :
    Ends g all ts n b k (fun fuel => enter g t >>= f fuel) (spot all mid m) := by
  by_cases hm : m < maxDepth
  · exact after_runs (enter_runs hm) hf
  · exact after_stops hs (enter_stops hm)

end Ends

/-- With room for `k` rules, each rule ends, if the tokens are few enough, and so does each loop. -/
structure EndsAt (g : Grammar) (all : List Token) (k : ℕ) : Prop where
  sum : ∀ {n ts}, 10 * ts.length + 9 ≤ k → ts <:+ all →
    Ends g all ts n ts.length k (sum g (tapeOf all)) (spot all ts n)
  sumFrom : ∀ {n ts left}, 10 * ts.length + 9 ≤ k → ts <:+ all →
    Ends g all ts n (ts.length + 1) k (sumFrom g (tapeOf all) · left) (spot all ts n)
  product : ∀ {n ts}, 10 * ts.length + 8 ≤ k → ts <:+ all →
    Ends g all ts n ts.length k (product g (tapeOf all)) (spot all ts n)
  productFrom : ∀ {n ts left}, 10 * ts.length + 8 ≤ k → ts <:+ all →
    Ends g all ts n (ts.length + 1) k (productFrom g (tapeOf all) · left) (spot all ts n)
  signed : ∀ {n ts}, 10 * ts.length + 7 ≤ k → ts <:+ all →
    Ends g all ts n ts.length k (signed g (tapeOf all)) (spot all ts n)
  power : ∀ {n ts}, 10 * ts.length + 6 ≤ k → ts <:+ all →
    Ends g all ts n ts.length k (power g (tapeOf all)) (spot all ts n)
  factorial : ∀ {n ts}, 10 * ts.length + 5 ≤ k → ts <:+ all →
    Ends g all ts n ts.length k (factorial g (tapeOf all)) (spot all ts n)
  operand : ∀ {n ts}, 10 * ts.length + 4 ≤ k → ts <:+ all →
    Ends g all ts n ts.length k (operand g (tapeOf all)) (spot all ts n)
  call : ∀ {n t o ts}, 10 * (t :: o :: ts).length + 3 ≤ k → t :: o :: ts <:+ all →
    t.kind = .ident → o.kind = .lparen →
    Ends g all (t :: o :: ts) n (t :: o :: ts).length k (call g (tapeOf all))
      (spot all (t :: o :: ts) n)
  arguments : ∀ {n ts name args}, 10 * ts.length + 9 ≤ k → ts <:+ all →
    Ends g all ts n (ts.length + 1) k (arguments g (tapeOf all) · name args) (spot all ts n)

/-! ### Parts of an operand -/

lemma ends_closing (e : Expr) (h : ts <:+ all) :
    Ends g all ts n (ts.length + 1) k (fun _ => do closing g (tapeOf all); return e)
      (spot all ts n) := by
  cases ts with
  | nil => exact .after_stops List.suffix_rfl (closing_stops h (by simp))
  | cons t after =>
    by_cases ht : t.kind = .rparen
    · refine .after_runs (closing_runs h ht) (.pure (List.suffix_cons t after) ?_)
      exact Nat.lt_succ_of_lt (Nat.lt_succ_self _)
    · exact .after_stops List.suffix_rfl (closing_stops h (by simpa using ht))

lemma ends_bangs (e : Expr) (hroom : ts.length < k) (h : ts <:+ all) :
    Ends g all ts n (ts.length + 1) k (bangs (tapeOf all) · e) (spot all ts n) := by
  induction ts generalizing e k with
  | nil =>
    obtain ⟨k, rfl⟩ := Nat.exists_eq_succ_of_ne_zero (Nat.ne_of_gt hroom)
    refine .succ ?_
    simp only [bangs]
    exact .after_runs (current_runs h n) .stay
  | cons t after ih =>
    obtain ⟨k, rfl⟩ := Nat.exists_eq_succ_of_ne_zero (Nat.ne_zero_of_lt hroom)
    have hafter := List.suffix_cons t after
    refine .succ ?_
    simp only [bangs]
    refine .after_runs (current_runs h n) ?_
    by_cases ht : t.kind = .bang
    · simp only [List.head?_cons, if_pos ht]
      refine .after_runs (advance_runs h n) ?_
      exact (ih (.factorial e) (Nat.lt_of_succ_lt_succ hroom) (hafter.trans h)).mono hafter le_rfl
        (Nat.le_succ _)
    · simp only [List.head?_cons, if_neg ht]
      exact .stay

lemma ends_arguments {name : Token} {args : List Expr} (hk : EndsAt g all k)
    (hroom : 10 * ts.length + 9 ≤ k + 1) (h : ts <:+ all) :
    Ends g all ts n (ts.length + 1) (k + 1) (arguments g (tapeOf all) · name args)
      (spot all ts n) := by
  refine .succ ?_
  simp only [arguments]
  refine .after_runs (current_runs h n) ?_
  cases ts with
  | nil => exact .stay
  | cons t after =>
    have hafter := List.suffix_cons t after
    by_cases ht : t.kind = .comma
    · simp only [List.head?_cons, Option.any_some, ht, decide_true, if_true]
      by_cases hargs : args.length = 2
      · -- a comma after two arguments
        simp only [if_pos hargs]
        exact .after_stops List.suffix_rfl (fail_stops _ (t :: after) _)
      · simp only [if_neg hargs]
        rw [List.length_cons] at hroom ⊢
        refine .after_runs (advance_runs h n) ?_
        refine (hk.sum (by omega) (hafter.trans h)).bind hafter fun e us hs hlt => ?_
        exact (hk.arguments (by omega) (hs.trans (hafter.trans h))).mono List.suffix_rfl le_rfl
          (by omega)
    · simp only [List.head?_cons, Option.any_some, ht, decide_false, Bool.false_eq_true, if_false]
      exact .stay

lemma ends_call {o : Token} (hk : EndsAt g all k)
    (hroom : 10 * (t :: o :: ts).length + 3 ≤ k + 1) (h : t :: o :: ts <:+ all)
    (ht : t.kind = .ident) (ho : o.kind = .lparen) :
    Ends g all (t :: o :: ts) n (t :: o :: ts).length (k + 1) (call g (tapeOf all))
      (spot all (t :: o :: ts) n) := by
  have hopen : o :: ts <:+ t :: o :: ts := List.suffix_cons t _
  have hsuff : ts <:+ t :: o :: ts := (List.suffix_cons o ts).trans hopen
  simp only [List.length_cons] at hroom ⊢
  refine .succ ?_
  simp only [call]
  refine .after_runs (take_runs h ht n) (.after_runs (take_runs (hopen.trans h) ho n)
    (.after_runs (current_runs (hsuff.trans h) n) ?_))
  cases hc : ts.head?.any (·.kind = .rparen) with
  | true =>
    simp only [if_true]
    exact .after_stops hsuff (fail_stops _ ts _)
  | false =>
    simp only [Bool.false_eq_true, if_false]
    refine .after_enter hopen ?_
    refine (hk.sum (by omega) (hsuff.trans h)).bind hsuff fun first us hs hlt => ?_
    -- the level is left where the last argument ends, whatever it has read
    have hus := hs.trans (hsuff.trans h)
    refine (hk.arguments (by omega) hus).bind List.suffix_rfl fun args vs hs' hlt' => ?_
    refine .after_runs leave_runs ?_
    exact (ends_closing _ (hs'.trans hus)).mono List.suffix_rfl le_rfl (by omega)

/-! ### Rules -/

lemma ends_convert (h : t :: ts <:+ all) {v : Double} (ht : t.kind = .number v) :
    Ends g all (t :: ts) n (t :: ts).length k (fun _ => do advance (tapeOf all); convert t)
      (spot all (t :: ts) n) := by
  refine .after_runs (advance_runs h n) ?_
  cases hv : convertNumber? t.text with
  | some w =>
    have hconv : convert t = (return .number w : Moving Expr) := by rw [convert, hv]
    rw [hconv]
    exact .pure (List.suffix_cons t ts) (Nat.lt_succ_self _)
  | none =>
    have hno : ¬ Readable t := fun h => by simpa [hv] using h v ht
    refine .number List.mem_cons_self hno fun _ _ => ?_
    rw [convert, hv]
    rfl

lemma ends_operand (hk : EndsAt g all k) (hroom : 10 * ts.length + 4 ≤ k + 1) (h : ts <:+ all) :
    Ends g all ts n ts.length (k + 1) (operand g (tapeOf all)) (spot all ts n) := by
  refine .succ ?_
  simp only [operand]
  cases ts with
  | nil => exact .after_runs (current_runs h n) (.stops List.suffix_rfl (fail_stops _ [] _))
  | cons t after =>
    have hafter := List.suffix_cons t after
    simp only [List.length_cons] at hroom ⊢
    refine .after_runs (current_runs h n) ?_
    simp only [List.head?_cons]
    cases ht : t.kind with
    | lparen =>
      refine .after_runs (advance_runs h n) (.after_enter List.suffix_rfl ?_)
      refine (hk.sum (by omega) (hafter.trans h)).bind hafter fun e us hs hlt => ?_
      refine .after_runs leave_runs ?_
      exact (ends_closing e (hs.trans (hafter.trans h))).mono List.suffix_rfl le_rfl (by omega)
    | number v => exact ends_convert h ht
    | ident =>
      refine .after_runs (following_runs h n) ?_
      by_cases ho : after.head?.any (·.kind = .lparen)
      · obtain ⟨o, inside, rfl⟩ : ∃ o inside, after = o :: inside := by
          cases after with
          | nil => simp at ho
          | cons o inside => exact ⟨o, inside, rfl⟩
        simp only [if_pos ho]
        exact hk.call (by simp only [List.length_cons] at hroom ⊢; omega) h ht (by simpa using ho)
      · simp only [if_neg ho]
        exact .after_runs (advance_runs h n) (.pure hafter (Nat.lt_succ_self _))
    | _ => exact .stops List.suffix_rfl (fail_stops _ (t :: after) _)

lemma ends_factorial (hk : EndsAt g all k) (hroom : 10 * ts.length + 5 ≤ k + 1) (h : ts <:+ all) :
    Ends g all ts n ts.length (k + 1) (factorial g (tapeOf all)) (spot all ts n) := by
  refine .succ ?_
  simp only [factorial]
  refine (hk.operand (by omega) h).bind List.suffix_rfl fun e us hs hlt => ?_
  exact (ends_bangs e (by omega) (hs.trans h)).mono List.suffix_rfl le_rfl hlt

/-- What is a level deeper, read after the token that begins it. -/
lemma ends_deeper {f : Expr → Expr} (hk : EndsAt g all k) (hroom : 10 * ts.length + 7 ≤ k)
    (h : t :: ts <:+ all) :
    Ends g all (t :: ts) n (t :: ts).length k (fun fuel => do
        advance (tapeOf all)
        enter g t
        let e ← signed g (tapeOf all) fuel
        leave
        return f e)
      (spot all (t :: ts) n) := by
  have hts := List.suffix_cons t ts
  refine .after_runs (advance_runs h n) (.after_enter List.suffix_rfl ?_)
  refine (hk.signed hroom (hts.trans h)).bind hts fun e us hs hlt => ?_
  exact .after_runs leave_runs (.pure List.suffix_rfl (Nat.lt_succ_of_lt hlt))

lemma ends_power (hk : EndsAt g all k) (hroom : 10 * ts.length + 6 ≤ k + 1) (h : ts <:+ all) :
    Ends g all ts n ts.length (k + 1) (power g (tapeOf all)) (spot all ts n) := by
  refine .succ ?_
  simp only [power]
  refine (hk.factorial (by omega) h).bind List.suffix_rfl fun base us hs hlt => ?_
  refine .after_runs (current_runs (hs.trans h) n) ?_
  cases us with
  | nil => exact .pure List.suffix_rfl hlt
  | cons t after =>
    by_cases ht : t.kind = .caret
    · simp only [List.head?_cons, if_pos ht]
      rw [List.length_cons] at hlt
      exact (ends_deeper hk (by omega) (hs.trans h)).mono List.suffix_rfl le_rfl hlt.le
    · simp only [List.head?_cons, if_neg ht]
      exact .pure List.suffix_rfl hlt

lemma ends_signed (hk : EndsAt g all k) (hroom : 10 * ts.length + 7 ≤ k + 1) (h : ts <:+ all) :
    Ends g all ts n ts.length (k + 1) (signed g (tapeOf all)) (spot all ts n) := by
  have hpower := hk.power (n := n) (Nat.le_of_succ_le_succ hroom) h
  refine .succ ?_
  simp only [signed]
  refine .after_runs (current_runs h n) ?_
  cases ts with
  | nil => exact hpower
  | cons t after =>
    simp only [List.head?_cons]
    cases hs : Grammar.sign? t.kind with
    | none => exact hpower
    | some s =>
      rw [List.length_cons] at hroom
      exact ends_deeper hk (by omega) h

/-! ### Chains -/

lemma ends_productFrom {left : Expr} (hk : EndsAt g all k) (hroom : 10 * ts.length + 8 ≤ k + 1)
    (h : ts <:+ all) :
    Ends g all ts n (ts.length + 1) (k + 1) (productFrom g (tapeOf all) · left)
      (spot all ts n) := by
  refine .succ ?_
  simp only [productFrom]
  refine .after_runs (current_runs h n) ?_
  cases ts with
  | nil => exact .stay
  | cons t after =>
    have hafter := List.suffix_cons t after
    have hlen : (t :: after).length = after.length + 1 := rfl
    simp only [List.head?_cons]
    cases hop : Grammar.productOperator? t.kind with
    | some op =>
      refine .after_runs (advance_runs h n) ?_
      refine (hk.signed (by omega) (hafter.trans h)).bind hafter fun right us hs hlt => ?_
      exact (hk.productFrom (by omega) (hs.trans (hafter.trans h))).mono List.suffix_rfl le_rfl
        (by omega)
    | none =>
      by_cases hstart : Grammar.startsOperand t.kind
      · by_cases himplied : g.implied
        · -- there is no operator to take, so it is the operand that makes progress
          simp only [hstart, himplied, if_true]
          refine (hk.power (by omega) h).bind List.suffix_rfl fun right us hs hlt => ?_
          exact (hk.productFrom (by omega) (hs.trans h)).mono List.suffix_rfl le_rfl (by omega)
        · simp only [hstart, himplied, if_true, Bool.false_eq_true, if_false]
          exact .stops List.suffix_rfl (fail_stops _ (t :: after) _)
      · simp only [hstart, Bool.false_eq_true, if_false]
        exact .stay

lemma ends_product (hk : EndsAt g all k) (hroom : 10 * ts.length + 8 ≤ k + 1) (h : ts <:+ all) :
    Ends g all ts n ts.length (k + 1) (product g (tapeOf all)) (spot all ts n) := by
  refine .succ ?_
  simp only [product]
  refine (hk.signed (by omega) h).bind List.suffix_rfl fun left us hs hlt => ?_
  exact (hk.productFrom (by omega) (hs.trans h)).mono List.suffix_rfl le_rfl hlt

lemma ends_sumFrom {left : Expr} (hk : EndsAt g all k) (hroom : 10 * ts.length + 9 ≤ k + 1)
    (h : ts <:+ all) :
    Ends g all ts n (ts.length + 1) (k + 1) (sumFrom g (tapeOf all) · left) (spot all ts n) := by
  refine .succ ?_
  simp only [sumFrom]
  refine .after_runs (current_runs h n) ?_
  cases ts with
  | nil => exact .stay
  | cons t after =>
    have hafter := List.suffix_cons t after
    have hlen : (t :: after).length = after.length + 1 := rfl
    simp only [List.head?_cons, Option.bind_some]
    cases hop : Grammar.sumOperator? t.kind with
    | none => exact .stay
    | some op =>
      refine .after_runs (advance_runs h n) ?_
      refine (hk.product (by omega) (hafter.trans h)).bind hafter fun right us hs hlt => ?_
      exact (hk.sumFrom (by omega) (hs.trans (hafter.trans h))).mono List.suffix_rfl le_rfl
        (by omega)

lemma ends_sum (hk : EndsAt g all k) (hroom : 10 * ts.length + 9 ≤ k + 1) (h : ts <:+ all) :
    Ends g all ts n ts.length (k + 1) (sum g (tapeOf all)) (spot all ts n) := by
  refine .succ ?_
  simp only [sum]
  refine (hk.product (by omega) h).bind List.suffix_rfl fun left us hs hlt => ?_
  exact (hk.sumFrom (by omega) (hs.trans h)).mono List.suffix_rfl le_rfl hlt

/-- Every rule ends, by induction on the room for the rules inside it. -/
lemma endsAt (k : ℕ) : EndsAt g all k := by
  induction k with
  | zero => constructor <;> intros <;> omega
  | succ k hk =>
    exact
      { sum := ends_sum hk
        sumFrom := ends_sumFrom hk
        product := ends_product hk
        productFrom := ends_productFrom hk
        signed := ends_signed hk
        power := ends_power hk
        factorial := ends_factorial hk
        operand := ends_operand hk
        call := ends_call hk
        arguments := ends_arguments hk }

/-! ### Progress -/

inductive Rule
  | sum
  | product
  | signed
  | power
  | factorial
  | operand
  | call

namespace Rule

def read (g : Grammar) (tape : List (Option Token)) : Rule → ℕ → Moving Expr
  | .sum => Cursor.sum g tape
  | .product => Cursor.product g tape
  | .signed => Cursor.signed g tape
  | .power => Cursor.power g tape
  | .factorial => Cursor.factorial g tape
  | .operand => Cursor.operand g tape
  | .call => Cursor.call g tape

/-- A call is read only where a name and a parenthesis have been seen. -/
def Begins (r : Rule) (ts : List Token) : Prop :=
  r = .call → ∃ t o rest, ts = t :: o :: rest ∧ t.kind = .ident ∧ o.kind = .lparen

lemma ends (r : Rule) (h : ts <:+ all) (hr : r.Begins ts) :
    Ends g all ts n ts.length (room ts) (r.read g (tapeOf all)) (spot all ts n) := by
  have hk : EndsAt g all (room ts) := endsAt _
  have hroom : 10 * ts.length + 9 ≤ room ts := le_rfl
  cases r with
  | sum => exact hk.sum hroom h
  | product => exact hk.product (by omega) h
  | signed => exact hk.signed (by omega) h
  | power => exact hk.power (by omega) h
  | factorial => exact hk.factorial (by omega) h
  | operand => exact hk.operand (by omega) h
  | call =>
    obtain ⟨t, o, rest, rfl, ht, ho⟩ := hr rfl
    exact hk.call (by omega) h ht ho

end Rule

/-- How something that begins at `c` should end: with a failure at a place that is not before `c`,
or on the same level at a place from `least` on that has a token or is the end. -/
inductive Ending (g : Grammar) (ts : List Token) (c : Cursor) (least : ℕ) :
    Except Stop (α × Cursor) → Prop
  | failure (cause : Failure.Cause) {i : ℕ} (hle : c.place ≤ i) (hi : i ≤ ts.length) :
      Ending g ts c least (.error (.failure ⟨cause, g.placeOf (ts.drop i)⟩))
  | moved (a : α) {i : ℕ} (hle : least ≤ i) (hi : i ≤ ts.length) :
      Ending g ts c least (.ok (a, ⟨i, c.level⟩))

/-- There is one ending, whatever the room, if it is enough for the tokens. -/
def Comes (g : Grammar) (ts : List Token) (c : Cursor) (least : ℕ) (x : ℕ → Moving α) : Prop :=
  ∃ r, Ending g ts c least r ∧ ∀ fuel, room ts ≤ fuel → ((x fuel).run c).run = some r

/-- There is a token at `c` or after it that cannot be read, and it is not. -/
def Refuses (ts : List Token) (c : Cursor) (x : ℕ → Moving α) : Prop :=
  (∃ t ∈ ts.drop c.place, ¬ Readable t) ∧
    ∀ fuel, room ts ≤ fuel → ((x fuel).run c).run = some (.error (.raised .value))

/-- Each rule ends in this way a token farther on at least, and each loop where it is at least. -/
structure Each (g : Grammar) (ts : List Token) (c : Cursor)
    (p : {α : Type} → ℕ → (ℕ → Moving α) → Prop) : Prop where
  rule : ∀ r : Rule, r.Begins (ts.drop c.place) → p (c.place + 1) (r.read g (tapeOf ts))
  sums : ∀ left, p c.place (sumFrom g (tapeOf ts) · left)
  products : ∀ left, p c.place (productFrom g (tapeOf ts) · left)
  bangs : ∀ e, p c.place (bangs (tapeOf ts) · e)
  arguments : ∀ name args, p c.place (arguments g (tapeOf ts) · name args)

lemma Each.imp {p q : {α : Type} → ℕ → (ℕ → Moving α) → Prop} (h : Each g ts c p)
    (hpq : ∀ {α : Type} (least : ℕ) (x : ℕ → Moving α), p least x → q least x) : Each g ts c q where
  rule r hr := hpq _ _ (h.rule r hr)
  sums left := hpq _ _ (h.sums left)
  products left := hpq _ _ (h.products left)
  bangs e := hpq _ _ (h.bangs e)
  arguments name args := hpq _ _ (h.arguments name args)

lemma spot_drop (hc : c.place ≤ ts.length) : spot ts (ts.drop c.place) c.level = c := by
  rw [spot, List.length_drop, Nat.sub_sub_self hc]

lemma Ends.comes {x : ℕ → Moving α} {least : ℕ} (hc : c.place ≤ ts.length)
    (hb : least + b = ts.length + 1) (hk : k ≤ room ts)
    (h : Ends g ts (ts.drop c.place) c.level b k x (spot ts (ts.drop c.place) c.level)) :
    Comes g ts c least x ∨ Refuses ts c x := by
  have hplace : ∀ {us}, us <:+ ts.drop c.place →
      c.place ≤ ts.length - us.length ∧ ts.drop (ts.length - us.length) = us := by
    intro us hs
    have hlen := hs.length_le
    rw [List.length_drop] at hlen
    exact ⟨by omega, (List.suffix_iff_eq_drop.mp (hs.trans (List.drop_suffix _ _))).symm⟩
  rw [spot_drop hc] at h
  cases h with
  | @failure cause us hs h =>
    obtain ⟨hle, hus⟩ := hplace hs
    refine .inl ⟨_, .failure cause hle (Nat.sub_le _ _), fun fuel hroom => ?_⟩
    rw [hus]
    exact h fuel (hk.trans hroom)
  | number ht hno h => exact .inr ⟨⟨_, ht, hno⟩, fun fuel hroom => h fuel (hk.trans hroom)⟩
  | moved a hs hlt h =>
    exact .inl ⟨_, .moved a (by omega) (Nat.sub_le _ _), fun fuel hroom => h fuel (hk.trans hroom)⟩

/-- **Every rule comes to an end**, whatever the tokens, from every place among them or at the end
of them, on every level and under either rule for neighbours. -/
theorem each_comes_or_refuses (g : Grammar) (ts : List Token) (hc : c.place ≤ ts.length) :
    Each g ts c fun least x => Comes g ts c least x ∨ Refuses ts c x := by
  have hs := List.drop_suffix c.place ts
  have hlen : (ts.drop c.place).length = ts.length - c.place := List.length_drop
  have hroom : room (ts.drop c.place) ≤ room ts := by
    rw [room, room, hlen]
    omega
  have hk : EndsAt g ts (room (ts.drop c.place)) := endsAt _
  have hself : 10 * (ts.drop c.place).length + 9 ≤ room (ts.drop c.place) := le_rfl
  exact
    { rule r hr := (r.ends hs hr).comes hc (by omega) hroom
      sums _ := (hk.sumFrom hself hs).comes hc (by omega) hroom
      products _ := (hk.productFrom (by omega) hs).comes hc (by omega) hroom
      bangs e := (ends_bangs e (by omega) hs).comes hc (by omega) hroom
      arguments _ _ := (hk.arguments hself hs).comes hc (by omega) hroom }

lemma not_refuses (hr : ∀ t ∈ ts, Readable t) (x : ℕ → Moving α) : ¬ Refuses ts c x := by
  rintro ⟨⟨t, ht, hno⟩, -⟩
  exact hno (hr t (List.mem_of_mem_drop ht))

/-- **Every rule makes progress and restores its level** where the tokens can be read: it fails at a
place that it has reached or stands farther on, on the level on which it began. The loops end, and
no look at the list misses it. Tokens that a scan gives can be read. -/
theorem progress (g : Grammar) (ts : List Token) {c : Cursor} (hc : c.place ≤ ts.length) :
    ((∀ t ∈ ts, Readable t) → Each g ts c fun least x => Comes g ts c least x) ∧
      ∀ source, Token.scan source = .ok ts → ∀ t ∈ ts, Readable t := by
  refine ⟨fun hr => ?_, fun source h => readable_of_scan h⟩
  exact (each_comes_or_refuses g ts hc).imp fun _ x h => h.resolve_right (not_refuses hr x)

/-- A group from level 99 is read, and from level 100 it is too deep. -/
theorem progress_group :
    let ts : List Token := [⟨.number Double.one, "1", 0⟩, ⟨.star, "*", 1⟩, ⟨.lparen, "(", 2⟩,
      ⟨.ident, "y", 3⟩, ⟨.rparen, ")", 4⟩]
    (∀ t ∈ ts, Readable t) ∧
      (Each ⟨false, 5⟩ ts ⟨0, 99⟩ fun least x => Comes ⟨false, 5⟩ ts ⟨0, 99⟩ least x) ∧
      ((sum ⟨false, 5⟩ (tapeOf ts) (room ts)).run ⟨0, 99⟩).run =
        some (.ok (.binary .mul (.number Double.one) (.reference "y" 3), ⟨5, 99⟩)) ∧
      ((sum ⟨false, 5⟩ (tapeOf ts) (room ts)).run ⟨0, 100⟩).run =
        some (.error (.failure ⟨.tooDeep, 2⟩)) := by
  intro ts
  obtain ⟨heach, hscanned⟩ := progress ⟨false, 5⟩ ts (c := ⟨0, 99⟩) (Nat.zero_le _)
  have hr := hscanned "1*(y)" (by decide +kernel)
  exact ⟨hr, heach hr, rfl, rfl⟩

/-- A token of a number whose text is none is neither read nor refused with a place. -/
theorem not_forall_comes :
    ¬ ∀ (g : Grammar) (ts : List Token) (c : Cursor), c.place ≤ ts.length →
      Each g ts c fun least x => Comes g ts c least x := by
  intro h
  have heach := h ⟨false, 3⟩ [⟨.number .nan, "abc", 0⟩] ⟨0, 0⟩ (Nat.zero_le _)
  obtain ⟨r, hr, hrun⟩ := heach.rule .operand (by simp [Rule.Begins])
  have hraised : some (.error (.raised .value)) = some r := by
    rw [← hrun _ le_rfl]
    rfl
  cases hraised
  cases hr

end Abacus.Cursor
