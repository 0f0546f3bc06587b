import Abacus.Elementary.Standard
import Abacus.Proofs.Report

/-!
A variable replaced by its number. Where a name means a number by a row, the number can be written in
its place and the rows of the name taken away: the tree has the same outcome, with the same report.
Where the name stands for a product before a parenthesis, the product is written out, so chains and
calls of the two trees differ, but what is evaluated and reported, and in which order, does not.
-/

namespace Abacus.Proofs.Substitution

open PlainWalk Report

/-- The variables that do not answer to the name. -/
def without (vars : Snapshot) (name : String) : Snapshot :=
  ⟨vars.toList.filter (!·.answersTo name)⟩

section Replace

variable (lib : Library) (implied : Bool) (name : String) (v : Double)

/-- A call of `f`, or its product if `f` is the name and multiplies what stands in parentheses. -/
def callOrProduct (f : String) (pos : ℕ) : List Expr → Expr
  | [e] =>
    if implied && sameName f name && (lib.functions.unary f).isNone then
      .binary .mul (.number v) e
    else .call f pos [e]
  | args => .call f pos args

mutual

/-- The tree with the number `v` in the place of the name. -/
def replace : Expr → Expr
  | .number w => .number w
  | .reference x pos => if sameName x name then .number v else .reference x pos
  | .binary op l r => .binary op (replace l) (replace r)
  | .signed sign e => .signed sign (replace e)
  | .factorial e => .factorial (replace e)
  | .call f pos args => callOrProduct lib implied name v f pos (replaceAll args)

def replaceAll : List Expr → List Expr
  | [] => []
  | e :: rest => replace e :: replaceAll rest

end

end Replace

/-! ### Names with and without the rows -/

variable {lib : Library} {implied : Bool} {vars : Snapshot} {name : String} {v : Double}

lemma resolve_without {x : String} (h : sameName x name = false) :
    (without vars name).resolve x = vars.resolve x := by
  have hfind : (without vars name).find? x = vars.find? x := by
    rw [Snapshot.find?, without, List.find?_filter, Snapshot.find?]
    congr 1
    funext u
    cases hu : u.answersTo x with
    | false => simp
    | true => simp [answersTo_eq_false hu ((sameName_comm name x).trans h)]
  rw [Snapshot.resolve, Snapshot.resolve, hfind]

lemma number?_without {x : String} (h : sameName x name = false) :
    (scope lib implied (without vars name)).number? x = (scope lib implied vars).number? x := by
  have hresolve : ∀ vars, (scope lib implied vars).resolver.resolve x = vars.resolve x :=
    fun vars => Lookup.resolve_ofSnapshot vars x
  rw [Scope.number?, Scope.number?, hresolve, hresolve, resolve_without h]
  rfl

lemma number?_of_same {x : String} (hv : vars.resolve name = some v)
    (h : sameName x name = true) : (scope lib implied vars).number? x = some v := by
  have hresolve : (scope lib implied vars).resolver.resolve x = vars.resolve name := by
    rw [← Lookup.resolve_ofSnapshot vars name, Resolver.resolve, Resolver.resolve, eq_of_beq h]
    rfl
  rw [Scope.number?, hresolve, hv]

lemma reference_without {x : String} (h : sameName x name = false) :
    (scope lib implied (without vars name)).reference x =
      (scope lib implied vars).reference x := by
  rw [Scope.reference, Scope.reference, number?_without h]

/-- A call that is not replaced does not ask for the name. -/
lemma call_without {f : String} {args : List Double}
    (h : args.length = 1 →
      (implied && sameName f name && (lib.functions.unary f).isNone) = false) :
    (scope lib implied (without vars name)).call f args = (scope lib implied vars).call f args := by
  match args with
  | [] | _ :: _ :: _ => rfl
  | [x] =>
    have hunary : ∀ vars, (scope lib implied vars).functions.unary f = lib.functions.unary f :=
      fun _ => rfl
    have hflag : ∀ vars, (scope lib implied vars).implied = implied := fun _ => rfl
    simp only [Scope.call, hunary, hflag]
    cases hf : lib.functions.unary f with
    | some g => rfl
    | none =>
      cases implied with
      | false => rfl
      | true =>
        have hsame : sameName f name = false := by simpa [hf] using h rfl
        rw [number?_without hsame]

/-! ### Evaluation -/

lemma plain_call (s : Scope) (f : String) (pos : ℕ) (args : List Expr) :
    plain s (.call f pos args) = plainAll s args >>= s.call f := rfl

lemma call_of_same {f : String} (hv : vars.resolve name = some v)
    (h : (implied && sameName f name && (lib.functions.unary f).isNone) = true) (x : Double) :
    (scope lib implied vars).call f [x] = pure (v * x) := by
  simp only [Bool.and_eq_true, Option.isNone_iff_eq_none] at h
  obtain ⟨⟨rfl, hsame⟩, hunary⟩ := h
  have hunary' : (scope lib true vars).functions.unary f = none := hunary
  have hflag : (scope lib true vars).implied = true := rfl
  simp only [Scope.call, hunary', hflag, if_true, number?_of_same hv hsame]

/-- The argument is evaluated first and then multiplied, in the call and in the product. -/
lemma plain_callOrProduct (hv : vars.resolve name = some v) (f : String) (pos : ℕ)
    {args args' : List Expr}
    (h : plainAll (scope lib implied (without vars name)) args' =
      plainAll (scope lib implied vars) args) :
    plain (scope lib implied (without vars name)) (callOrProduct lib implied name v f pos args') =
      plain (scope lib implied vars) (.call f pos args) := by
  rw [plain_call, ← h]
  match args' with
  | [e] =>
    rw [callOrProduct]
    by_cases hp : (implied && sameName f name && (lib.functions.unary f).isNone) = true
    · -- the call is a product with the number, and the number takes the place of the name
      rw [if_pos hp]
      simp only [plain, plainAll, bind_assoc, pure_bind, call_of_same hv hp]
      rfl
    · rw [if_neg hp, plain_call]
      exact bind_congr fun xs => call_without fun _ => Bool.eq_false_iff.mpr hp
  | [] =>
    rw [callOrProduct, plain_call]
    · simp only [plainAll, pure_bind]
      exact call_without (by simp)
    · simp
  | a :: b :: rest =>
    rw [callOrProduct, plain_call]
    · simp only [plainAll, bind_assoc, pure_bind]
      exact bind_congr fun x => bind_congr fun y => bind_congr fun ys => call_without (by simp)
    · simp

mutual

lemma plain_replace (hv : vars.resolve name = some v) (e : Expr) :
    plain (scope lib implied (without vars name)) (replace lib implied name v e) =
      plain (scope lib implied vars) e := by
  match e with
  | .number w => rfl
  | .reference x pos =>
    rw [replace]
    cases h : sameName x name with
    | true => rw [if_pos rfl, plain, plain, Scope.reference, number?_of_same hv h]
    | false => rw [if_neg Bool.false_ne_true, plain, plain, reference_without h]
  | .binary op l r =>
    rw [replace, plain, plain, plain_replace hv l, plain_replace hv r]
    rfl
  | .signed sign e => rw [replace, plain, plain, plain_replace hv e]
  | .factorial e =>
    rw [replace, plain, plain, plain_replace hv e]
    rfl
  | .call f pos args => exact plain_callOrProduct hv f pos (plainAll_replaceAll hv args)

lemma plainAll_replaceAll (hv : vars.resolve name = some v) (es : List Expr) :
    plainAll (scope lib implied (without vars name)) (replaceAll lib implied name v es) =
      plainAll (scope lib implied vars) es := by
  match es with
  | [] => rfl
  | e :: rest => rw [replaceAll, plainAll, plainAll, plain_replace hv e, plainAll_replaceAll hv rest]

end

lemma outcome_replace (hv : vars.resolve name = some v) (e : Expr) :
    (scope lib implied (without vars name)).outcome (replace lib implied name v e) =
      (scope lib implied vars).outcome e := by
  rw [Scope.outcome, Scope.outcome, eval_eq, eval_eq, plain_replace hv]

/-! ### Calls that lack their arguments -/

lemma lacksArguments_callOrProduct (s : Scope) (f : String) (pos : ℕ) (args : List Expr) :
    s.lacksArguments (callOrProduct lib implied name v f pos args) =
      s.lacksArguments (.call f pos args) := by
  match args with
  | [] | _ :: _ :: _ => rfl
  | [e] =>
    rw [callOrProduct]
    split
    · simp [Scope.lacksArguments, Scope.anyLacksArguments]
    · rfl

lemma isEmpty_replaceAll (es : List Expr) :
    (replaceAll lib implied name v es).isEmpty = es.isEmpty := by
  cases es <;> rfl

mutual

lemma lacksArguments_replace (e : Expr) :
    (scope lib implied (without vars name)).lacksArguments (replace lib implied name v e) =
      (scope lib implied vars).lacksArguments e := by
  match e with
  | .number w => rfl
  | .reference x pos =>
    rw [replace]
    split <;> rfl
  | .binary op l r =>
    rw [replace, Scope.lacksArguments, Scope.lacksArguments, lacksArguments_replace l,
      lacksArguments_replace r]
  | .signed sign e | .factorial e =>
    rw [replace, Scope.lacksArguments, Scope.lacksArguments, lacksArguments_replace e]
  | .call f pos args =>
    rw [replace, lacksArguments_callOrProduct, Scope.lacksArguments, Scope.lacksArguments,
      isEmpty_replaceAll, anyLacksArguments_replaceAll args]
    rfl

lemma anyLacksArguments_replaceAll (es : List Expr) :
    (scope lib implied (without vars name)).anyLacksArguments (replaceAll lib implied name v es) =
      (scope lib implied vars).anyLacksArguments es := by
  match es with
  | [] => rfl
  | e :: rest =>
    rw [replaceAll, Scope.anyLacksArguments, Scope.anyLacksArguments, lacksArguments_replace e,
      anyLacksArguments_replaceAll rest]

end

/-- **A variable can be replaced by its number.** If the rows give the name a number, then the tree
with that number in its place has without the rows of the name the outcome that the tree has with
them: the same value, or the same report. It lacks arguments of a call just if the tree does. -/
theorem outcomeOfTree_replace (lib : Library) (implied : Bool) (vars : Snapshot) {name : String}
    {v : Double} (h : (Resolver.ofSnapshot vars).resolve name = some v) (e : Expr) :
    (scope lib implied (without vars name)).outcome (replace lib implied name v e) =
        (scope lib implied vars).outcome e ∧
      (scope lib implied (without vars name)).outcomeOfTree (replace lib implied name v e) =
        (scope lib implied vars).outcomeOfTree e := by
  have hv : vars.resolve name = some v := Lookup.resolve_ofSnapshot vars name ▸ h
  refine ⟨outcome_replace hv e, ?_⟩
  rw [Scope.outcomeOfTree, Scope.outcomeOfTree, lacksArguments_replace, outcome_replace hv]

/-- Two rows of the name, which is a function of one argument, a factor and an exponent. -/
theorem outcomeOfTree_replace_factor :
    let lib : Library := ⟨.standard, Functions.empty.withUnary "X" id⟩
    let vars : Snapshot := ⟨[⟨"x", "2"⟩, ⟨"y", "5"⟩, ⟨"X", "z"⟩]⟩
    let e : Expr := .binary .add (.call "x" 0 [.call "X" 2 [.reference "Y" 4]])
      (.binary .pow (.number .one) (.reference "X" 11))
    let e' : Expr := .binary .add (.binary .mul (.number (.ofNat 2)) (.call "X" 2 [.reference "Y" 4]))
      (.binary .pow (.number .one) (.number (.ofNat 2)))
    replace lib true "X" (.ofNat 2) e = e' ∧
      (scope lib true ⟨[⟨"y", "5"⟩]⟩).outcomeOfTree e' = (scope lib true vars).outcomeOfTree e := by
  intro lib vars e e'
  have hx : sameName "x" "X" = true ∧ sameName "X" "X" = true ∧ sameName "Y" "X" = false := by
    decide +kernel
  have hunary : (lib.functions.unary "x").isNone = true ∧
      (lib.functions.unary "X").isNone = false := by
    simp [lib, Functions.withUnary, Functions.empty]
  have hreplace : replace lib true "X" (.ofNat 2) e = e' := by
    simp [e, e', replace, replaceAll, callOrProduct, hx, hunary]
  have hrows : without vars "X" = ⟨[⟨"y", "5"⟩]⟩ := by decide +kernel
  refine ⟨hreplace, ?_⟩
  rw [← hreplace, ← hrows]
  exact (outcomeOfTree_replace lib true vars (by decide +kernel) e).2

end Abacus.Proofs.Substitution
