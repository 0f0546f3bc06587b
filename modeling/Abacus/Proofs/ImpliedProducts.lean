import Abacus.Elementary.Standard
import Abacus.Proofs.Recovery
import Abacus.Proofs.Report

/-!
Multiplying neighbours changes nothing for the sources that are read without it: they keep their
tree, the tree keeps its number, and of what was missing only those functions are supplied whose
name has a number.
-/

namespace Abacus.Proofs.ImpliedProducts

open Grammar Uses Report

/-! ### Trees -/

/-- The same derivation where neighbours may be multiplied. -/
def lift {r : Rule} : Derivation false r → Derivation true r
  | .sum first tail => .sum (lift first) (lift tail)
  | .sumEnd => .sumEnd
  | .sumLink t op h term tail => .sumLink t op h (lift term) (lift tail)
  | .product first tail => .product (lift first) (lift tail)
  | .productEnd => .productEnd
  | .productLink t op h factor tail => .productLink t op h (lift factor) (lift tail)
  | .sign t s h e => .sign t s h (lift e)
  | .unsigned e => .unsigned (lift e)
  | .base e => .base (lift e)
  | .raised e t h exponent => .raised (lift e) t h (lift exponent)
  | .factorial e bangs h => .factorial (lift e) bangs h
  | .number t v h => .number t v h
  | .name t h => .name t h
  | .group o c ho hc e => .group o c ho hc (lift e)
  | .call f o c hf ho hc arg => .call f o c hf ho hc (lift arg)
  | .callTwo f o m c hf ho hm hc arg arg' =>
    .callTwo f o m c hf ho hm hc (lift arg) (lift arg')

variable {r : Rule}

lemma leaves_lift (d : Derivation false r) (n : ℕ) : (lift d).leaves n = d.leaves n := by
  induction d generalizing n with
  | neighbour h => exact absurd h (by simp)
  | _ => simp [lift, Derivation.leaves, *]

lemma tree_lift (d : Derivation false r) : (lift d).tree = d.tree := by
  induction d with
  | neighbour h => exact absurd h (by simp)
  | _ => simp [lift, Derivation.tree, *]

lemma derives_lift {d : Derivation false .sum} {ts : List Token} (h : d.Derives ts) :
    (lift d).Derives ts where
  tokens := by
    rw [← Derivation.map_token_leaves _ 0, leaves_lift, Derivation.map_token_leaves, h.tokens]
  calls := by rw [leaves_lift]; exact h.calls
  levels := by rw [leaves_lift]; exact h.levels

lemma parse_true {source : String} {e : Expr} (h : Expr.parse false source = .ok e) :
    Expr.parse true source = .ok e := by
  obtain ⟨ts, hs⟩ := scan_of_parse h
  obtain ⟨d, hd, rfl⟩ := (parse_ok_iff hs).mp h
  exact (parse_ok_iff hs).mpr ⟨lift d, derives_lift hd, tree_lift d⟩

/-! ### Numbers -/

variable (lib : Library) (vars : Snapshot)

lemma callValue_true {name : String} {args : List Double}
    (h : args.length = 1 → (lib.functions.unary name).isSome = true) :
    callValue (scope lib true vars) name args = callValue (scope lib false vars) name args := by
  rcases args with _ | ⟨x, _ | ⟨y, rest⟩⟩
  · rfl
  · obtain ⟨f, hf⟩ := Option.isSome_iff_exists.mp (h rfl)
    simp [callValue, Scope.call, scope, hf]
  · rfl

mutual

/-- The number of a tree does not change if each call of one argument in it has its function. -/
lemma value_true (e : Expr)
    (h : ∀ c ∈ calls (uses e), c.2 = 1 → (lib.functions.unary c.1).isSome = true) :
    value (scope lib true vars) e = value (scope lib false vars) e := by
  match e with
  | .number v => rfl
  | .reference name _ => rfl
  | .signed s e => rw [value, value, value_true e h]
  | .factorial e => rw [value, value, value_true e h]; rfl
  | .binary op l r =>
    rw [uses, calls_append, List.forall_mem_append] at h
    rw [value, value, value_true l h.1, value_true r h.2]
    rfl
  | .call name _ args =>
    rw [uses, calls_append, List.forall_mem_append] at h
    have hcall := h.2 (name, args.length) (by simp [calls])
    rw [value, value, values_true args h.1]
    exact callValue_true lib vars (by rwa [length_values])

lemma values_true (es : List Expr)
    (h : ∀ c ∈ calls (usesAll es), c.2 = 1 → (lib.functions.unary c.1).isSome = true) :
    values (scope lib true vars) es = values (scope lib false vars) es := by
  match es with
  | [] => rfl
  | e :: rest =>
    rw [usesAll, calls_append, List.forall_mem_append] at h
    rw [values, values, value_true e h.1, values_true rest h.2]

end

/-! ### Reports -/

/-- The report without the functions whose name has a number. -/
def withoutProducts (m : Missing) : Missing :=
  { m with unary := m.unary.filter (!nameSupplied lib vars ·) }

lemma missingUnary_true (cs : List (String × ℕ)) :
    missingUnary (scope lib true vars) cs =
      (missingUnary (scope lib false vars) cs).filter (!nameSupplied lib vars ·) := by
  rw [missingUnary, missingUnary, List.filter_map, List.filter_filter]
  refine congrArg (List.map _) (List.filter_congr fun c _ => ?_)
  obtain ⟨name, n⟩ := c
  by_cases hn : n = 1
  · subst hn
    have hk := known_scope lib true vars name
    simp only [callable, if_true, hk, Function.comp]
    simp [scope, Bool.and_comm]
  · have hne : (n == 1) = false := by simpa using hn
    simp [hne]

lemma missingBinary_true (cs : List (String × ℕ)) :
    missingBinary (scope lib true vars) cs = missingBinary (scope lib false vars) cs := by
  refine congrArg (List.map _) (List.filter_congr fun c _ => ?_)
  by_cases hn : c.2 = 1 <;> simp [callable, hn, scope]

lemma report_true (us : List Use) :
    report (scope lib true vars) us =
      withoutProducts lib vars (report (scope lib false vars) us) := by
  rw [report_eq, report_eq, withoutProducts, filter_eraseDups, missingUnary_true,
    missingBinary_true]
  simp only [missingReferences, known_scope]

/-- Nothing missing means in particular that each call of one argument has its function. -/
lemma unary_of_isEmpty {us : List Use} (h : (report (scope lib false vars) us).isEmpty = true) :
    ∀ c ∈ calls us, c.2 = 1 → (lib.functions.unary c.1).isSome = true := by
  intro c hc hone
  have hcall := ((isEmpty_report _ us).mp h).2 c hc
  simpa [callable, hone, scope] using hcall

lemma isEmpty_withoutProducts {m : Missing} (h : m.isEmpty = true) :
    (withoutProducts lib vars m).isEmpty = true := by
  obtain ⟨hr, hu, hb⟩ := isEmpty_iff.mp h
  exact isEmpty_iff.mpr ⟨hr, by rw [withoutProducts, hu]; rfl, hb⟩

/-- **Multiplying neighbours is conservative**: it keeps every tree and every number, and of what is
missing it supplies just the functions of one argument whose name has a number. -/
theorem implied_conservative (source : String) :
    (∀ e, Expr.parse false source = .ok e → Expr.parse true source = .ok e) ∧
      (∀ v, lib.calculate false source vars = .value v →
        lib.calculate true source vars = .value v) ∧
      ∀ m, lib.calculate false source vars = .unresolved m →
        if (withoutProducts lib vars m).isEmpty then
          ∃ v, lib.calculate true source vars = .value v
        else lib.calculate true source vars = .unresolved (withoutProducts lib vars m) := by
  refine ⟨fun e => parse_true, fun v hv => ?_, fun m hm => ?_⟩
  · obtain ⟨e, he⟩ := exists_parse lib vars hv (by simp)
    rw [calculate_of_parse lib vars he, outcome_eq] at hv
    rw [calculate_of_parse lib vars (parse_true he), outcome_eq, report_true]
    split at hv
    · rename_i hempty
      -- no name is missing, so every call of one argument has a function
      rw [if_pos (isEmpty_withoutProducts lib vars hempty), ← hv,
        value_true lib vars e (unary_of_isEmpty lib vars hempty)]
    · simp at hv
  · obtain ⟨e, he⟩ := exists_parse lib vars hm (by simp)
    rw [calculate_of_parse lib vars he, outcome_eq] at hm
    rw [calculate_of_parse lib vars (parse_true he), outcome_eq, report_true]
    split at hm
    · simp at hm
    · obtain rfl := Outcome.unresolved.inj hm
      split
      · exact ⟨_, rfl⟩
      · rfl

/-- A variable in the place of a function is missing only where neighbours are not multiplied. -/
theorem implied_conservative_variable :
    Library.calculate ⟨.standard, .empty⟩ true "b+a(3)" ⟨[⟨"a", "2"⟩]⟩ =
      .unresolved ⟨["b"], [], []⟩ := by
  have hm : Library.calculate ⟨.standard, .empty⟩ false "b+a(3)" ⟨[⟨"a", "2"⟩]⟩ =
      .unresolved ⟨["b"], ["a"], []⟩ := by decide +kernel
  have hw : withoutProducts ⟨.standard, .empty⟩ ⟨[⟨"a", "2"⟩]⟩ ⟨["b"], ["a"], []⟩ =
      ⟨["b"], [], []⟩ := by decide +kernel
  have h := (implied_conservative _ _ _).2.2 _ hm
  rw [hw] at h
  exact h

end Abacus.Proofs.ImpliedProducts
