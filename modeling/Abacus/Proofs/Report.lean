import Mathlib.Tactic.Common
import Abacus.Proofs.Lookup
import Abacus.Proofs.Uses

/-!
The report in closed form. Each of its three lists holds the names that nothing supplies, in the
order of their uses, and of equal names only the first: equal up to case for variables, equal to
the letter for functions.
-/

namespace Abacus.Proofs.Report

open Uses

/-! ### Keeping the first of equal entries -/

section Keep

variable {α : Type*} (same : α → α → Bool)

/-- `x` is added at the end unless there is an entry like it. -/
def keep (kept : List α) (x : α) : List α := if kept.any (same x) then kept else kept ++ [x]

lemma foldl_keep (kept xs : List α) :
    xs.foldl (keep same) kept =
      kept ++ (xs.filter fun x => !kept.any (same x)).eraseDupsBy same := by
  induction xs generalizing kept with
  | nil => simp
  | cons x xs ih =>
    rw [List.foldl_cons, ih, keep]
    by_cases h : kept.any (same x) = true
    · simp [h]
    · -- the new one is kept, so its like is dropped from the rest
      have h' : kept.any (same x) = false := by simpa using h
      simp only [h', Bool.false_eq_true, if_false, List.any_append, List.any_cons, List.any_nil,
        Bool.or_false, List.filter_cons, Bool.not_false, if_true, List.eraseDupsBy_cons,
        List.filter_filter, List.append_assoc, List.singleton_append]
      congr 4
      funext y
      cases same y x <;> simp

lemma foldl_keep_nil (xs : List α) : xs.foldl (keep same) [] = xs.eraseDupsBy same := by
  rw [foldl_keep, List.nil_append, List.filter_eq_self.mpr (by simp)]

end Keep

section FirstOfEqual

variable {α : Type*} {same : α → α → Bool}

/-- Of a filtered list the first entries are those of the list that pass, if of two like entries
both pass or none. -/
lemma filter_eraseDupsBy {p : α → Bool} (hp : ∀ a b, same a b = true → p a = p b) (xs : List α) :
    (xs.eraseDupsBy same).filter p = (xs.filter p).eraseDupsBy same := by
  match xs with
  | [] => rfl
  | x :: xs =>
    have ih := filter_eraseDupsBy hp (xs.filter fun y => same y x = false)
    rw [List.eraseDupsBy_cons, List.filter_cons, List.filter_cons, ih, List.filter_filter]
    by_cases hx : p x = true
    · simp only [hx, if_true, List.eraseDupsBy_cons, List.filter_filter]
      congr 3
      funext y
      exact Bool.and_comm _ _
    · -- what is like the first one fails the test with it, so nothing is lost by leaving it in
      rw [if_neg hx, if_neg hx]
      congr 1
      refine List.filter_congr fun y _ => ?_
      cases hy : same y x with
      | false => simp
      | true => simp [hp y x hy, hx]
termination_by xs.length
decreasing_by
  exact Nat.lt_succ_of_le (List.length_filter_le _ _)

lemma filter_eraseDups [BEq α] [LawfulBEq α] (p : α → Bool) (xs : List α) :
    xs.eraseDups.filter p = (xs.filter p).eraseDups :=
  filter_eraseDupsBy (fun _ _ h => congrArg p (eq_of_beq h)) xs

/-- Every entry is like one that stays. -/
lemma exists_mem_eraseDupsBy (hrefl : ∀ a, same a a = true) {xs : List α} {a : α} (ha : a ∈ xs) :
    ∃ b ∈ xs.eraseDupsBy same, same a b = true := by
  match xs with
  | x :: xs =>
    rw [List.eraseDupsBy_cons]
    cases hx : same a x with
    | true => exact ⟨x, by simp, hx⟩
    | false =>
      have hmem : a ∈ xs.filter fun y => same y x = false := by
        rcases List.mem_cons.mp ha with rfl | ha
        · simp [hrefl] at hx
        · exact List.mem_filter.mpr ⟨ha, by simp [hx]⟩
      obtain ⟨b, hb, hab⟩ := exists_mem_eraseDupsBy hrefl hmem
      exact ⟨b, List.mem_cons_of_mem _ hb, hab⟩
termination_by xs.length
decreasing_by
  exact Nat.lt_succ_of_le (List.length_filter_le _ _)

lemma mem_of_mem_eraseDupsBy {xs : List α} {a : α} (ha : a ∈ xs.eraseDupsBy same) : a ∈ xs := by
  match xs with
  | [] => simp at ha
  | x :: xs =>
    rw [List.eraseDupsBy_cons, List.mem_cons] at ha
    rcases ha with rfl | ha
    · exact List.mem_cons_self
    · exact List.mem_cons_of_mem _ (List.mem_filter.mp (mem_of_mem_eraseDupsBy ha)).1
termination_by xs.length
decreasing_by
  exact Nat.lt_succ_of_le (List.length_filter_le _ _)

/-- No two entries that stay are like each other. -/
lemma eq_of_mem_eraseDupsBy (hsymm : ∀ a b, same a b = same b a) {xs : List α} {a b : α}
    (ha : a ∈ xs.eraseDupsBy same) (hb : b ∈ xs.eraseDupsBy same) (hab : same a b = true) :
    a = b := by
  match xs with
  | [] => simp at ha
  | x :: xs =>
    rw [List.eraseDupsBy_cons, List.mem_cons] at ha hb
    have hother : ∀ y ∈ (xs.filter fun y => same y x = false).eraseDupsBy same,
        same y x = false := fun y hy => by
      simpa using (List.mem_filter.mp (mem_of_mem_eraseDupsBy hy)).2
    rcases ha with rfl | ha
    · rcases hb with rfl | hb
      · rfl
      · rw [hsymm, hother b hb] at hab
        exact absurd hab (by simp)
    · rcases hb with rfl | hb
      · rw [hother a ha] at hab
        exact absurd hab (by simp)
      · exact eq_of_mem_eraseDupsBy hsymm ha hb hab
termination_by xs.length
decreasing_by
  exact Nat.lt_succ_of_le (List.length_filter_le _ _)

end FirstOfEqual

/-! ### The three lists -/

/-- Equal up to case. -/
def sameName (a b : String) : Bool := Text.lower a == Text.lower b

lemma sameName_refl (a : String) : sameName a a = true := by simp [sameName]

lemma sameName_comm (a b : String) : sameName a b = sameName b a := Bool.beq_comm

/-- A variable that answers to a name answers to no other. -/
lemma answersTo_eq_false {v : Variable} {a b : String} (h : v.answersTo a = true)
    (hab : sameName b a = false) : v.answersTo b = false := by
  rw [Variable.answersTo, eq_of_beq h, ← hab, sameName, Bool.beq_comm]

lemma addReference_eq (m : Missing) (name : String) :
    m.addReference name = { m with references := keep sameName m.references name } := by
  have h : (m.references.any fun a => Text.lower a == Text.lower name) =
      m.references.any (sameName name) := by
    congr 1
    funext a
    exact Bool.beq_comm
  simp only [Missing.addReference, keep, h]
  split <;> rfl

lemma addFunction_one (m : Missing) (name : String) :
    m.addFunction name 1 = { m with unary := keep (· == ·) m.unary name } := by
  simp only [Missing.addFunction, keep, List.contains_eq_any_beq, if_true]
  split <;> rfl

lemma addFunction_of_ne {n : ℕ} (hn : n ≠ 1) (m : Missing) (name : String) :
    m.addFunction name n = { m with binary := keep (· == ·) m.binary name } := by
  simp only [Missing.addFunction, keep, List.contains_eq_any_beq, hn, if_false]
  split <;> rfl

variable (s : Scope)

/-- The names used as variables that have no number. -/
def missingReferences (names : List String) : List String := names.filter (!known s ·)

/-- The names of the calls with one argument that nothing supplies. -/
def missingUnary (cs : List (String × ℕ)) : List String :=
  (cs.filter fun c => c.2 == 1 && !callable s c.1 c.2).map (·.1)

/-- The names of the other calls that nothing supplies. -/
def missingBinary (cs : List (String × ℕ)) : List String :=
  (cs.filter fun c => c.2 != 1 && !callable s c.1 c.2).map (·.1)

lemma foldl_note (us : List Use) (m : Missing) :
    us.foldl (note s) m =
      ⟨(missingReferences s (references us)).foldl (keep sameName) m.references,
        (missingUnary s (calls us)).foldl (keep (· == ·)) m.unary,
        (missingBinary s (calls us)).foldl (keep (· == ·)) m.binary⟩ := by
  induction us generalizing m with
  | nil => rfl
  | cons u us ih =>
    rw [List.foldl_cons, ih]
    cases u with
    | reference name =>
      cases h : known s name <;>
        simp [note, h, references, calls, missingReferences, addReference_eq]
    | call name arity =>
      by_cases h1 : arity = 1
      · subst h1
        cases h : callable s name 1 <;>
          simp [note, h, references, calls, missingUnary, missingBinary, addFunction_one]
      · cases h : callable s name arity <;>
          simp [note, h, h1, references, calls, missingUnary, missingBinary, addFunction_of_ne]

/-- **The report in closed form.** -/
theorem report_eq (us : List Use) :
    report s us =
      ⟨(missingReferences s (references us)).eraseDupsBy sameName,
        (missingUnary s (calls us)).eraseDups, (missingBinary s (calls us)).eraseDups⟩ := by
  rw [report, foldl_note]
  simp only [Missing.none, foldl_keep_nil]
  rfl

/-! ### Nothing missing -/

lemma eraseDupsBy_eq_nil {α : Type*} {same : α → α → Bool} {xs : List α} :
    xs.eraseDupsBy same = [] ↔ xs = [] := by
  cases xs with
  | nil => simp
  | cons x xs => simp [List.eraseDupsBy_cons]

lemma isEmpty_iff {m : Missing} :
    m.isEmpty = true ↔ m.references = [] ∧ m.unary = [] ∧ m.binary = [] := by
  simp [Missing.isEmpty, and_assoc]

/-- The report is empty just if every use is supplied. -/
lemma isEmpty_report (us : List Use) :
    (report s us).isEmpty = true ↔
      (∀ name ∈ references us, known s name = true) ∧
        ∀ c ∈ calls us, callable s c.1 c.2 = true := by
  rw [report_eq, isEmpty_iff]
  simp only [List.eraseDups, eraseDupsBy_eq_nil, missingReferences, missingUnary, missingBinary,
    List.map_eq_nil_iff, List.filter_eq_nil_iff]
  refine and_congr (by simp) ⟨?_, ?_⟩
  · rintro ⟨h, h'⟩ c hc
    have h1 := h c hc
    have h2 := h' c hc
    by_cases hn : c.2 = 1 <;> simp_all
  · intro h
    exact ⟨fun c hc => by simp [h c hc], fun c hc => by simp [h c hc]⟩

/-! ### A calculation -/

section Calculation

variable (lib : Library) (implied : Bool) (vars : Snapshot)

/-- What a calculation evaluates its tree with. -/
def scope : Scope := ⟨lib.maths, lib.functions, .ofSnapshot vars, implied⟩

/-- The first variable that answers to the name has a number, or there is a constant of the name. -/
def nameSupplied (name : String) : Bool :=
  (vars.resolve name).isSome || (lib.functions.constant name).isSome

lemma known_scope (name : String) :
    known (scope lib implied vars) name = nameSupplied lib vars name := by
  have hr : (scope lib implied vars).resolver.resolve name = vars.resolve name :=
    Lookup.resolve_ofSnapshot vars name
  rw [known, Scope.number?, hr, nameSupplied]
  cases vars.resolve name <;> rfl

variable {implied}

lemma calculate_of_parse {source : String} {e : Expr} (h : Expr.parse implied source = .ok e) :
    lib.calculate implied source vars = (scope lib implied vars).outcome e := by
  rw [Library.calculate, Compiled.ofSource, h]
  rfl

/-- Only a source that is read comes to anything but a failure. -/
lemma exists_parse {source : String} {o : Outcome} (h : lib.calculate implied source vars = o)
    (ho : ∀ f, o ≠ .failure f) : ∃ e, Expr.parse implied source = .ok e := by
  cases hp : Expr.parse implied source with
  | ok e => exact ⟨e, rfl⟩
  | error f =>
    rw [Library.calculate, Compiled.ofSource, hp] at h
    exact absurd h.symm (ho f)

end Calculation

end Abacus.Proofs.Report
