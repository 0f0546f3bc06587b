import Abacus.Elementary.Standard
import Abacus.Proofs.Recovery
import Abacus.Proofs.Report
import Abacus.Proofs.SourceOrder

/-!
The outcome of a calculation read off the tokens of its source: a number if everything that the
source names is supplied, and otherwise a report of what is not, in source order. Neither depends on
any number on the way.
-/

namespace Abacus.Proofs.SourceReport

open Grammar Uses Report SourceOrder

variable (lib : Library) (implied : Bool) (vars : Snapshot)

/-- There is a function of as many arguments, or the call of one argument stands for a product. -/
def callSupplied (c : String × ℕ) : Bool :=
  if c.2 = 1 then
    (lib.functions.unary c.1).isSome || (implied && nameSupplied lib vars c.1)
  else (lib.functions.binary c.1).isSome

def Supplied (ts : List Token) : Prop :=
  (∀ name ∈ names ts, nameSupplied lib vars name = true) ∧
    ∀ c ∈ closedCalls ts, callSupplied lib implied vars c = true

/-- The calls with `n` arguments that nothing supplies. -/
def callsLacking (n : ℕ) (ts : List Token) : List String :=
  ((closedCalls ts).filter fun c => c.2 = n && !callSupplied lib implied vars c).map (·.1)

/-- What nothing supplies: of names of variables that are equal up to case the first, and of equal
names of functions the first. -/
def shortfall (ts : List Token) : Missing where
  references := ((names ts).filter (!nameSupplied lib vars ·)).eraseDupsBy sameName
  unary := (callsLacking lib implied vars 1 ts).eraseDups
  binary := (callsLacking lib implied vars 2 ts).eraseDups

lemma callable_scope (name : String) (n : ℕ) :
    callable (scope lib implied vars) name n = callSupplied lib implied vars (name, n) := by
  rw [callable, known_scope]
  rfl

variable {implied} {ts : List Token}

lemma supplied_iff {d : Derivation implied .sum} (h : d.Derives ts) :
    (report (scope lib implied vars) (uses d.tree)).isEmpty = true ↔
      Supplied lib implied vars ts := by
  obtain ⟨hn, hc, -⟩ := uses_of_derives h
  simp only [isEmpty_report, known_scope, callable_scope, hn, hc]
  rfl

lemma report_eq_shortfall {d : Derivation implied .sum} (h : d.Derives ts) :
    report (scope lib implied vars) (uses d.tree) = shortfall lib implied vars ts := by
  obtain ⟨hn, hc, ha⟩ := uses_of_derives h
  have h2 : missingBinary (scope lib implied vars) (closedCalls ts) =
      callsLacking lib implied vars 2 ts := by
    refine congrArg (List.map _) (List.filter_congr fun c hmem => ?_)
    obtain ⟨name, n⟩ := c
    obtain rfl | rfl : n = 1 ∨ n = 2 := ha _ hmem <;> simp [callable_scope]
  rw [report_eq, hn, hc, h2]
  simp only [missingReferences, missingUnary, known_scope, callable_scope]
  rfl

/-- **The report is exact.** A source that is read has a number just if everything it names is
supplied, and otherwise what is not is reported in source order. -/
theorem calculate_exact {source : String} {e : Expr} (hs : Token.scan source = .ok ts)
    (hp : Expr.parse implied source = .ok e) :
    ((∃ v, lib.calculate implied source vars = .value v) ↔ Supplied lib implied vars ts) ∧
      (¬ Supplied lib implied vars ts →
        lib.calculate implied source vars = .unresolved (shortfall lib implied vars ts)) := by
  obtain ⟨d, hd, rfl⟩ := (parse_ok_iff hs).mp hp
  rw [calculate_of_parse lib vars hp, outcome_eq, report_eq_shortfall lib vars hd]
  have hiff := supplied_iff lib vars hd
  rw [report_eq_shortfall lib vars hd] at hiff
  by_cases hsup : Supplied lib implied vars ts
  · simp [hsup, hiff.mpr hsup]
  · have hne : ¬ (shortfall lib implied vars ts).isEmpty = true := fun he => hsup (hiff.mp he)
    simp [hsup, hne]

/-- A variable that is written twice, and a function that is missing with two arguments. -/
theorem calculate_exact_missing :
    Library.calculate ⟨.standard, .empty⟩ false "x+g(1,X)" ⟨[]⟩ =
      .unresolved ⟨["x"], [], ["g"]⟩ := by
  let ts : List Token := (Token.scan "x+g(1,X)").toOption.getD []
  have hs : Token.scan "x+g(1,X)" = .ok ts := by decide +kernel
  obtain ⟨e, hp⟩ := exists_of_isOk (x := Expr.parse false "x+g(1,X)") (by decide +kernel)
  have hsup : ¬ Supplied ⟨.standard, .empty⟩ false ⟨[]⟩ ts := by
    unfold Supplied
    decide +kernel
  have hm : shortfall ⟨.standard, .empty⟩ false ⟨[]⟩ ts = ⟨["x"], [], ["g"]⟩ := by decide +kernel
  rw [(calculate_exact _ _ hs hp).2 hsup, hm]

end Abacus.Proofs.SourceReport
