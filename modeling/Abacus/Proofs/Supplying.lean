import Mathlib.Tactic.Common
import Abacus.Elementary.Standard
import Abacus.Proofs.Report

/-!
Supplying what a report asks for. Rows with numbers go in front of the variables and functions on
top of the table, so each name among them is supplied from then on, and no other name is. With
everything supplied that the report of a source asks for, the source has a number. With less, and
without products of neighbours, what was not supplied is reported, in the order in which it was.
-/

namespace Abacus

/-- Rows and functions to be put before those that are there; every row has a number. -/
structure Supply where
  rows : List Variable
  unary : List (String × (Double → Double))
  binary : List (String × (Double → Double → Double))
  numeric : ∀ v ∈ rows, v.number?.isSome

namespace Supply

open Proofs Report Uses

variable (s : Supply)

def snapshot (vars : Snapshot) : Snapshot := ⟨s.rows ++ vars.toList⟩

def functions (t : Functions) : Functions :=
  s.binary.foldl (fun t f => t.withBinary f.1 f.2)
    (s.unary.foldl (fun t f => t.withUnary f.1 f.2) t)

def library (lib : Library) : Library := { lib with functions := s.functions lib.functions }

def rowNames : List String := s.rows.map (·.name)

def unaryNames : List String := s.unary.map (·.1)

def binaryNames : List String := s.binary.map (·.1)

/-- All that the report asks for, and perhaps more. -/
structure Covers (m : Missing) : Prop where
  references : m.references ⊆ s.rowNames
  unary : m.unary ⊆ s.unaryNames
  binary : m.binary ⊆ s.binaryNames

/-- Nothing but what the report asks for. -/
structure Within (m : Missing) : Prop where
  references : s.rowNames ⊆ m.references
  unary : s.unaryNames ⊆ m.unary
  binary : s.binaryNames ⊆ m.binary

/-- The entries of the report that are not supplied. -/
def left (m : Missing) : Missing where
  references := m.references.filter (· ∉ s.rowNames)
  unary := m.unary.filter (· ∉ s.unaryNames)
  binary := m.binary.filter (· ∉ s.binaryNames)

/-! ### The names that are supplied -/

section Tables

variable {β γ : Type} (add : Functions → String × β → Functions)

/-- A table that entries are put into has the names of before and theirs. -/
lemma isSome_foldl (table : Functions → String → Option β)
    (hadd : ∀ t f name,
      (table (add t f) name).isSome = ((table t name).isSome || decide (name = f.1)))
    (fs : List (String × β)) (t : Functions) (name : String) :
    (table (fs.foldl add t) name).isSome =
      ((table t name).isSome || decide (name ∈ fs.map (·.1))) := by
  induction fs generalizing t with
  | nil => simp
  | cons f fs ih =>
    rw [List.foldl_cons, ih, hadd, Bool.or_assoc, List.map_cons]
    simp only [List.mem_cons, Bool.decide_or]

/-- What no entry changes stays the same. -/
lemma foldl_same (part : Functions → γ) (hadd : ∀ t f, part (add t f) = part t)
    (fs : List (String × β)) (t : Functions) : part (fs.foldl add t) = part t := by
  induction fs generalizing t with
  | nil => rfl
  | cons f fs ih => rw [List.foldl_cons, ih, hadd]

end Tables

lemma constant_functions (t : Functions) : (s.functions t).constant = t.constant := by
  rw [functions, foldl_same (fun t f => t.withBinary f.1 f.2) Functions.constant fun _ _ => rfl,
    foldl_same (fun t f => t.withUnary f.1 f.2) Functions.constant fun _ _ => rfl]

lemma isSome_unary (t : Functions) (name : String) :
    ((s.functions t).unary name).isSome =
      ((t.unary name).isSome || decide (name ∈ s.unaryNames)) := by
  rw [functions, foldl_same (fun t f => t.withBinary f.1 f.2) Functions.unary fun _ _ => rfl,
    isSome_foldl (fun t f => t.withUnary f.1 f.2) Functions.unary]
  · rfl
  · intro t f name
    by_cases hname : name = f.1 <;> simp [Functions.withUnary, hname]

lemma isSome_binary (t : Functions) (name : String) :
    ((s.functions t).binary name).isSome =
      ((t.binary name).isSome || decide (name ∈ s.binaryNames)) := by
  rw [functions, isSome_foldl (fun t f => t.withBinary f.1 f.2) Functions.binary,
    foldl_same (fun t f => t.withUnary f.1 f.2) Functions.binary fun _ _ => rfl]
  · rfl
  · intro t f name
    by_cases hname : name = f.1 <;> simp [Functions.withBinary, hname]

/-- A row answers to every name that differs from its own in case only. -/
def answersTo (name : String) : Bool := s.rowNames.any (sameName name)

lemma isSome_resolve (vars : Snapshot) (name : String) :
    ((s.snapshot vars).resolve name).isSome =
      ((vars.resolve name).isSome || s.answersTo name) := by
  have hany : s.answersTo name = s.rows.any (·.answersTo name) := by
    rw [answersTo, rowNames, List.any_map]
    congr 1
    funext v
    exact Bool.beq_comm
  rw [hany, Snapshot.resolve, Snapshot.find?, snapshot, List.find?_append]
  cases hfind : s.rows.find? (·.answersTo name) with
  | none =>
    have hnone : s.rows.any (·.answersTo name) = false := by
      simpa using List.find?_eq_none.mp hfind
    rw [hnone, Bool.or_false]
    rfl
  | some v =>
    have hsome : s.rows.any (·.answersTo name) = true :=
      List.any_eq_true.mpr ⟨v, List.mem_of_find?_eq_some hfind,
        by simpa using List.find?_some hfind⟩
    rw [hsome, Bool.or_true]
    exact s.numeric v (List.mem_of_find?_eq_some hfind)

variable (lib : Library) (vars : Snapshot)

lemma nameSupplied_supply (name : String) :
    nameSupplied (s.library lib) (s.snapshot vars) name =
      (nameSupplied lib vars name || s.answersTo name) := by
  rw [nameSupplied, nameSupplied, isSome_resolve, library, constant_functions]
  cases (vars.resolve name).isSome <;> cases s.answersTo name <;> simp

/-- What the tree is evaluated with once the names are supplied. -/
abbrev scope (implied : Bool) : Scope :=
  Report.scope (s.library lib) implied (s.snapshot vars)

lemma known_supply (implied : Bool) (name : String) :
    known (s.scope lib vars implied) name =
      (known (Report.scope lib implied vars) name || s.answersTo name) := by
  rw [known_scope, known_scope, nameSupplied_supply]

/-- A call of one argument has its function from before or a supplied one, or it is a product. -/
lemma callable_one (implied : Bool) (name : String) :
    callable (s.scope lib vars implied) name 1 =
      (callable (Report.scope lib implied vars) name 1 || decide (name ∈ s.unaryNames) ||
        (implied && s.answersTo name)) := by
  have hu := s.isSome_unary lib.functions name
  have hk := s.known_supply lib vars implied name
  simp only [callable, if_true, hk]
  simp only [Report.scope, library, hu]
  generalize known _ name = k
  generalize (lib.functions.unary name).isSome = u
  generalize decide (name ∈ s.unaryNames) = d
  generalize s.answersTo name = a
  cases implied <;> cases u <;> cases d <;> cases k <;> rfl

lemma callable_of_ne (implied : Bool) (name : String) {n : ℕ} (hn : n ≠ 1) :
    callable (s.scope lib vars implied) name n =
      (callable (Report.scope lib implied vars) name n || decide (name ∈ s.binaryNames)) := by
  have hb := s.isSome_binary lib.functions name
  simp only [callable, if_neg hn]
  exact hb

/-! ### Reports -/

lemma answersTo_congr {a b : String} (h : sameName a b = true) :
    s.answersTo a = s.answersTo b := by
  have hlower : Text.lower a = Text.lower b := by simpa [sameName] using h
  have hsame : sameName a = sameName b := funext fun row => by rw [sameName, sameName, hlower]
  rw [answersTo, answersTo, hsame]

/-- With everything supplied that was reported, nothing is. -/
lemma isEmpty_of_covers {implied : Bool} {us : List Use}
    (h : s.Covers (report (Report.scope lib implied vars) us)) :
    (report (s.scope lib vars implied) us).isEmpty = true := by
  rw [report_eq] at h
  obtain ⟨hr, hu, hb⟩ := h
  refine (isEmpty_report _ us).mpr ⟨fun name hname => ?_, fun c hc => ?_⟩
  · rw [known_supply]
    by_cases hknown : known (Report.scope lib implied vars) name = true
    · simp [hknown]
    · -- the entry of the report may be spelled otherwise
      have hmem : name ∈ missingReferences (Report.scope lib implied vars) (references us) :=
        List.mem_filter.mpr ⟨hname, by simpa using hknown⟩
      obtain ⟨b, hb, hsame⟩ := exists_mem_eraseDupsBy sameName_refl hmem
      have hanswers : s.answersTo name = true := List.any_eq_true.mpr ⟨b, hr hb, hsame⟩
      simp [hanswers]
  · obtain ⟨name, n⟩ := c
    by_cases hcall : callable (Report.scope lib implied vars) name n = true
    · by_cases hn : n = 1
      · subst hn
        simp [callable_one, hcall]
      · simp [callable_of_ne s lib vars implied name hn, hcall]
    · by_cases hn : n = 1
      · subst hn
        have hmem : name ∈ missingUnary (Report.scope lib implied vars) (calls us) :=
          List.mem_map.mpr ⟨(name, 1), List.mem_filter.mpr ⟨hc, by simpa using hcall⟩, rfl⟩
        have hname : name ∈ s.unaryNames := hu (List.mem_eraseDups.mpr hmem)
        simp [callable_one, hname]
      · have hmem : name ∈ missingBinary (Report.scope lib implied vars) (calls us) :=
          List.mem_map.mpr ⟨(name, n), List.mem_filter.mpr ⟨hc, by simpa [hn] using hcall⟩, rfl⟩
        have hname : name ∈ s.binaryNames := hb (List.mem_eraseDups.mpr hmem)
        simp [callable_of_ne s lib vars implied name hn, hname]

lemma missingReferences_supply (implied : Bool) (names : List String) :
    missingReferences (s.scope lib vars implied) names =
      (missingReferences (Report.scope lib implied vars) names).filter (!s.answersTo ·) := by
  rw [missingReferences, missingReferences, List.filter_filter]
  refine List.filter_congr fun name _ => ?_
  rw [known_supply]
  cases s.answersTo name <;> simp

lemma missingUnary_supply (cs : List (String × ℕ)) :
    missingUnary (s.scope lib vars false) cs =
      (missingUnary (Report.scope lib false vars) cs).filter (· ∉ s.unaryNames) := by
  rw [missingUnary, missingUnary, List.filter_map, List.filter_filter]
  refine congrArg (List.map _) (List.filter_congr fun c _ => ?_)
  obtain ⟨name, n⟩ := c
  by_cases hn : n = 1
  · subst hn
    simp [callable_one, Bool.and_comm]
  · have hne : (n == 1) = false := by simpa using hn
    simp [hne]

lemma missingBinary_supply (implied : Bool) (cs : List (String × ℕ)) :
    missingBinary (s.scope lib vars implied) cs =
      (missingBinary (Report.scope lib implied vars) cs).filter (· ∉ s.binaryNames) := by
  rw [missingBinary, missingBinary, List.filter_map, List.filter_filter]
  refine congrArg (List.map _) (List.filter_congr fun c _ => ?_)
  obtain ⟨name, n⟩ := c
  by_cases hn : n = 1
  · simp [hn]
  · have hne : (n != 1) = true := by simpa using hn
    simp [hne, callable_of_ne s lib vars implied name hn, Bool.and_comm]

/-- Of a report on variables a row supplies no entry but the one that it is named after. -/
lemma answersTo_iff_mem {names : List String} {name : String}
    (hrows : s.rowNames ⊆ names.eraseDupsBy sameName) (hname : name ∈ names.eraseDupsBy sameName) :
    s.answersTo name = true ↔ name ∈ s.rowNames := by
  refine ⟨fun h => ?_, fun h => List.any_eq_true.mpr ⟨name, h, sameName_refl name⟩⟩
  obtain ⟨row, hrow, hsame⟩ := List.any_eq_true.mp h
  exact eq_of_mem_eraseDupsBy sameName_comm hname (hrows hrow) hsame ▸ hrow

/-- **A report after supplying** names of the report is what is left of it. -/
lemma report_supply {us : List Use} (h : s.Within (report (Report.scope lib false vars) us)) :
    report (s.scope lib vars false) us = s.left (report (Report.scope lib false vars) us) := by
  rw [report_eq] at h
  rw [report_eq, report_eq, left, missingReferences_supply, missingUnary_supply,
    missingBinary_supply, ← filter_eraseDups, ← filter_eraseDups,
    ← filter_eraseDupsBy fun a b hab => by rw [s.answersTo_congr hab]]
  congr 1
  refine List.filter_congr fun name hname => ?_
  have hiff := s.answersTo_iff_mem h.references hname
  cases ha : s.answersTo name <;> simp_all

/-- **Supplying what is reported gives a number**, whether neighbours are multiplied or not, and
supplying less of it gives a report of the rest, if they are not. -/
theorem calculate_supply {implied : Bool} {source : String} {m : Missing}
    (h : lib.calculate implied source vars = .unresolved m) :
    (s.Covers m → ∃ v, (s.library lib).calculate implied source (s.snapshot vars) = .value v) ∧
      (implied = false → s.Within m → (s.left m).isEmpty = false →
        (s.library lib).calculate implied source (s.snapshot vars) = .unresolved (s.left m)) := by
  obtain ⟨e, he⟩ := exists_parse lib vars h (by simp)
  have hm : report (Report.scope lib implied vars) (uses e) = m := by
    rw [calculate_of_parse lib vars he, outcome_eq] at h
    split at h
    · simp at h
    · exact Outcome.unresolved.inj h
  rw [calculate_of_parse _ _ he, outcome_eq]
  refine ⟨fun hcovers => ?_, fun hflag hwithin hleft => ?_⟩
  · rw [if_pos (s.isEmpty_of_covers lib vars (hm ▸ hcovers))]
    exact ⟨_, rfl⟩
  · subst hflag
    have hrest : report (s.scope lib vars false) (uses e) = s.left m := by
      rw [s.report_supply lib vars (hm ▸ hwithin), hm]
    rw [hrest, hleft]
    rfl

/-- A variable and one of two functions, and then the other function too. -/
theorem calculate_supply_twice :
    Library.calculate ⟨.standard, .empty⟩ false "x+g(1,X)+h(2)" ⟨[]⟩ =
        .unresolved ⟨["x"], ["h"], ["g"]⟩ ∧
      (∃ s : Supply, s.rowNames = ["x"] ∧ s.unaryNames = ["h"] ∧ s.binaryNames = [] ∧
        (s.library ⟨.standard, .empty⟩).calculate false "x+g(1,X)+h(2)" (s.snapshot ⟨[]⟩) =
          .unresolved ⟨[], [], ["g"]⟩) ∧
      ∃ s : Supply, s.rowNames = ["x"] ∧ s.unaryNames = ["h"] ∧ s.binaryNames = ["g"] ∧
        ∃ v, (s.library ⟨.standard, .empty⟩).calculate false "x+g(1,X)+h(2)" (s.snapshot ⟨[]⟩) =
          .value v := by
  have h : Library.calculate ⟨.standard, .empty⟩ false "x+g(1,X)+h(2)" ⟨[]⟩ =
      .unresolved ⟨["x"], ["h"], ["g"]⟩ := by decide +kernel
  have hnumeric : ∀ v ∈ [Variable.mk "x" "3"], v.number?.isSome :=
    List.forall_mem_singleton.mpr (by decide +kernel)
  let less : Supply := ⟨[⟨"x", "3"⟩], [("h", id)], [], hnumeric⟩
  let all : Supply := ⟨[⟨"x", "3"⟩], [("h", id)], [("g", fun x _ => x)], hnumeric⟩
  have hwithin : less.Within ⟨["x"], ["h"], ["g"]⟩ := ⟨by simp [less, rowNames],
    by simp [less, unaryNames], by simp [less, binaryNames]⟩
  have hcovers : all.Covers ⟨["x"], ["h"], ["g"]⟩ := ⟨by simp [all, rowNames],
    by simp [all, unaryNames], by simp [all, binaryNames]⟩
  have hleft : less.left ⟨["x"], ["h"], ["g"]⟩ = ⟨[], [], ["g"]⟩ := by
    simp [less, left, rowNames, unaryNames, binaryNames]
  have hreport := (less.calculate_supply ⟨.standard, .empty⟩ ⟨[]⟩ h).2 rfl hwithin
  rw [hleft] at hreport
  exact ⟨h, ⟨less, rfl, rfl, rfl, hreport rfl⟩,
    ⟨all, rfl, rfl, rfl, (all.calculate_supply ⟨.standard, .empty⟩ ⟨[]⟩ h).1 hcovers⟩⟩

end Supply

end Abacus
