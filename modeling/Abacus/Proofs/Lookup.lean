import Mathlib.Tactic.Common
import Abacus.Variables

/-!
Names among the variables. The index of a snapshot holds for every name the number of the first
variable that answers to it, so a look in the index and a search through the rows agree.
-/

namespace Abacus.Proofs.Lookup

/-- What the index holds for a key once a variable has gone in. -/
lemma lookup_insert (r : Resolver) (v : Variable) (key : String) :
    (r.insert v).entries.lookup key =
      (r.entries.lookup key).or (if Text.lower v.name == key then some v.number? else none) := by
  by_cases hk : Text.lower v.name = key
  · subst hk
    cases h : r.entries.lookup (Text.lower v.name) with
    | none => simp [Resolver.insert, h, List.lookup_append]
    | some x => simp [Resolver.insert, h]
  · have hne : (key == Text.lower v.name) = false := by simpa using fun h => hk h.symm
    rw [Resolver.insert]
    cases (r.entries.lookup (Text.lower v.name)).isSome <;>
      simp [hk, hne, List.lookup_append, List.lookup_cons]

lemma lookup_foldl_insert (vs : List Variable) (r : Resolver) (key : String) :
    (vs.foldl Resolver.insert r).entries.lookup key =
      (r.entries.lookup key).or
        ((vs.find? fun v => Text.lower v.name == key).map (·.number?)) := by
  induction vs generalizing r with
  | nil => simp
  | cons v vs ih =>
    rw [List.foldl_cons, ih, lookup_insert, Option.or_assoc, List.find?_cons]
    cases Text.lower v.name == key <;> simp

/-- **The index means what the rows mean.** -/
theorem resolve_ofSnapshot (s : Snapshot) (name : String) :
    (Resolver.ofSnapshot s).resolve name = s.resolve name := by
  rw [Resolver.resolve, Resolver.ofSnapshot, lookup_foldl_insert, List.lookup_nil, Option.none_or]
  have hfind : s.toList.find? (fun v => Text.lower v.name == Text.lower name) = s.find? name := rfl
  rw [hfind, Snapshot.resolve]
  cases s.find? name <;> rfl

end Abacus.Proofs.Lookup
