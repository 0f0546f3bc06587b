import Abacus.Proofs.Lookup
import Abacus.Proofs.StoreHistory
import Abacus.Session
import Abacus.Settings

/-!
The row that a name means. Whoever asks, by the index of a pass, by a search through a snapshot or
by one through the store itself, is told of the first row that has the name, and whoever gives the
name a value edits that row. If its value is no number, the name means nothing, whatever rows
follow.
-/

namespace Abacus.Proofs.Meanings

open StoreHistory StoreRows

/-- What the name means to the search through a snapshot, to the index, to the question whether the
index has it, and by the row that the store finds. -/
structure Means (s : Store) (name : String) (meaning : Option Double) : Prop where
  search : s.snapshot.resolve name = meaning
  index : (Resolver.ofSnapshot s.snapshot).resolve name = meaning
  contained : (Resolver.ofSnapshot s.snapshot).contains name = true ↔ ∃ v, meaning = some v
  row : (s.find? name).bind (fun r => readNumber? r.entry.value) = meaning

/-- One row has another value and is otherwise the same, or if there is none, a new row is the
last. -/
def Edited (value : String) (new : Row) (rows rows' : List Row) : Option Row → Prop
  | some r => ∃ as bs, rows = as ++ r :: bs ∧ rows' = as ++ ⟨r.handle, r.entry.name, value⟩ :: bs
  | none => rows' = rows ++ [new]

/-- The command of a session and the assignment of a command line both edit the row. -/
structure Edits (s : Store) (name : String) (found : Option Row) : Prop where
  set : ∀ (t : Session) value, t.store = s → ∃ t', t.effect .set [name, value] = .change t' [] ∧
    Edited value ⟨s.next, name, value⟩ s.rows t'.store.rows found
  assignment : ∀ text a, Assignment.parse text = .ok a → a.name = name →
    ∃ s', Assignment.applyAll s [text] = .ok s' ∧
      Edited a.value ⟨s.next, name, a.value⟩ s.rows s'.rows found

/-- A snapshot has the rows in their order, so both searches end at one row. -/
lemma find?_snapshot (s : Store) (name : String) :
    s.snapshot.find? name = (s.find? name).map (·.entry) := by
  rw [Snapshot.find?, Store.snapshot, Store.toList, List.find?_map]
  rfl

lemma resolve_snapshot (s : Store) (name : String) :
    s.snapshot.resolve name = (s.find? name).bind fun r => readNumber? r.entry.value := by
  rw [Snapshot.resolve, find?_snapshot, Option.bind_map]
  rfl

lemma means_find? (s : Store) (name : String) :
    Means s name ((s.find? name).bind fun r => readNumber? r.entry.value) where
  search := resolve_snapshot s name
  index := (Lookup.resolve_ofSnapshot _ name).trans (resolve_snapshot s name)
  contained := by
    rw [Resolver.contains, Lookup.resolve_ofSnapshot, resolve_snapshot, Option.isSome_iff_exists]
  row := rfl

lemma edited_assign (s : Store) (name value : String) :
    Edited value ⟨s.next, name, value⟩ s.rows (s.assign name value).rows (s.find? name) := by
  unfold Store.assign
  split
  · rename_i r hr
    obtain ⟨-, as, bs, hrows, -⟩ := List.find?_eq_some_iff_append.mp hr
    have hset : (s.setValue r.handle value).rows =
        s.rows.set as.length ⟨r.handle, r.entry.name, value⟩ := rows_modify_split hrows _
    rw [hr]
    refine ⟨as, bs, hrows, ?_⟩
    rw [hset, hrows, List.set_append_right _ _ (Nat.le_refl _), Nat.sub_self, List.set_cons_zero]
  · rename_i hnone
    rw [hnone]
    rfl

lemma edits_find? (s : Store) (name : String) : Edits s name (s.find? name) where
  set := by
    rintro t value rfl
    exact ⟨t.withStore (t.store.assign name value), rfl, edited_assign t.store name value⟩
  assignment := by
    rintro text a ha rfl
    refine ⟨s.assign a.name a.value, ?_, edited_assign s a.name a.value⟩
    simp only [Assignment.applyAll, ha]

/-- **All ways of looking a name up agree.** In every store and for every name there is one row that
decides, the first that has the name, letter case aside: the store finds it, its value alone is what
the name means to a search and to the index, so that rows behind it count for nothing even if it is
no number, and it is the row that is edited when the name is given a value. -/
theorem lookups_agree (s : Store) (name : String) :
    ∃ found, FirstNamed s.rows name found ∧ s.find? name = found ∧
      Means s name (found.bind fun r => readNumber? r.entry.value) ∧ Edits s name found :=
  ⟨s.find? name, firstNamed_find? s name, rfl, means_find? s name, edits_find? s name⟩

/-- A final sigma is written otherwise in small letters, and the first row is no number. -/
example :
    let s := Store.ofList [⟨"ΣΑΣ", "x"⟩, ⟨"σας", "1"⟩, ⟨"b", "2"⟩]
    s.snapshot.resolve "Σας" = none ∧
      (s.assign "Σας" "3").toList = [⟨"ΣΑΣ", "3"⟩, ⟨"σας", "1"⟩, ⟨"b", "2"⟩] := by
  decide +kernel

end Abacus.Proofs.Meanings
