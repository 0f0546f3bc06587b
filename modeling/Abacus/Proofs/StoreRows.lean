import Mathlib.Data.List.Nodup
import Mathlib.Tactic.Common
import Abacus.Store

/-!
The rows of a store by their handles. No two rows have one handle, so a row that is found stands at
one place of the list, and what is done to it leaves all other places as they are.
-/

namespace Abacus.Proofs.StoreRows

variable {s : Store} {h : ℕ} {r : Row} {as bs : List Row}

lemma rows_modify (s : Store) (k : ℕ) (f : Variable → Variable) :
    (s.modify k f).rows =
      s.rows.map fun r => if r.handle = k then { r with entry := f r.entry } else r := rfl

lemma rows_erase (s : Store) (k : ℕ) : (s.erase k).rows = s.rows.filter (·.handle != k) := rfl

lemma nodup_handles (s : Store) : (s.rows.map (·.handle)).Nodup := s.sorted.imp Nat.ne_of_lt

lemma handles_ne (hrows : s.rows = as ++ r :: bs) :
    (∀ a ∈ as, a.handle ≠ r.handle) ∧ ∀ b ∈ bs, b.handle ≠ r.handle := by
  have hnodup := nodup_handles s
  rw [hrows, List.map_append, List.map_cons] at hnodup
  constructor
  · intro a ha heq
    exact List.disjoint_of_nodup_append hnodup (List.mem_map_of_mem ha) (by simp [heq])
  · intro b hb heq
    exact (List.nodup_cons.mp hnodup.of_append_right).1 (heq ▸ List.mem_map_of_mem hb)

lemma get?_of_mem (hr : r ∈ s.rows) : s.get? r.handle = some r := by
  obtain ⟨t, ht⟩ : ∃ t, s.get? r.handle = some t := by
    apply Option.isSome_iff_exists.mp
    rw [Store.get?, List.find?_isSome]
    exact ⟨r, hr, beq_self_eq_true _⟩
  have hmem : t ∈ s.rows := List.mem_of_find?_eq_some ht
  have hkey : t.handle = r.handle := by simpa using List.find?_some ht
  rw [ht, List.inj_on_of_nodup_map (nodup_handles s) hmem hr hkey]

lemma get?_eq_none : s.get? h = none ↔ ∀ r ∈ s.rows, r.handle ≠ h := by
  simp [Store.get?]

lemma exists_split (hr : s.get? h = some r) :
    ∃ as bs, s.rows = as ++ r :: bs ∧ r.handle = h ∧ ∀ a ∈ as, a.handle ≠ h := by
  obtain ⟨hkey, as, bs, hrows, has⟩ := List.find?_eq_some_iff_append.mp hr
  exact ⟨as, bs, hrows, by simpa using hkey, fun a ha => by simpa using has a ha⟩

lemma get?_modify (s : Store) (k : ℕ) (f : Variable → Variable) :
    (s.modify k f).get? k = (s.get? k).map fun r => ⟨r.handle, f r.entry⟩ := by
  have hkey : ∀ r : Row,
      ((if r.handle = k then { r with entry := f r.entry } else r).handle == k) =
        (r.handle == k) := by
    intro r
    split <;> rfl
  rw [Store.get?, rows_modify, List.find?_map, Store.get?]
  simp only [Function.comp_def, hkey]
  cases hr : s.rows.find? (·.handle == k) with
  | none => rfl
  | some r =>
    have hk : r.handle = k := by simpa using List.find?_some hr
    simp [hk]

/-- A row is changed at its place. -/
lemma rows_modify_split (hrows : s.rows = as ++ r :: bs) (f : Variable → Variable) :
    (s.modify r.handle f).rows = s.rows.set as.length ⟨r.handle, f r.entry⟩ := by
  have hsame : ∀ l : List Row, (∀ a ∈ l, a.handle ≠ r.handle) →
      l.map (fun q => if q.handle = r.handle then { q with entry := f q.entry } else q) = l :=
    fun l hl => (List.map_congr_left fun a ha => if_neg (hl a ha)).trans (List.map_id l)
  obtain ⟨has, hbs⟩ := handles_ne hrows
  rw [rows_modify, hrows, List.map_append, List.map_cons, hsame as has, hsame bs hbs, if_pos rfl,
    List.set_append_right _ _ (Nat.le_refl _), Nat.sub_self, List.set_cons_zero]

/-- A row is taken from its place. -/
lemma rows_erase_split (hrows : s.rows = as ++ r :: bs) :
    (s.erase r.handle).rows = s.rows.eraseIdx as.length := by
  have hsame : ∀ l : List Row, (∀ a ∈ l, a.handle ≠ r.handle) →
      l.filter (·.handle != r.handle) = l :=
    fun l hl => List.filter_eq_self.mpr fun a ha => by simpa using hl a ha
  obtain ⟨has, hbs⟩ := handles_ne hrows
  rw [rows_erase, hrows, List.filter_append, List.filter_cons_of_neg (by simp), hsame as has,
    hsame bs hbs, List.eraseIdx_append_of_length_le (Nat.le_refl _), Nat.sub_self,
    List.eraseIdx_cons_zero]

end Abacus.Proofs.StoreRows
