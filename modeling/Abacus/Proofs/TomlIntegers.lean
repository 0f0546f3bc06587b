import Abacus.Proofs.TomlReads
import Abacus.Toml.Document
import Mathlib.Tactic.Common

/-!
The integers of a document are written in it. Tables are built up from the values that are read and
from tables that are made empty, so an integer that stands anywhere in the root table has its digits
in the text.
-/

namespace Abacus.Proofs.TomlIntegers

open Toml TomlReads

variable {doc : List Char}

/-! ### Tables that are built up -/

lemma traced_array_iff {items : List Value} :
    Traced doc (.array items) ↔ ∀ v ∈ items, Traced doc v := by
  constructor
  · exact fun h v hv i hi => h i (.item hv hi)
  · rintro h i (_ | ⟨hv, hi⟩)
    exact h _ hv i hi

lemma traced_table_iff {t : Table} :
    Traced doc (.table t) ↔ ∀ k v, (k, v) ∈ t → Traced doc v := by
  constructor
  · exact fun h k v hv i hi => h i (.entry hv hi)
  · rintro h i (_ | _ | ⟨hv, hi⟩)
    exact h _ _ hv i hi

lemma traced_nil : Traced doc (.table []) := traced_table_iff.mpr (by simp)

lemma traced_append {t : Table} {k : String} {v : Value} (ht : Traced doc (.table t))
    (hv : Traced doc v) : Traced doc (.table (t ++ [(k, v)])) := by
  rw [traced_table_iff] at ht ⊢
  intro k' v' h
  rcases List.mem_append.mp h with h | h
  · exact ht k' v' h
  · obtain ⟨rfl, rfl⟩ := Prod.mk.inj (List.mem_singleton.mp h)
    exact hv

lemma traced_put {t : Table} {k : String} {v : Value} (ht : Traced doc (.table t))
    (hv : Traced doc v) : Traced doc (.table (under.put t k v)) := by
  rw [traced_table_iff] at ht ⊢
  intro k' v' h
  obtain ⟨entry, hentry, heq⟩ := List.mem_map.mp h
  split at heq
  · obtain ⟨rfl, rfl⟩ := Prod.mk.inj heq
    exact hv
  · exact ht k' v' (heq ▸ hentry)

lemma traced_of_lookup {t : Table} {k : String} {v : Value} (ht : Traced doc (.table t))
    (h : t.lookup k = some v) : Traced doc v := by
  obtain ⟨before, after, rfl, -⟩ := List.lookup_eq_some_iff.mp h
  exact traced_table_iff.mp ht k v (by simp)

/-- Only what is done to the table at the end of a path brings in new integers. -/
lemma traced_under (intoArrays : Bool) {f : Table → Option Table}
    (hf : ∀ t t', Traced doc (.table t) → f t = some t' → Traced doc (.table t')) (path : Key)
    {t t' : Table} (ht : Traced doc (.table t)) (h : under intoArrays f path t = some t') :
    Traced doc (.table t') := by
  induction path generalizing t t' with
  | nil => exact hf t t' ht h
  | cons k path ih =>
    rw [under] at h
    split at h
    · obtain ⟨sub, hsub, rfl⟩ := Option.map_eq_some_iff.mp h
      exact traced_append ht (ih traced_nil hsub)
    · rename_i sub hk
      obtain ⟨sub', hsub, rfl⟩ := Option.map_eq_some_iff.mp h
      exact traced_put ht (ih (traced_of_lookup ht hk) hsub)
    · rename_i items hk
      have hitems := traced_array_iff.mp (traced_of_lookup ht hk)
      split at h
      · rename_i sub hlast
        obtain ⟨sub', hsub, rfl⟩ := Option.map_eq_some_iff.mp h
        -- the last table of the array takes the change, and the others stay
        have hsub' := ih (hitems _ (List.mem_of_getLast? hlast)) hsub
        refine traced_put ht (traced_array_iff.mpr fun v hv => ?_)
        rcases List.mem_append.mp hv with hv | hv
        · exact hitems v (List.mem_of_mem_dropLast hv)
        · exact List.mem_singleton.mp hv ▸ hsub'
      · contradiction
    · contradiction

lemma traced_insertNew {k : String} {v : Value} {t t' : Table} (hv : Traced doc v)
    (ht : Traced doc (.table t)) (h : insertNew k v t = some t') : Traced doc (.table t') := by
  rw [insertNew] at h
  split at h
  · contradiction
  · exact Option.some.inj h ▸ traced_append ht hv

lemma traced_appendTable {k : String} {t t' : Table} (ht : Traced doc (.table t))
    (h : appendTable k t = some t') : Traced doc (.table t') := by
  rw [appendTable] at h
  split at h
  · exact Option.some.inj h ▸ traced_append ht (traced_array_iff.mpr (by simpa using traced_nil))
  · rename_i items hk
    refine Option.some.inj h ▸ traced_put ht (traced_array_iff.mpr fun v hv => ?_)
    rcases List.mem_append.mp hv with hv | hv
    · exact traced_array_iff.mp (traced_of_lookup ht hk) v hv
    · exact List.mem_singleton.mp hv ▸ traced_nil
  · contradiction

lemma sound_orInvalid {α : Type} {P : α → Prop} {o : Option α} (h : ∀ a, o = some a → P a) :
    Sound doc P (orInvalid o) := by
  cases o with
  | none => trivial
  | some a => exact h a rfl

/-! ### Values -/

/-- The readers of values are sound with so many steps left. -/
structure SoundValues (doc : List Char) (n : ℕ) : Prop where
  value : ∀ cs, cs <:+ doc → Sound doc (Leaves doc (Traced doc)) (value n cs)
  items : ∀ cs, cs <:+ doc →
    Sound doc (Leaves doc fun vs => ∀ v ∈ vs, Traced doc v) (items n cs)
  entries : ∀ closed t cs, cs <:+ doc → Traced doc (.table t) →
    Sound doc (Leaves doc fun t => Traced doc (.table t)) (entries n closed t cs)

variable {n : ℕ} {cs : List Char}

lemma sound_value_succ (hn : SoundValues doc n) (h : cs <:+ doc) :
    Sound doc (Leaves doc (Traced doc)) (value (n + 1) cs) := by
  rw [value.eq_def]
  dsimp only
  split
  · refine (sound_skipLines false (suffix_of_cons h)).bind fun rest hrest => ?_
    exact (hn.items rest hrest).bind fun _ hitems => ⟨traced_array_iff.mpr hitems.1, hitems.2⟩
  · have hspaces := (skipSpaces_suffix _).trans (suffix_of_cons h)
    split
    · rename_i heq
      exact ⟨traced_nil, suffix_of_cons (heq ▸ hspaces)⟩
    · exact (hn.entries _ _ _ hspaces traced_nil).bind fun _ hentries => hentries
  · exact sound_scalar h

lemma sound_items_succ (hn : SoundValues doc n) (h : cs <:+ doc) :
    Sound doc (Leaves doc fun vs => ∀ v ∈ vs, Traced doc v) (items (n + 1) cs) := by
  rw [items.eq_def]
  dsimp only
  split
  · exact ⟨by simp, suffix_of_cons h⟩
  · refine (hn.value cs h).bind fun (v, rest) ⟨hv, hrest⟩ => ?_
    refine (sound_skipLines false hrest).bind fun lines hlines => ?_
    split
    · exact ⟨by simpa using hv, suffix_of_cons hlines⟩
    · refine (sound_skipLines false (suffix_of_cons hlines)).bind fun more hmore => ?_
      exact (hn.items more hmore).bind fun _ hvs => ⟨List.forall_mem_cons.mpr ⟨hv, hvs.1⟩, hvs.2⟩
    · trivial

lemma sound_entries_succ (hn : SoundValues doc n) (closed : List Key) {t : Table}
    (h : cs <:+ doc) (ht : Traced doc (.table t)) :
    Sound doc (Leaves doc fun t => Traced doc (.table t)) (entries (n + 1) closed t cs) := by
  rw [entries]
  refine (sound_key _ h).bind fun (path, rest) hrest => ?_
  dsimp only
  split
  · have hspaces := (skipSpaces_suffix _).trans (suffix_of_cons hrest)
    refine (hn.value _ hspaces).bind fun (v, rest) ⟨hv, hrest⟩ => ?_
    dsimp only
    split
    · trivial
    have hinsert : Sound doc (fun t => Traced doc (.table t))
        (orInvalid (under false (insertNew (path.getLastD "") v) path.dropLast t)) :=
      sound_orInvalid fun t' ht' =>
        traced_under false (fun _ _ => traced_insertNew hv) path.dropLast ht ht'
    refine hinsert.bind fun t' ht' => ?_
    have hafter := (skipSpaces_suffix rest).trans hrest
    split
    · rename_i heq
      exact ⟨ht', suffix_of_cons (heq ▸ hafter)⟩
    · rename_i heq
      exact hn.entries _ _ _ ((skipSpaces_suffix _).trans (suffix_of_cons (heq ▸ hafter))) ht'
    · trivial
  · trivial

lemma soundValues (doc : List Char) (n : ℕ) : SoundValues doc n := by
  -- the three call each other with one step less, so they are sound together
  induction n with
  | zero => exact ⟨fun _ _ => trivial, fun _ _ => trivial, fun _ _ _ _ _ => trivial⟩
  | succ n ih =>
    exact ⟨fun _ => sound_value_succ ih, fun _ => sound_items_succ ih,
      fun closed _ _ => sound_entries_succ ih closed⟩

/-! ### Statements -/

/-- The root table that has been built so far has its integers from the document. -/
def Rooted (doc : List Char) (p : Progress) : Prop := Traced doc (.table p.root)

variable {p : Progress}

lemma sound_openTable (path : Key) (hp : Rooted doc p) :
    Sound doc (Rooted doc) (p.openTable path) := by
  rw [Progress.openTable]
  split
  · trivial
  · have hopen : Sound doc (fun t => Traced doc (.table t))
        (orInvalid (under true some path p.root)) :=
      sound_orInvalid fun t' => traced_under true (fun _ _ ht h => Option.some.inj h ▸ ht) path hp
    exact hopen.bind fun _ ht => ht

lemma sound_openItem (path : Key) (hp : Rooted doc p) :
    Sound doc (Rooted doc) (p.openItem path) := by
  rw [Progress.openItem]
  split
  · trivial
  · have hopen : Sound doc (fun t => Traced doc (.table t))
        (orInvalid (under true (appendTable (path.getLastD "")) path.dropLast p.root)) :=
      sound_orInvalid fun t' => traced_under true (fun _ _ => traced_appendTable) _ hp
    exact hopen.bind fun _ ht => ht

lemma sound_assign (path : Key) {v : Value} (hv : Traced doc v) (hp : Rooted doc p) :
    Sound doc (Rooted doc) (p.assign path v) := by
  rw [Progress.assign]
  dsimp only
  split
  · trivial
  · have hinsert : Sound doc (fun t => Traced doc (.table t))
        (orInvalid (under true (insertNew (path.getLastD "") v) (p.header ++ path.dropLast)
          p.root)) :=
      sound_orInvalid fun t' => traced_under true (fun _ _ => traced_insertNew hv) _ hp
    exact hinsert.bind fun _ ht => ht

lemma sound_statement (hp : Rooted doc p) (h : cs <:+ doc) :
    Sound doc (Leaves doc (Rooted doc)) (statement p cs) := by
  rw [statement.eq_def]
  dsimp only
  split
  · -- two brackets open an item of an array
    have hspaces := (skipSpaces_suffix _).trans (suffix_of_cons (suffix_of_cons h))
    refine (sound_key _ hspaces).bind fun (path, rest) hrest => ?_
    refine (sound_openItem path (p := p.newSection) hp).bind fun p' hp' => ?_
    dsimp only
    split
    · exact ⟨hp', suffix_of_cons (suffix_of_cons hrest)⟩
    · trivial
  · -- one bracket opens a table
    have hspaces := (skipSpaces_suffix _).trans (suffix_of_cons h)
    refine (sound_key _ hspaces).bind fun (path, rest) hrest => ?_
    refine (sound_openTable path (p := p.newSection) hp).bind fun p' hp' => ?_
    dsimp only
    split
    · exact ⟨hp', suffix_of_cons hrest⟩
    · trivial
  · -- a key and a value
    refine (sound_key _ h).bind fun (path, rest) hrest => ?_
    dsimp only
    split
    · have hspaces := (skipSpaces_suffix _).trans (suffix_of_cons hrest)
      refine ((soundValues doc _).value _ hspaces).bind fun (v, after) ⟨hv, hafter⟩ => ?_
      exact (sound_assign path hv hp).bind fun p' hp' => ⟨hp', hafter⟩
    · trivial

lemma sound_statements (fuel : ℕ) (hp : Rooted doc p) (h : cs <:+ doc) :
    Sound doc (Rooted doc) (statements fuel p cs) := by
  induction fuel generalizing p cs with
  | zero => trivial
  | succ fuel ih =>
    have hspaces := (skipSpaces_suffix cs).trans h
    rw [statements]
    split
    · exact hp
    · rename_i heq
      exact ih hp (suffix_of_cons (heq ▸ hspaces))
    · dsimp only
      have hcomment : Sound doc (Leaves doc (Rooted doc)) (.ok (p, skipSpaces cs)) := ⟨hp, hspaces⟩
      refine hcomment.ite_bind (sound_statement hp hspaces) fun (p', rest) ⟨hp', hrest⟩ => ?_
      refine (sound_skipComment ((skipSpaces_suffix rest).trans hrest)).bind fun line hline => ?_
      dsimp only
      split
      · exact hp'
      · exact ih hp' (suffix_of_cons hline)
      · trivial

/-- **The integers of a document are written in it**, and so is a decimal integer for which it is
refused: the digits stand in the text in a row, low lines aside. -/
theorem sound_document (text : String) :
    Sound text.toList (fun root => Traced text.toList (.table root)) (document text) :=
  (sound_statements _ (p := .start) traced_nil List.suffix_rfl).bind fun _ hp => hp

end Abacus.Proofs.TomlIntegers
