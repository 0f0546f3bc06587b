import Abacus.Proofs.ManifestFaults
import Abacus.Proofs.Totality

/-!
The shape of a manifest. A document is a manifest just if what it says of the evaluator and of the
variables is of the right kind, whatever else it says; otherwise the fault is that of the evaluator,
or else that of the variables as a whole, or else that of the first item that declares no variable.
Shape and faults are said by what the keys of the tables hold, and not by the checks of the reader.
-/

namespace Abacus.Proofs.ManifestShape

open Manifest Toml TomlReads ManifestFaults

variable {root root' t u : Table} {v : Value} {name s : String} {i : ℕ} {items : List Value}

/-! ### The shape of a document -/

/-- The name is a text with more in it than blanks. -/
def HasName (t : Table) (name : String) : Prop :=
  t.lookup "name" = some (.string name) ∧ ∃ c ∈ name.toList, Text.isBlank c = false

/-- Nothing, a text or a number, and the text that it is kept as. -/
inductive KeptAs : Option Value → String → Prop
  | nothing : KeptAs none "0"
  | string (s : String) : KeptAs (some (.string s)) s
  | integer (i : ℤ) : KeptAs (some (.integer i)) (toString i)
  | float (x : Double) : KeptAs (some (.float x)) x.text

/-- An item of the right kind and its variable. -/
inductive Declares : Value → Variable → Prop
  | table {t : Table} {name value : String} (hname : HasName t name)
      (hvalue : KeptAs (t.lookup "value") value) : Declares (.table t) ⟨name, value⟩

/-- What the key of the evaluator may hold. -/
inductive EvaluatorShape : Option Value → Prop
  | absent : EvaluatorShape none
  | silent {t : Table} (h : t.lookup "implied_multiplication" = none) :
      EvaluatorShape (some (.table t))
  | rule {t : Table} {b : Bool} (h : t.lookup "implied_multiplication" = some (.boolean b)) :
      EvaluatorShape (some (.table t))

/-- What the key of the variables may hold. -/
inductive VariablesShape : Option Value → Prop
  | absent : VariablesShape none
  | array {items : List Value} (h : ∀ v ∈ items, ∃ x, Declares v x) :
      VariablesShape (some (.array items))

structure Shape (root : Table) : Prop where
  evaluator : EvaluatorShape (root.lookup "evaluator")
  rows : VariablesShape (root.lookup "variables")

/-! ### Faults -/

/-- What is wrong with the item `i`: that it is no table, or else its name, or else its value. -/
inductive ItemFault (i : ℕ) : Value → Manifest.Fault → Prop
  | notTable {v : Value} (h : ∀ t, v ≠ .table t) : ItemFault i v (.notTable i)
  | noName {t : Table} (h : ∀ name, ¬ HasName t name) : ItemFault i (.table t) (.noName i)
  | badValue {t : Table} {name : String} (hname : HasName t name)
      (hvalue : ∀ s, ¬ KeptAs (t.lookup "value") s) : ItemFault i (.table t) (.badValue i)

/-- The fault that comes first. -/
inductive FirstFault (root : Table) : Manifest.Fault → Prop
  | evaluatorNotTable {v : Value} (h : root.lookup "evaluator" = some v) (hv : ∀ t, v ≠ .table t) :
      FirstFault root .evaluatorNotTable
  | impliedNotBoolean {t : Table} {v : Value} (h : root.lookup "evaluator" = some (.table t))
      (ht : t.lookup "implied_multiplication" = some v) (hv : ∀ b, v ≠ .boolean b) :
      FirstFault root .impliedNotBoolean
  | variablesNotArray {v : Value} (he : EvaluatorShape (root.lookup "evaluator"))
      (h : root.lookup "variables" = some v) (hv : ∀ items, v ≠ .array items) :
      FirstFault root .variablesNotArray
  | item {items : List Value} {i : ℕ} {v : Value} {f : Manifest.Fault}
      (he : EvaluatorShape (root.lookup "evaluator"))
      (h : root.lookup "variables" = some (.array items)) (hi : items[i]? = some v)
      (hbefore : ∀ w ∈ items.take i, ∃ x, Declares w x) (hf : ItemFault i v f) : FirstFault root f

/-! ### What a manifest holds -/

/-- The items that a document has for variables. -/
def itemsOf (root : Table) : List Value :=
  match root.lookup "variables" with
  | some (.array items) => items
  | _ => []

/-- The rule for neighbours is the one that is given, and there is one variable for each item. -/
structure Gives (root : Table) (m : Manifest) : Prop where
  implied : m.implied = true ↔ ∃ t, root.lookup "evaluator" = some (.table t) ∧
    t.lookup "implied_multiplication" = some (.boolean true)
  entries : List.Forall₂ Declares (itemsOf root) m.entries

/-! ### Known keys -/

/-- The tables say the same of the keys. -/
def AgreeOn (keys : List String) (t u : Table) : Prop := ∀ k ∈ keys, t.lookup k = u.lookup k

/-- The values are the same, or tables that agree on the keys. -/
inductive SameFor (keys : List String) : Value → Value → Prop
  | table {t u : Table} (h : AgreeOn keys t u) : SameFor keys (.table t) (.table u)
  | same (v : Value) : SameFor keys v v

inductive SameVariables : Value → Value → Prop
  | array {items items' : List Value} (h : List.Forall₂ (SameFor ["name", "value"]) items items') :
      SameVariables (.array items) (.array items')
  | same (v : Value) : SameVariables v v

/-- The documents differ in keys that mean nothing to a manifest. -/
structure SameKnown (root root' : Table) : Prop where
  evaluator : Option.Rel (SameFor ["implied_multiplication"]) (root.lookup "evaluator")
    (root'.lookup "evaluator")
  rows : Option.Rel SameVariables (root.lookup "variables") (root'.lookup "variables")

/-! ### Values and items -/

/-- No integer in the value has more digits than are allowed. -/
def Short (v : Value) : Prop := ∀ i, Holds i v → (decimalDigits i.natAbs).length ≤ digitLimit

lemma short_array_iff : Short (.array items) ↔ ∀ v ∈ items, Short v := by
  constructor
  · exact fun h v hv i hi => h i (.item hv hi)
  · rintro h i (_ | ⟨hv, hi⟩)
    exact h _ hv i hi

lemma short_table_iff : Short (.table t) ↔ ∀ kv ∈ t, Short kv.2 := by
  constructor
  · exact fun h kv hv i hi => h i (.entry hv hi)
  · rintro h i (_ | _ | ⟨hv, hi⟩)
    exact h _ hv i hi

lemma short_of_lookup {k : String} (h : Short (.table t)) (hk : t.lookup k = some v) : Short v := by
  obtain ⟨before, after, rfl, -⟩ := List.lookup_eq_some_iff.mp hk
  exact short_table_iff.mp h (k, v) (by simp)

lemma signChars_decimalDigits (j : ℤ) :
    String.ofList (Double.signChars (j < 0) (decimalDigits j.natAbs)) = toString j := by
  have hsigned : Double.signed (decide (j < 0)) j.natAbs = j := by
    by_cases hj : j < 0 <;> simp only [Double.signed, hj, decide_true, decide_false, if_true,
      Bool.false_eq_true, if_false] <;> omega
  have hsign : (decide (j < 0) && j.natAbs != 0) = decide (j < 0) := by
    by_cases hj : j < 0
    · simp [hj, hj.ne]
    · simp [hj]
  have htext := Raising.toString_signed (decide (j < 0)) j.natAbs
  rw [hsigned, Double.wholeText, hsign] at htext
  exact htext.symm

lemma valueText_of_keptAs {w : Option Value} (hs : KeptAs w s) (h : ∀ v, w = some v → Short v) :
    valueText i w = .ok s := by
  cases hs with
  | nothing => rfl
  | string s => rfl
  | integer j =>
    have hj := h _ rfl j .here
    rw [valueText, integerText, if_neg (by omega), signChars_decimalDigits]
  | float x => rfl

lemma keptAs_of_valueText {w : Option Value} (h : valueText i w = .ok s) : KeptAs w s := by
  rw [valueText.eq_def] at h
  split at h
  · exact Except.ok.inj h ▸ .nothing
  · exact Except.ok.inj h ▸ .string _
  · rename_i j
    rw [integerText] at h
    split at h
    · contradiction
    · rw [signChars_decimalDigits] at h
      exact Except.ok.inj h ▸ .integer j
  · exact Except.ok.inj h ▸ .float _
  · contradiction

lemma valueText_of_not_keptAs {w : Option Value} (h : ∀ s, ¬ KeptAs w s) :
    valueText i w = .error (.fault (.badValue i)) := by
  rw [valueText.eq_def]
  split
  · exact absurd .nothing (h _)
  · exact absurd (.string _) (h _)
  · exact absurd (.integer _) (h _)
  · exact absurd (.float _) (h _)
  · rfl

lemma isBlankText_eq_false_iff :
    isBlankText name = false ↔ ∃ c ∈ name.toList, Text.isBlank c = false := by
  rw [isBlankText, List.all_eq_false]
  simp

lemma variableOf_of_declares {x : Variable} (h : Declares v x) (hv : Short v) :
    variableOf i v = .ok x := by
  cases h with
  | table hname hvalue =>
    obtain ⟨hname, hblank⟩ := hname
    simp only [variableOf, hname, isBlankText_eq_false_iff.mpr hblank, Bool.false_eq_true, if_false,
      valueText_of_keptAs hvalue fun _ => short_of_lookup hv, Except.map]

lemma declares_of_variableOf {x : Variable} (h : variableOf i v = .ok x) : Declares v x := by
  rw [variableOf.eq_def] at h
  split at h
  · split at h
    · rename_i name hname
      split at h
      · contradiction
      · rename_i hblank
        obtain ⟨value, hvalue, rfl⟩ := map_eq_ok_iff.mp h
        exact .table ⟨hname, isBlankText_eq_false_iff.mp (Bool.not_eq_true _ ▸ hblank)⟩
          (keptAs_of_valueText hvalue)
    · contradiction
  · contradiction

lemma variableOf_of_itemFault {f : Manifest.Fault} (h : ItemFault i v f) :
    variableOf i v = .error (.fault f) := by
  cases h with
  | notTable h =>
    rw [variableOf.eq_def]
    split
    · exact absurd rfl (h _)
    · rfl
  | noName h =>
    rw [variableOf]
    split
    · rename_i name hname
      split
      · rfl
      · rename_i hblank
        exact absurd ⟨hname, isBlankText_eq_false_iff.mp (Bool.not_eq_true _ ▸ hblank)⟩ (h name)
    · rfl
  | badValue hname hvalue =>
    obtain ⟨hname, hblank⟩ := hname
    simp only [variableOf, hname, isBlankText_eq_false_iff.mpr hblank, Bool.false_eq_true, if_false,
      valueText_of_not_keptAs hvalue, Except.map]

lemma declares_or_itemFault (i : ℕ) (v : Value) :
    (∃ x, Declares v x) ∨ ∃ f, ItemFault i v f := by
  by_cases htable : ∃ t, v = .table t
  · obtain ⟨t, rfl⟩ := htable
    by_cases hname : ∃ name, HasName t name
    · obtain ⟨name, hname⟩ := hname
      by_cases hvalue : ∃ s, KeptAs (t.lookup "value") s
      · obtain ⟨s, hs⟩ := hvalue
        exact .inl ⟨⟨name, s⟩, .table hname hs⟩
      · exact .inr ⟨_, .badValue hname (not_exists.mp hvalue)⟩
    · exact .inr ⟨_, .noName (not_exists.mp hname)⟩
  · exact .inr ⟨_, .notTable (not_exists.mp htable)⟩

/-! ### Lists of items -/

lemma variablesOf_of_declares {xs : List Variable} (h : List.Forall₂ Declares items xs)
    (hs : ∀ v ∈ items, Short v) : variablesOf i items = .ok xs := by
  induction h generalizing i with
  | nil => rfl
  | cons hv _ ih =>
    obtain ⟨hs, hs'⟩ := List.forall_mem_cons.mp hs
    simp only [variablesOf, variableOf_of_declares hv hs, ih hs', Except.map]

lemma forall₂_declares {xs : List Variable} (h : variablesOf i items = .ok xs) :
    List.Forall₂ Declares items xs := by
  induction items generalizing i xs with
  | nil => exact Except.ok.inj h ▸ .nil
  | cons v items ih =>
    rw [variablesOf] at h
    split at h
    · contradiction
    · rename_i x hx
      obtain ⟨ys, hys, rfl⟩ := map_eq_ok_iff.mp h
      exact .cons (declares_of_variableOf hx) (ih hys)

lemma exists_declares (h : ∀ v ∈ items, ∃ x, Declares v x) :
    ∃ xs, List.Forall₂ Declares items xs := by
  induction items with
  | nil => exact ⟨[], .nil⟩
  | cons v items ih =>
    obtain ⟨⟨x, hx⟩, hrest⟩ := List.forall_mem_cons.mp h
    obtain ⟨xs, hxs⟩ := ih hrest
    exact ⟨x :: xs, .cons hx hxs⟩

/-- The item behind items that declare variables is the one that the list is refused for. -/
lemma variablesOf_of_itemFault {k : ℕ} {f : Manifest.Fault} (hk : items[k]? = some v)
    (hbefore : ∀ w ∈ items.take k, ∃ x, Declares w x) (hs : ∀ w ∈ items, Short w)
    (hf : ItemFault (i + k) v f) : variablesOf i items = .error (.fault f) := by
  obtain ⟨xs, hxs⟩ := exists_declares hbefore
  have hlt : k < items.length := (List.getElem?_eq_some_iff.mp hk).1
  refine variablesOf_eq_error_iff.mpr ⟨items.take k, v, items.drop (k + 1), xs, ?_, ?_, ?_⟩
  · rw [← (List.getElem?_eq_some_iff.mp hk).2, ← List.drop_eq_getElem_cons, List.take_append_drop]
  · exact variablesOf_of_declares hxs fun w hw => hs w (List.mem_of_mem_take hw)
  · rw [List.length_take, Nat.min_eq_left hlt.le]
    exact variableOf_of_itemFault hf

/-- Of the items that declare no variable there is a first one. -/
lemma forall_or_first (items : List Value) (i : ℕ) : (∀ v ∈ items, ∃ x, Declares v x) ∨
    ∃ k v f, items[k]? = some v ∧ (∀ w ∈ items.take k, ∃ x, Declares w x) ∧
      ItemFault (i + k) v f := by
  induction items generalizing i with
  | nil => exact .inl (by simp)
  | cons v items ih =>
    rcases declares_or_itemFault i v with hv | ⟨f, hf⟩
    · rcases ih (i + 1) with hrest | ⟨k, w, f, hk, hbefore, hf⟩
      · exact .inl (List.forall_mem_cons.mpr ⟨hv, hrest⟩)
      · refine .inr ⟨k + 1, w, f, hk, List.forall_mem_cons.mpr ⟨hv, hbefore⟩, ?_⟩
        rwa [Nat.add_comm k, ← Nat.add_assoc]
    · exact .inr ⟨0, v, f, rfl, by simp, hf⟩

/-! ### Documents -/

lemma impliedOf_of_shape (h : EvaluatorShape (root.lookup "evaluator")) :
    ∃ b, impliedOf root = .ok b := by
  rw [impliedOf]
  generalize root.lookup "evaluator" = v at h
  cases h with
  | absent => exact ⟨false, rfl⟩
  | silent ht => exact ⟨false, by simp [ht]⟩
  | @rule _ b ht => exact ⟨b, by simp [ht]⟩

lemma ofDocument_of_shape (h : Shape root) (hs : Short (.table root)) :
    ∃ m, ofDocument root = .ok m := by
  obtain ⟨b, hb⟩ := impliedOf_of_shape h.evaluator
  obtain ⟨xs, hxs⟩ : ∃ xs, variablesIn root = .ok xs := by
    have hrows := h.rows
    rw [variablesIn]
    cases hroot : root.lookup "variables" with
    | none => exact ⟨[], rfl⟩
    | some v =>
      rw [hroot] at hrows
      cases hrows with
      | array hitems =>
        obtain ⟨xs, hxs⟩ := exists_declares hitems
        exact ⟨xs, variablesOf_of_declares hxs (short_array_iff.mp (short_of_lookup hs hroot))⟩
  exact ⟨⟨b, xs⟩, by simp only [ofDocument, hb, hxs, Except.map]⟩

/-- A manifest that is read holds what the document gives, however long the integers are. -/
lemma gives_of_ofDocument {m : Manifest} (h : ofDocument root = .ok m) : Gives root m := by
  rw [ofDocument] at h
  split at h
  · contradiction
  · rename_i b hb
    obtain ⟨xs, hxs, rfl⟩ := map_eq_ok_iff.mp h
    constructor
    · rw [impliedOf] at hb
      split at hb
      · rename_i hroot
        simp [hroot, ← Except.ok.inj hb]
      · rename_i t hroot
        split at hb
        · rename_i ht
          simp [hroot, ht, ← Except.ok.inj hb]
        · rename_i b' ht
          simp [hroot, ht, ← Except.ok.inj hb]
        · contradiction
      · contradiction
    · rw [variablesIn] at hxs
      rw [itemsOf]
      split at hxs
      · rename_i hroot
        simp [hroot, ← Except.ok.inj hxs]
      · rename_i items hroot
        simpa [hroot] using forall₂_declares hxs
      · contradiction

lemma ofDocument_of_firstFault {f : Manifest.Fault} (h : FirstFault root f)
    (hs : Short (.table root)) : ofDocument root = .error (.fault f) := by
  cases h with
  | @evaluatorNotTable v h hv =>
    have himplied : impliedOf root = .error (.fault .evaluatorNotTable) := by
      cases v <;> simp_all [impliedOf]
    simp only [ofDocument, himplied]
  | @impliedNotBoolean t v h ht hv =>
    have himplied : impliedOf root = .error (.fault .impliedNotBoolean) := by
      cases v <;> simp_all [impliedOf]
    simp only [ofDocument, himplied]
  | @variablesNotArray v he h hv =>
    obtain ⟨b, hb⟩ := impliedOf_of_shape he
    have hrows : variablesIn root = .error (.fault .variablesNotArray) := by
      cases v <;> simp_all [variablesIn]
    simp only [ofDocument, hb, hrows, Except.map]
  | @item items k v f he h hk hbefore hf =>
    obtain ⟨b, hb⟩ := impliedOf_of_shape he
    have hrows : variablesIn root = .error (.fault f) := by
      rw [variablesIn, h]
      exact variablesOf_of_itemFault hk hbefore (short_array_iff.mp (short_of_lookup hs h))
        (by rwa [Nat.zero_add])
    simp only [ofDocument, hb, hrows, Except.map]

lemma shape_or_firstFault (root : Table) : Shape root ∨ ∃ f, FirstFault root f := by
  have hevaluator : EvaluatorShape (root.lookup "evaluator") ∨ ∃ f, FirstFault root f := by
    cases hroot : root.lookup "evaluator" with
    | none => exact .inl .absent
    | some v =>
      by_cases htable : ∃ t, v = .table t
      · obtain ⟨t, rfl⟩ := htable
        cases ht : t.lookup "implied_multiplication" with
        | none => exact .inl (.silent ht)
        | some w =>
          by_cases hw : ∃ b, w = .boolean b
          · obtain ⟨b, rfl⟩ := hw
            exact .inl (.rule ht)
          · exact .inr ⟨_, .impliedNotBoolean hroot ht (not_exists.mp hw)⟩
      · exact .inr ⟨_, .evaluatorNotTable hroot (not_exists.mp htable)⟩
  rcases hevaluator with he | hf
  · cases hroot : root.lookup "variables" with
    | none => exact .inl ⟨he, hroot ▸ .absent⟩
    | some v =>
      by_cases harray : ∃ items, v = .array items
      · obtain ⟨items, rfl⟩ := harray
        rcases forall_or_first items 0 with hall | ⟨k, v, f, hk, hbefore, hf⟩
        · exact .inl ⟨he, hroot ▸ .array hall⟩
        · exact .inr ⟨f, .item he hroot hk hbefore (Nat.zero_add k ▸ hf)⟩
      · exact .inr ⟨_, .variablesNotArray he hroot (not_exists.mp harray)⟩
  · exact .inr hf

/-! ### Keys that mean nothing -/

lemma variableOf_congr {w : Value} (h : SameFor ["name", "value"] v w) :
    variableOf i v = variableOf i w := by
  cases h with
  | table h =>
    have hname := h "name" (by simp)
    have hvalue := h "value" (by simp)
    simp only [variableOf, hname, hvalue]
  | same => rfl

lemma variablesOf_congr {items' : List Value}
    (h : List.Forall₂ (SameFor ["name", "value"]) items items') :
    variablesOf i items = variablesOf i items' := by
  induction h generalizing i with
  | nil => rfl
  | cons hv _ ih => simp only [variablesOf, variableOf_congr hv, ih]

lemma impliedOf_congr (h : SameKnown root root') : impliedOf root = impliedOf root' := by
  have hsame := h.evaluator
  rw [impliedOf, impliedOf]
  generalize root.lookup "evaluator" = v, root'.lookup "evaluator" = v' at hsame
  cases hsame with
  | none => rfl
  | some hv =>
    cases hv with
    | table ht =>
      have hrule := ht "implied_multiplication" (by simp)
      simp only [hrule]
    | same => rfl

lemma variablesIn_congr (h : SameKnown root root') : variablesIn root = variablesIn root' := by
  have hsame := h.rows
  rw [variablesIn, variablesIn]
  generalize root.lookup "variables" = v, root'.lookup "variables" = v' at hsame
  cases hsame with
  | none => rfl
  | some hv =>
    cases hv with
    | array hitems => exact variablesOf_congr hitems
    | same => rfl

lemma ofDocument_congr (h : SameKnown root root') : ofDocument root = ofDocument root' := by
  rw [ofDocument, ofDocument, impliedOf_congr h, variablesIn_congr h]

/-! ### Messages -/

lemma message_of_itemFault {f : Manifest.Fault} (h : ItemFault i v f) :
    ∃ rest, f.message = "variables[" ++ toString i ++ "]" ++ rest := by
  cases h with
  | notTable => exact ⟨" must be a table", rfl⟩
  | noName => exact ⟨" needs a non-empty 'name'", rfl⟩
  | badValue => exact ⟨".value must be a string or number", rfl⟩

/-! ### Files -/

lemma load_of_ok {path text : String} {m : Manifest} (htext : document (Text.unified text) = .ok root)
    (hm : ofDocument root = .ok m) : load path (.bytes text.toUTF8) = .ok m := by
  simp only [load_toUTF8, ofText, htext, hm]

lemma load_of_fault {path text : String} {f : Manifest.Fault}
    (htext : document (Text.unified text) = .ok root) (hf : ofDocument root = .error (.fault f)) :
    load path (.bytes text.toUTF8) = .error (.fault path f) := by
  simp only [load_toUTF8, ofText, htext, hf]

/-- **A document is a manifest just if it has the shape of one**, and then the manifest has its rule
for neighbours and one variable for each item, in order. Otherwise it is refused for its first fault,
and a fault of an item names the item. Other keys make no difference. So it is with every file that
holds the document, whose fault is reported at its path. -/
theorem ofDocument_shape (root : Table) (hs : Short (.table root)) :
    ((∃ m, ofDocument root = .ok m) ↔ Shape root) ∧
      (∀ m, ofDocument root = .ok m → Gives root m) ∧
      (∀ e, ofDocument root = .error e ↔ ∃ f, FirstFault root f ∧ e = .fault f) ∧
      (∀ i v f, ItemFault i v f → ∃ rest, f.message = "variables[" ++ toString i ++ "]" ++ rest) ∧
      (∀ root', SameKnown root root' → ofDocument root' = ofDocument root) ∧
      ∀ path text, document (Text.unified text) = .ok root →
        (∀ m, load path (.bytes text.toUTF8) = .ok m ↔ ofDocument root = .ok m) ∧
          ∀ e, load path (.bytes text.toUTF8) = .error e ↔
            ∃ f, FirstFault root f ∧ e = .fault path f := by
  have hitems : ∀ i v f, ItemFault i v f →
      ∃ rest, f.message = "variables[" ++ toString i ++ "]" ++ rest :=
    fun i v f => message_of_itemFault
  have hknown : ∀ root', SameKnown root root' → ofDocument root' = ofDocument root :=
    fun root' h => (ofDocument_congr h).symm
  rcases shape_or_firstFault root with hshape | ⟨f, hf⟩
  · obtain ⟨m, hm⟩ := ofDocument_of_shape hshape hs
    -- a document in shape is read, so it has no fault
    have hnone : ∀ f, ¬ FirstFault root f := by
      intro f hf
      rw [ofDocument_of_firstFault hf hs] at hm
      contradiction
    refine ⟨⟨fun _ => hshape, fun _ => ⟨m, hm⟩⟩, fun _ => gives_of_ofDocument,
      by simp [hm, hnone], hitems, hknown, fun path text htext => ?_⟩
    rw [load_of_ok htext hm, hm]
    simp [hnone]
  · have hroot := ofDocument_of_firstFault hf hs
    -- the fault is read off the error, so there is one only
    have hunique : ∀ g, FirstFault root g ↔ g = f := by
      refine fun g => ⟨fun hg => ?_, fun hg => hg ▸ hf⟩
      rw [ofDocument_of_firstFault hg hs] at hroot
      simpa using hroot
    have hno : ¬ Shape root := by
      intro hshape
      obtain ⟨m, hm⟩ := ofDocument_of_shape hshape hs
      rw [hm] at hroot
      contradiction
    refine ⟨by simp [hroot, hno], fun _ => gives_of_ofDocument, by simp [hroot, hunique, eq_comm],
      hitems, hknown, fun path text htext => ?_⟩
    rw [load_of_fault htext hroot, hroot]
    simp [hunique, eq_comm]

/-- The second item has a value that is no number, and there is a key that means nothing. -/
def faultyText : String :=
  "evaluator.colour = 'red'\n[[variables]]\nname = ' a'\nvalue = -7\n" ++
    "[[variables]]\nname = 'b'\nvalue = true\n"

def faultyItems : List Value :=
  [.table [("name", .string " a"), ("value", .integer (-7))],
    .table [("name", .string "b"), ("value", .boolean true)]]

def faultyRoot : Table :=
  [("evaluator", .table [("colour", .string "red")]), ("variables", .array faultyItems)]

lemma document_faultyText : document (Text.unified faultyText) = .ok faultyRoot := by
  decide +kernel

theorem ofDocument_shape_second_item :
    Short (.table faultyRoot) ∧ document (Text.unified faultyText) = .ok faultyRoot ∧
      FirstFault faultyRoot (.badValue 1) ∧
      (∀ m, ofDocument faultyRoot ≠ .ok m) ∧ ¬ Shape faultyRoot ∧
      load "m.toml" (.bytes faultyText.toUTF8) = .error (.fault "m.toml" (.badValue 1)) ∧
      ofDocument [("variables", .array faultyItems), ("evaluator", .table [])] =
        ofDocument faultyRoot := by
  have hs : Short (.table faultyRoot) := by
    have hinteger : Short (.integer (-7)) := by
      rintro i ⟨⟩
      decide +kernel
    have hstring : ∀ s, Short (.string s) := by rintro s i ⟨⟩
    have hboolean : Short (.boolean true) := by rintro i ⟨⟩
    simp [faultyRoot, faultyItems, short_table_iff, short_array_iff, hinteger, hstring, hboolean]
  have hbefore : ∀ w ∈ faultyItems.take 1, ∃ x, Declares w x :=
    List.forall_mem_singleton.mpr ⟨⟨" a", toString (-7)⟩,
      .table ⟨rfl, 'a', by simp, by decide +kernel⟩ (.integer _)⟩
  have hitem : ItemFault 1 (.table [("name", .string "b"), ("value", .boolean true)])
      (.badValue 1) := by
    have hname : HasName [("name", .string "b"), ("value", .boolean true)] "b" :=
      ⟨rfl, 'b', by simp, by decide +kernel⟩
    refine .badValue hname ?_
    rintro s ⟨⟩
  have hfault : FirstFault faultyRoot (.badValue 1) := .item (.silent rfl) rfl rfl hbefore hitem
  have hknown : SameKnown faultyRoot [("variables", .array faultyItems), ("evaluator", .table [])] :=
    ⟨.some (.table (by simp [AgreeOn])), .some (.same _)⟩
  obtain ⟨hshape, -, herror, -, hsame, hload⟩ := ofDocument_shape faultyRoot hs
  have hno : ∀ m, ofDocument faultyRoot ≠ .ok m := by
    intro m hm
    rw [(herror _).mpr ⟨_, hfault, rfl⟩] at hm
    contradiction
  exact ⟨hs, document_faultyText, hfault, hno, fun h => (hshape.mpr h).elim hno,
    ((hload "m.toml" _ document_faultyText).2 _).mpr ⟨_, hfault, rfl⟩, hsame _ hknown⟩

end Abacus.Proofs.ManifestShape
