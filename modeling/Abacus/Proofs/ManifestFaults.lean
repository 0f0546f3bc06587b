import Abacus.Proofs.Overlay
import Abacus.Proofs.TomlIntegers
import Mathlib.Tactic.Ring

/-!
What can go wrong with a manifest. Nearly everything is reported as a fault of the file: that it is
missing or a directory, that it is no document, or that the document has the wrong shape. Three things
are not: bytes that are not UTF-8, a decimal integer with more digits than are allowed, and a value
that is an integer which would need more of them than that to be written. How deep values are nested
makes no difference here.
-/

namespace Abacus.Proofs.ManifestFaults

open Manifest Toml TomlReads TomlIntegers

/-! ### Integers and their digits -/

/-- A number has more digits than are allowed just if it is not below the limit's power of ten. -/
lemma limit_lt_length_iff (n : ℕ) :
    digitLimit < (decimalDigits n).length ↔ 10 ^ digitLimit ≤ n := by
  have h := Nat.length_toDigits_le_iff (n := n) (by decide : 1 < 10) (by decide : 0 < digitLimit)
  rw [← not_iff_not, not_lt, not_le, decimalDigits, h]

lemma integerText_eq_error_iff {i : ℤ} {e : Manifest.Refusal} :
    integerText i = .error e ↔ e = .tooManyDigits ∧ 10 ^ digitLimit ≤ i.natAbs := by
  rw [← limit_lt_length_iff, integerText]
  split
  · rename_i h
    simp [h, eq_comm]
  · rename_i h
    simp [h]

/-- Digits behind a number make it longer by as many places at most. -/
lemma foldl_baseValue_lt {base : ℕ} {ds : List Char} (h : ∀ c ∈ ds, isBaseDigit base c = true)
    (n : ℕ) :
    ds.foldl (fun n c => base * n + (hexValue? c).getD 0) n < (n + 1) * base ^ ds.length := by
  induction ds generalizing n with
  | nil => simp
  | cons c ds ih =>
    obtain ⟨hc, hds⟩ := List.forall_mem_cons.mp h
    have hdigit : (hexValue? c).getD 0 + 1 ≤ base := by
      cases hv : hexValue? c with
      | none => simp [isBaseDigit, hv] at hc
      | some d => simpa [isBaseDigit, hv, Nat.succ_le_iff] using hc
    rw [List.foldl_cons]
    -- a digit is below the base, so the next unit of the higher place is not reached
    calc ds.foldl (fun n c => base * n + (hexValue? c).getD 0) (base * n + (hexValue? c).getD 0)
        < (base * n + (hexValue? c).getD 0 + 1) * base ^ ds.length := ih hds _
      _ ≤ (base * n + base) * base ^ ds.length := by
        gcongr ?_ * _
        omega
      _ = (n + 1) * base ^ (c :: ds).length := by rw [List.length_cons]; ring

lemma isSome_hexValue?_of_isBaseDigit {base : ℕ} {c : Char} (h : isBaseDigit base c = true) :
    (hexValue? c).isSome = true := by
  cases hv : hexValue? c with
  | none => simp [isBaseDigit, hv] at h
  | some d => rfl

/-- No digits to a base of at most sixteen stand in a row of more than so many. -/
def RunsWithin (k : ℕ) (doc : List Char) : Prop :=
  ∀ ds, HasDigits doc ds → (∀ c ∈ ds, (hexValue? c).isSome = true) → ds.length ≤ k

variable {doc : List Char} {i : ℤ} {k : ℕ}

lemma natAbs_lt_of_written (h : Written doc i) (hk : RunsWithin k doc) : i.natAbs < 16 ^ k := by
  obtain ⟨ds, base, hdigits, hall, hbase, hi⟩ := h
  have hlength := hk ds hdigits fun c hc => isSome_hexValue?_of_isBaseDigit (hall c hc)
  calc i.natAbs = baseValue base ds := hi
    _ < base ^ ds.length := by simpa [baseValue] using foldl_baseValue_lt hall 0
    _ ≤ 16 ^ ds.length := Nat.pow_le_pow_left hbase _
    _ ≤ 16 ^ k := Nat.pow_le_pow_right (by decide) hlength

/-- The longest row of digits that cannot be an integer past the limit. -/
def safeRun : ℕ := 3571

lemma sixteen_pow_lt : 16 ^ safeRun < 10 ^ digitLimit := by decide +kernel

lemma not_longDecimal {n : ℕ} (hk : RunsWithin safeRun doc) : ¬ LongDecimal doc n := by
  rintro ⟨hlimit, ds, hdigits, hall, rfl⟩
  have hlength := hk ds hdigits fun c hc =>
    isSome_hexValue?_of_isBaseDigit (isBaseDigit_of_isDigit (hall c hc))
  have hsafe : safeRun < digitLimit := by decide
  omega

/-! ### Documents -/

variable {e : Manifest.Refusal} {root : Table}

lemma map_eq_ok_iff {ε α β : Type} {r : Except ε α} {f : α → β} {b : β} :
    r.map f = .ok b ↔ ∃ a, r = .ok a ∧ f a = b := by
  cases r <;> simp [Except.map]

lemma map_eq_error_iff {ε α β : Type} {r : Except ε α} {f : α → β} {e : ε} :
    r.map f = .error e ↔ r = .error e := by
  cases r <;> simp [Except.map]

lemma variablesOf_append {index : ℕ} {before : List Value} {xs : List Variable}
    (h : variablesOf index before = .ok xs) (after : List Value) :
    variablesOf index (before ++ after) =
      (variablesOf (index + before.length) after).map (xs ++ ·) := by
  induction before generalizing index xs with
  | nil =>
    obtain rfl := Except.ok.inj h
    cases hafter : variablesOf index after <;> simp [hafter, Except.map]
  | cons v before ih =>
    rw [variablesOf] at h
    rw [List.cons_append, variablesOf]
    split at h
    · contradiction
    · rename_i x hx
      obtain ⟨ys, hys, rfl⟩ := map_eq_ok_iff.mp h
      rw [ih hys, List.length_cons, Nat.add_comm before.length, ← Nat.add_assoc]
      cases variablesOf (index + 1 + before.length) after <;> rfl

/-- A list of items is refused for the first of them that is. -/
lemma variablesOf_eq_error_iff {index : ℕ} {items : List Value} :
    variablesOf index items = .error e ↔ ∃ before v after xs, items = before ++ v :: after ∧
      variablesOf index before = .ok xs ∧ variableOf (index + before.length) v = .error e := by
  constructor
  · intro h
    induction items generalizing index with
    | nil => contradiction
    | cons v items ih =>
      rw [variablesOf] at h
      split at h
      · rename_i hv
        exact ⟨[], v, items, [], rfl, rfl, hv.trans (congrArg _ (Except.error.inj h))⟩
      · rename_i x hx
        obtain ⟨before, w, after, xs, rfl, hxs, hw⟩ := ih (map_eq_error_iff.mp h)
        refine ⟨v :: before, w, after, x :: xs, rfl, ?_, ?_⟩
        · simp only [variablesOf, hx, hxs, Except.map]
        · rwa [List.length_cons, Nat.add_comm before.length, ← Nat.add_assoc]
  · rintro ⟨before, v, after, xs, rfl, hxs, hv⟩
    simp only [variablesOf_append hxs, variablesOf, hv, Except.map]

/-- The item has a name, and as its value an integer that has too many digits to be written. -/
def LongItem (v : Value) : Prop :=
  ∃ t name i, v = .table t ∧ t.lookup "name" = some (.string name) ∧ isBlankText name = false ∧
    t.lookup "value" = some (.integer i) ∧ 10 ^ digitLimit ≤ i.natAbs

lemma valueText_eq_tooManyDigits_iff {index : ℕ} {v : Option Value} :
    valueText index v = .error .tooManyDigits ↔
      ∃ i, v = some (.integer i) ∧ 10 ^ digitLimit ≤ i.natAbs := by
  rw [valueText.eq_def]
  split
  · simp
  · simp
  · simp [integerText_eq_error_iff]
  · simp
  · rename_i hinteger _
    simpa using fun i hi => absurd hi (hinteger i)

lemma variableOf_eq_tooManyDigits_iff {index : ℕ} {v : Value} :
    variableOf index v = .error .tooManyDigits ↔ LongItem v := by
  rw [variableOf.eq_def]
  split
  · rename_i t
    split
    · rename_i name hname
      split
      · -- a blank name is refused before the value is looked at
        rename_i hblank
        simp [LongItem, hname, hblank]
      · rename_i hblank
        simp [LongItem, hname, hblank, map_eq_error_iff, valueText_eq_tooManyDigits_iff]
    · rename_i hname
      simp only [LongItem, reduceCtorEq, Except.error.injEq, false_iff]
      rintro ⟨_, name, i, ⟨⟩, h, -⟩
      exact hname name h
  · rename_i htable
    simp only [LongItem, reduceCtorEq, Except.error.injEq, false_iff]
    rintro ⟨t, name, i, rfl, -⟩
    exact htable t rfl

/-- A document with nothing to be refused for before an item whose value is too long. -/
def LongValue (root : Table) : Prop :=
  ∃ implied before v after xs, impliedOf root = .ok implied ∧
    root.lookup "variables" = some (.array (before ++ v :: after)) ∧
    variablesOf 0 before = .ok xs ∧ LongItem v

lemma impliedOf_ne_tooManyDigits (root : Table) : impliedOf root ≠ .error .tooManyDigits := by
  rw [impliedOf]
  split
  · simp
  · split <;> simp
  · simp

lemma variablesIn_eq_tooManyDigits_iff :
    variablesIn root = .error .tooManyDigits ↔ ∃ before v after xs,
      root.lookup "variables" = some (.array (before ++ v :: after)) ∧
        variablesOf 0 before = .ok xs ∧ LongItem v := by
  rw [variablesIn]
  split
  · rename_i hnone
    simp [hnone]
  · rename_i items hitems
    simp only [variablesOf_eq_error_iff, variableOf_eq_tooManyDigits_iff, hitems,
      Option.some.injEq, Value.array.injEq]
  · rename_i v harray hv
    simp only [hv, reduceCtorEq, Except.error.injEq, Option.some.injEq, false_iff]
    rintro ⟨before, w, after, xs, h, -⟩
    exact harray _ h

lemma ofDocument_eq_tooManyDigits_iff :
    ofDocument root = .error .tooManyDigits ↔ LongValue root := by
  rw [ofDocument]
  cases himplied : impliedOf root with
  | error e =>
    have hne : e ≠ .tooManyDigits := by
      rintro rfl
      exact impliedOf_ne_tooManyDigits root himplied
    simp [LongValue, himplied, hne]
  | ok implied =>
    dsimp only
    rw [map_eq_error_iff, variablesIn_eq_tooManyDigits_iff]
    simp [LongValue, himplied]

lemma not_longValue (hroot : Traced doc (.table root)) (hk : RunsWithin safeRun doc) :
    ¬ LongValue root := by
  rintro ⟨-, before, -, after, -, -, hvars, -, t, -, i, rfl, -, -, hvalue, hi⟩
  have hitem : Traced doc (.table t) :=
    traced_array_iff.mp (traced_of_lookup hroot hvars) _ (by simp)
  have hwritten : Written doc i := traced_of_lookup hitem hvalue i .here
  have hlt := (natAbs_lt_of_written hwritten hk).trans sixteen_pow_lt
  omega

/-! ### Files -/

/-- What a file can fail with that is not reported as a fault of it. -/
inductive Uncaught : File → Manifest.Error → Prop
  | notUtf8 {content : ByteArray} (h : ∀ text : String, text.toUTF8 ≠ content) :
      Uncaught (.bytes content) .notUtf8
  | decimal {text : String} {n : ℕ}
      (h : document (Text.unified text) = .error (.tooManyDigits n))
      (hlong : LongDecimal (Text.unified text).toList n) :
      Uncaught (.bytes text.toUTF8) (.tooManyDigits (some n))
  | value {text : String} {root : Table} (h : document (Text.unified text) = .ok root)
      (hlong : LongValue root) : Uncaught (.bytes text.toUTF8) (.tooManyDigits none)

lemma fromUTF8?_eq_some_iff {content : ByteArray} {text : String} :
    String.fromUTF8? content = some text ↔ content = text.toUTF8 := by
  constructor
  · intro h
    rw [String.fromUTF8?] at h
    split at h
    · exact Option.some.inj h ▸ rfl
    · contradiction
  · rintro rfl
    exact Overlay.fromUTF8?_toUTF8 text

lemma fromUTF8?_eq_none_iff {content : ByteArray} :
    String.fromUTF8? content = none ↔ ∀ text : String, text.toUTF8 ≠ content := by
  rw [Option.eq_none_iff_forall_ne_some]
  exact forall_congr' fun text => not_congr (fromUTF8?_eq_some_iff.trans eq_comm)

lemma load_toUTF8 (path text : String) :
    load path (.bytes text.toUTF8) = ofText path text := by
  rw [load, Overlay.fromUTF8?_toUTF8]

/-- A text is read, or it has a fault, or one of its integers has too many digits. -/
lemma ofText_cases (path text : String) :
    (∃ m, ofText path text = .ok m) ∨ (∃ f, ofText path text = .error (.fault path f)) ∨
      ∃ e, Uncaught (.bytes text.toUTF8) e := by
  have hsound := sound_document (Text.unified text)
  rw [ofText]
  split
  · exact .inr (.inl ⟨_, rfl⟩)
  · -- a decimal integer with too many digits, met by the reader
    rename_i n hn
    rw [hn] at hsound
    exact .inr (.inr ⟨_, .decimal hn hsound⟩)
  · rename_i root hroot
    split
    · exact .inl ⟨_, rfl⟩
    · exact .inr (.inl ⟨_, rfl⟩)
    · -- an integer of another base, met when it is turned into text
      rename_i hlong
      exact .inr (.inr ⟨_, .value hroot (ofDocument_eq_tooManyDigits_iff.mp hlong)⟩)

lemma load_cases (path : String) (file : File) :
    (∃ m, load path file = .ok m) ∨ (∃ f, load path file = .error (.fault path f)) ∨
      ∃ e, Uncaught file e := by
  cases file with
  | missing | directory | refused reason => exact .inr (.inl ⟨_, rfl⟩)
  | bytes content =>
    cases h : String.fromUTF8? content with
    | none => exact .inr (.inr ⟨_, .notUtf8 (fromUTF8?_eq_none_iff.mp h)⟩)
    | some text =>
      obtain rfl := fromUTF8?_eq_some_iff.mp h
      rw [load_toUTF8]
      exact ofText_cases path text

lemma load_of_uncaught (path : String) {file : File} {e : Manifest.Error} (h : Uncaught file e) :
    load path file = .error e := by
  cases h with
  | notUtf8 h => rw [load, fromUTF8?_eq_none_iff.mpr h]
  | decimal h _ => rw [load_toUTF8, ofText, h]
  | value h hlong =>
    simp only [load_toUTF8, ofText, h, ofDocument_eq_tooManyDigits_iff.mpr hlong]

lemma ne_fault_of_uncaught {file : File} {e : Manifest.Error} (h : Uncaught file e) (path : String)
    (f : Manifest.Fault) : e ≠ .fault path f := by
  cases h <;> simp

lemma not_uncaught {text : String} (hk : RunsWithin safeRun (Text.unified text).toList)
    {e : Manifest.Error} : ¬ Uncaught (.bytes text.toUTF8) e := by
  -- what is uncaught has a text of its own; equal bytes make it this one
  generalize hfile : File.bytes text.toUTF8 = file
  rintro (⟨h⟩ | ⟨-, hlong⟩ | ⟨hread, hlong⟩)
  · exact h text (File.bytes.inj hfile)
  · obtain rfl := String.toByteArray_inj.mp (File.bytes.inj hfile)
    exact not_longDecimal hk hlong
  · obtain rfl := String.toByteArray_inj.mp (File.bytes.inj hfile)
    have hsound := sound_document (Text.unified text)
    rw [hread] at hsound
    exact not_longValue hsound hk hlong

/-- **A manifest is read or its fault is reported**, a fault at its path, just if there is nothing in
the file that goes uncaught, and what goes uncaught is what the loading fails with. In a text in
which no row of digits is too long there is no such thing. -/
theorem load_reported_iff (path : String) (file : File) :
    (((∃ m, load path file = .ok m) ∨ ∃ f, load path file = .error (.fault path f)) ↔
        ¬ ∃ e, Uncaught file e) ∧
      (∀ e, Uncaught file e → load path file = .error e) ∧
      ∀ text : String, file = .bytes text.toUTF8 →
        RunsWithin safeRun (Text.unified text).toList → ¬ ∃ e, Uncaught file e := by
  refine ⟨⟨?_, fun h => ?_⟩, fun e he => load_of_uncaught path he, ?_⟩
  · rintro h ⟨e, he⟩
    have hload := load_of_uncaught path he
    rcases h with ⟨m, hm⟩ | ⟨f, hf⟩
    · simp [hm] at hload
    · exact ne_fault_of_uncaught he path f (Except.error.inj (hload.symm.trans hf))
  · rcases load_cases path file with hm | hf | he
    · exact .inl hm
    · exact .inr hf
    · exact absurd he h
  · rintro text rfl hk ⟨e, he⟩
    exact not_uncaught hk he

/-- A byte with which no character begins. -/
def strayByte : File := .bytes ⟨#[0xff]⟩

lemma fromUTF8?_strayByte : String.fromUTF8? ⟨#[0xff]⟩ = none := by decide +kernel

lemma load_strayByte (path : String) : load path strayByte = .error .notUtf8 := by
  rw [strayByte, load, fromUTF8?_strayByte]

lemma runsWithin_of_length (h : doc.length ≤ k) : RunsWithin k doc := by
  rintro ds ⟨run, hrun, rfl⟩ -
  exact ((List.length_filter_le _ _).trans hrun.length_le).trans h

def hexText : String := "[[variables]]\nname = 'a'\nvalue = 0xff\n"

theorem load_reported_iff_hex :
    (Uncaught strayByte .notUtf8 ∧ load fileName strayByte = .error .notUtf8) ∧
      RunsWithin safeRun (Text.unified hexText).toList ∧
      ¬ ∃ e, Uncaught (.bytes hexText.toUTF8) e := by
  have hstray : Uncaught strayByte .notUtf8 :=
    .notUtf8 (fromUTF8?_eq_none_iff.mp fromUTF8?_strayByte)
  have hruns : RunsWithin safeRun (Text.unified hexText).toList :=
    runsWithin_of_length (by decide +kernel)
  exact ⟨⟨hstray, (load_reported_iff fileName strayByte).2.1 _ hstray⟩, hruns,
    (load_reported_iff fileName (.bytes hexText.toUTF8)).2.2 hexText rfl hruns⟩

theorem not_forall_load_reported : ¬ ∀ path file,
    (∃ m, load path file = .ok m) ∨ ∃ f, load path file = .error (.fault path f) := by
  intro h
  simpa [load_strayByte] using h fileName strayByte

end Abacus.Proofs.ManifestFaults
