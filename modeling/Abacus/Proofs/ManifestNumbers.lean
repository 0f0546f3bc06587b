import Abacus.Proofs.ManifestShape
import Abacus.Proofs.ReadBack
import Abacus.Proofs.Report
import Abacus.Proofs.Rounding

/-!
Numbers of a manifest. On its way from a document into a calculation a number is a text twice, as the
value of an entry and as that of a row, and the text is read by the strict syntax of values. All
digits of an integer are written, so it is rounded only once, when it is read; a float is written
with digits that read as it.
-/

namespace Abacus.Proofs.ManifestNumbers

open Grammar Manifest ManifestShape Numeral Report Toml

variable {root t : Table} {m : Manifest} {name x : String} {vars : Snapshot} {v : Double}

/-! ### Texts of numbers -/

lemma readNumber?_text (v : Double) : readNumber? v.text = some v := by
  match v with
  | .nan => decide +kernel
  | .inf false => decide +kernel
  | .inf true => decide +kernel
  | .finite s m =>
    obtain ⟨y, hy, htext⟩ := Double.exists_numeral_text s m
    rw [htext, hy.readNumber?]

/-- The digits of an integer are read as the double nearest to it. -/
lemma readNumber?_toString (i : ℤ) : readNumber? (toString i) = some (.ofInt i) := by
  have hy : WellFormed Text.asciiDigitValue? ⟨decimalDigits i.natAbs, none, none⟩ :=
    ⟨allDigits_decimalDigits _, by simp, fun h => Nat.toDigits_ne_nil h.1, by simp⟩
  have htext : Numeral.text ⟨decimalDigits i.natAbs, none, none⟩ = decimalDigits i.natAbs := by
    simp [Numeral.text, fractionText, powerText]
  have hread := readNumber?_numeral hy (i < 0)
  have hvalue : Numeral.value Text.asciiDigitValue? ⟨decimalDigits i.natAbs, none, none⟩ =
      ⟨i.natAbs, 0⟩ := by
    simp [Numeral.value, powerValue, valueOf_decimalDigits]
  rw [htext, signChars_decimalDigits, hvalue] at hread
  rw [hread, Decimal.toDouble]
  by_cases hi : i = 0
  · subst hi
    rfl
  · simp [hi, Double.ofInt, tenPow]

/-! ### Names as expressions -/

/-- An identifier is a text that is one word. -/
lemma parse_name (h : Token.scan x = .ok [⟨.ident, x, 0⟩]) (implied : Bool) :
    Expr.parse implied x = .ok (.reference x 0) := by
  rw [Expr.parse, h]
  have hname := reads_name (g := ⟨implied, x.length⟩) (n := 0) (t := ⟨.ident, x, 0⟩) rfl (clear_nil _)
  exact expression_of_reads (reads_sum_of_product (clear_nil _)
    (reads_product_of_signed (clear_nil _)
      (reads_signed_of_operand rfl no_bangs (clear_nil _) (clear_nil _) hname)))

lemma calculate_name (lib : Library) (implied : Bool) (hx : Token.scan x = .ok [⟨.ident, x, 0⟩])
    (hv : vars.resolve x = some v) : lib.calculate implied x vars = .value v := by
  have hnumber : (scope lib implied vars).number? x = some v := by
    rw [Scope.number?, scope, Lookup.resolve_ofSnapshot, hv]
  rw [calculate_of_parse lib vars (parse_name hx implied), Scope.outcome, PlainWalk.eval_eq,
    PlainWalk.plain, Scope.reference, hnumber]
  rfl

/-! ### The first item of a name -/

/-- The item is a table whose name is `x`, letter case aside. -/
def NamedAs (x : String) (v : Value) : Prop :=
  ∃ t name, v = .table t ∧ t.lookup "name" = some (.string name) ∧ sameName name x = true

/-- Among the items of a document the table is the first that is named so. -/
def FirstItem (root : Table) (x : String) (t : Table) : Prop :=
  ∃ before after, itemsOf root = before ++ .table t :: after ∧ NamedAs x (.table t) ∧
    ∀ v ∈ before, ¬ NamedAs x v

lemma find?_of_first {before after : List Value} {entries : List Variable}
    (h : List.Forall₂ Declares (before ++ .table t :: after) entries) (ht : NamedAs x (.table t))
    (hbefore : ∀ v ∈ before, ¬ NamedAs x v) :
    ∃ y, entries.find? (·.answersTo x) = some y ∧ KeptAs (t.lookup "value") y.value := by
  induction before generalizing entries with
  | nil =>
    obtain ⟨_, name, ⟨⟩, hname, hsame⟩ := ht
    obtain ⟨y, ys, hy, -, rfl⟩ := List.forall₂_cons_left_iff.mp h
    cases hy with
    | table hname' hvalue =>
      obtain ⟨hname', -⟩ := hname'
      obtain rfl : name = _ := by simpa [hname] using hname'
      exact ⟨_, List.find?_cons_of_pos hsame, hvalue⟩
  | cons w before ih =>
    obtain ⟨y, ys, hy, hrest, rfl⟩ := List.forall₂_cons_left_iff.mp h
    obtain ⟨hw, hbefore⟩ := List.forall_mem_cons.mp hbefore
    have hother : ¬ (y.answersTo x = true) := by
      intro hanswers
      cases hy with
      | table hname _ => exact hw ⟨_, _, rfl, hname.1, hanswers⟩
    simpa [List.find?_cons, hother] using ih hrest hbefore

lemma resolve_of_first (hm : ofDocument root = .ok m) (ht : FirstItem root x t) :
    ∃ s, KeptAs (t.lookup "value") s ∧ m.store.snapshot.resolve x = readNumber? s := by
  obtain ⟨before, after, hitems, hname, hbefore⟩ := ht
  have hentries := (gives_of_ofDocument hm).entries
  rw [hitems] at hentries
  obtain ⟨y, hy, hkept⟩ := find?_of_first hentries hname hbefore
  refine ⟨y.value, hkept, ?_⟩
  have hsnapshot : m.store.snapshot = ⟨m.entries⟩ := congrArg _ (Overlay.toList_ofList m.entries)
  rw [hsnapshot, Snapshot.resolve, Snapshot.find?, hy]
  rfl

/-- **A number in a manifest means that number.** If the first item whose name is an identifier has a
float for its value, then the identifier as an expression evaluates to that float over the store of
the manifest, and if it has an integer, to the nearest double, which is infinite if there is none. -/
theorem calculate_of_number (root : Table) {m : Manifest} (hm : ofDocument root = .ok m)
    {x : String} (hx : Token.scan x = .ok [⟨.ident, x, 0⟩]) {t : Table} (ht : FirstItem root x t)
    (lib : Library) (implied : Bool) :
    (∀ v, t.lookup "value" = some (.float v) →
        lib.calculate implied x m.store.snapshot = .value v) ∧
      (∀ i : ℤ, t.lookup "value" = some (.integer i) →
        ∃ v, lib.calculate implied x m.store.snapshot = .value v ∧
          Double.Rounds (decide (i < 0)) |(i : ℝ)| v) ∧
      ∀ path text, document (Text.unified text) = .ok root →
        load path (.bytes text.toUTF8) = .ok m := by
  obtain ⟨s, hs, hresolve⟩ := resolve_of_first hm ht
  refine ⟨fun v hv => ?_, fun i hi => ⟨.ofInt i, ?_, ?_⟩, fun path text htext => load_of_ok htext hm⟩
  · rw [hv] at hs
    cases hs
    exact calculate_name lib implied hx (hresolve.trans (readNumber?_text v))
  · rw [hi] at hs
    cases hs
    exact calculate_name lib implied hx (hresolve.trans (readNumber?_toString i))
  · -- an integer is turned into a double by one rounding
    have hrounds := Double.rounds_ofRatio (decide (i < 0)) i.natAbs Nat.one_pos
    rwa [Nat.cast_one, div_one, Nat.cast_natAbs, Int.cast_abs] at hrounds

/-- Three items, the last with the name of the second in other letter case. The integer is halfway
between two doubles. -/
def numbersText : String :=
  "variables = [\x7bname = 'z', value = -0.0\x7d, \x7bname = 'Big', value = -9007199254740993\x7d, "
    ++ "\x7bname = 'BIG', value = '1'\x7d]"

def zeroItem : Table := [("name", .string "z"), ("value", .float (.zero true))]

def bigItem : Table := [("name", .string "Big"), ("value", .integer (-9007199254740993))]

def numbersRoot : Table :=
  [("variables", .array [.table zeroItem, .table bigItem,
    .table [("name", .string "BIG"), ("value", .string "1")]])]

lemma document_numbersText : document (Text.unified numbersText) = .ok numbersRoot := by
  decide +kernel

theorem calculate_of_number_halfway :
    ∃ m, load "m.toml" (.bytes numbersText.toUTF8) = .ok m ∧
      Library.calculate ⟨.standard, .empty⟩ false "Z" m.store.snapshot = .value (.zero true) ∧
      ∃ v, Library.calculate ⟨.standard, .empty⟩ false "BIG" m.store.snapshot = .value v ∧
        Double.Rounds true |((-9007199254740993 : ℤ) : ℝ)| v := by
  have hm : ofDocument numbersRoot = .ok ⟨false,
      [⟨"z", "-0.0"⟩, ⟨"Big", "-9007199254740993"⟩, ⟨"BIG", "1"⟩]⟩ := by decide +kernel
  have hz : FirstItem numbersRoot "Z" zeroItem :=
    ⟨[], _, rfl, ⟨_, _, rfl, rfl, by decide +kernel⟩, by simp⟩
  have hbig : FirstItem numbersRoot "BIG" bigItem := by
    refine ⟨[.table zeroItem], _, rfl, ⟨_, _, rfl, rfl, by decide +kernel⟩, ?_⟩
    rintro v hv ⟨_, name, rfl, hname, hsame⟩
    obtain ⟨⟩ := List.mem_singleton.mp hv
    cases hname
    exact absurd hsame (by decide +kernel)
  have hZ : Token.scan "Z" = .ok [⟨.ident, "Z", 0⟩] := by decide +kernel
  have hBIG : Token.scan "BIG" = .ok [⟨.ident, "BIG", 0⟩] := by decide +kernel
  obtain ⟨hzero, -, hload⟩ := calculate_of_number numbersRoot hm hZ hz ⟨.standard, .empty⟩ false
  obtain ⟨-, hround, -⟩ := calculate_of_number numbersRoot hm hBIG hbig ⟨.standard, .empty⟩ false
  exact ⟨_, hload "m.toml" numbersText document_numbersText, hzero _ rfl, hround _ rfl⟩

end Abacus.Proofs.ManifestNumbers
