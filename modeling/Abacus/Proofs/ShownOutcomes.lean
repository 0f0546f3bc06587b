import Abacus.CommandLine
import Abacus.Elementary.Standard
import Abacus.Proofs.PrintedText
import Abacus.Proofs.ReadBack
import Abacus.Proofs.Report

/-!
What is shown tells the outcome. A number is shown as a text that means it, a failure by one text that
means no number, and missing names under a heading that neither of them begins with, with a comma and
a blank between names that have neither in them. So the line that a calculation prints says which of
the three came of it, which names are missing and which number it is, and the exit code says the same.
-/

namespace Abacus.Proofs.ShownOutcomes

open CommandLine PrintedText Report Uses

/-! ### Names in a row -/

/-- The pieces of a text between the places where a comma and a blank stand. -/
def pieces : List Char → List (List Char)
  | [] => [[]]
  | ',' :: ' ' :: rest => [] :: pieces rest
  | c :: rest => (pieces rest).modifyHead (c :: ·)

def splitNames (s : String) : List String := (pieces s.toList).map String.ofList

lemma pieces_cons {c : Char} (h : c ≠ ',') (cs : List Char) :
    pieces (c :: cs) = (pieces cs).modifyHead (c :: ·) := by
  rw [pieces]
  exact fun rest hc _ => h hc

lemma pieces_of_forall {cs : List Char} (h : ∀ c ∈ cs, c ≠ ',') : pieces cs = [cs] := by
  induction cs with
  | nil => rfl
  | cons c cs ih =>
    obtain ⟨hc, hcs⟩ := List.forall_mem_cons.mp h
    rw [pieces_cons hc, ih hcs]
    rfl

lemma pieces_append {cs : List Char} (h : ∀ c ∈ cs, c ≠ ',') (rest : List Char) :
    pieces (cs ++ ',' :: ' ' :: rest) = cs :: pieces rest := by
  induction cs with
  | nil => rfl
  | cons c cs ih =>
    obtain ⟨hc, hcs⟩ := List.forall_mem_cons.mp h
    rw [List.cons_append, pieces_cons hc, ih hcs]
    rfl

/-- Names without commas are told apart where they stand in a row, if there is one at all. -/
lemma pieces_intercalate {words : List (List Char)} (h : ∀ cs ∈ words, ∀ c ∈ cs, c ≠ ',')
    (hne : words ≠ []) : pieces ([',', ' '].intercalate words) = words := by
  induction words with
  | nil => contradiction
  | cons cs words ih =>
    obtain ⟨hcs, hwords⟩ := List.forall_mem_cons.mp h
    cases words with
    | nil => simpa using pieces_of_forall hcs
    | cons ds words =>
      rw [List.intercalate_cons_cons, List.append_assoc, List.cons_append, List.singleton_append,
        pieces_append hcs, ih hwords (by simp)]

lemma splitNames_intercalate {names : List String} (h : ∀ name ∈ names, ∀ c ∈ name.toList, c ≠ ',')
    (hne : names ≠ []) : splitNames (", ".intercalate names) = names := by
  have hwords : ∀ cs ∈ names.map String.toList, ∀ c ∈ cs, c ≠ ',' := List.forall_mem_map.mpr h
  have hsep : (", " : String).toList = [',', ' '] := rfl
  rw [splitNames, String.toList_intercalate, hsep, pieces_intercalate hwords (by simpa using hne)]
  simp [Function.comp_def]

/-! ### Names of a report -/

/-- The name that is used. -/
def nameOf : Use → String
  | .reference name => name
  | .call name _ => name

lemma mem_references {us : List Use} {name : String} (h : name ∈ references us) :
    ∃ u ∈ us, nameOf u = name := by
  obtain ⟨u, hu, hname⟩ := List.mem_filterMap.mp h
  cases u with
  | reference x => exact ⟨_, hu, Option.some.inj hname⟩
  | call x n => simp at hname

lemma mem_calls {us : List Use} {c : String × ℕ} (h : c ∈ calls us) : ∃ u ∈ us, nameOf u = c.1 := by
  obtain ⟨u, hu, hname⟩ := List.mem_filterMap.mp h
  cases u with
  | reference x => simp at hname
  | call x n => exact ⟨_, hu, congrArg Prod.fst (Option.some.inj hname)⟩

/-- A report has no names but those that are used. -/
lemma mem_names_report {s : Scope} {us : List Use} {name : String}
    (h : name ∈ (report s us).names) : ∃ u ∈ us, nameOf u = name := by
  rw [report_eq, Missing.names, List.mem_append, List.mem_append] at h
  rcases h with (h | h) | h
  · exact mem_references (List.mem_filter.mp (mem_of_mem_eraseDupsBy h)).1
  · obtain ⟨c, hc, rfl⟩ := List.mem_map.mp (List.mem_eraseDups.mp h)
    exact mem_calls (List.mem_filter.mp hc).1
  · obtain ⟨c, hc, rfl⟩ := List.mem_map.mp (List.mem_eraseDups.mp h)
    exact mem_calls (List.mem_filter.mp hc).1

lemma isWordChar_of_begins {name : String} {pos : ℕ} (h : Token.Begins [] ⟨.ident, name, pos⟩) :
    ∀ c ∈ name.toList, Text.isWordChar c = true := by
  cases h with
  | word _ _ _ hc hcs _ =>
    rw [String.toList_ofList]
    exact List.forall_mem_cons.mpr ⟨Text.isWordChar_of_isWordStart hc, hcs⟩
  | mark _ hk => exact absurd rfl (Token.ne_of_mark hk).1

/-- The names in the tree of a source are words. -/
lemma isWordChar_of_sourced {e : Expr} (h : Sourced e) :
    ∀ u ∈ uses e, ∀ c ∈ (nameOf u).toList, Text.isWordChar c = true := by
  induction h with
  | finite | infinite => simp [uses]
  | reference hn => simpa [uses, nameOf] using isWordChar_of_begins hn
  | binary op _ _ ihl ihr => exact List.forall_mem_append.mpr ⟨ihl, ihr⟩
  | signed _ _ ih | factorial _ ih => exact ih
  | call hn _ ih =>
    simp only [uses, usesAll, List.append_nil]
    exact List.forall_mem_append.mpr
      ⟨ih, List.forall_mem_singleton.mpr (isWordChar_of_begins hn)⟩
  | callTwo hn _ _ iha ihb =>
    simp only [uses, usesAll, List.append_nil]
    exact List.forall_mem_append.mpr ⟨List.forall_mem_append.mpr ⟨iha, ihb⟩,
      List.forall_mem_singleton.mpr (isWordChar_of_begins hn)⟩

variable {lib : Library} {implied : Bool} {source : String} {vars : Snapshot} {m : Missing}

/-- A report is not empty, and its names stand in a row without being run together. -/
lemma splitNames_of_unresolved (h : lib.calculate implied source vars = .unresolved m) :
    splitNames (", ".intercalate m.names) = m.names := by
  obtain ⟨e, he⟩ := exists_parse lib vars h (by simp)
  rw [calculate_of_parse lib vars he, outcome_eq] at h
  split at h
  · simp at h
  · rename_i hempty
    obtain rfl := Outcome.unresolved.inj h
    refine splitNames_intercalate (fun name hname c hc => ?_) fun hnil => hempty ?_
    · obtain ⟨u, hu, rfl⟩ := mem_names_report hname
      rintro rfl
      have hcomma : Text.isWordChar ',' = false := by decide +kernel
      rw [isWordChar_of_sourced (sourced_of_parse he) u hu _ hc] at hcomma
      simp at hcomma
    · simpa [Missing.names, Missing.isEmpty, and_assoc] using hnil

/-! ### The three kinds of lines -/

lemma readNumber?_of_not_mem {s : String} {c : Char} (hc : c ∈ s.toList)
    (h : c ∉ Conversion.numberChars) : readNumber? s = none := by
  cases hs : readNumber? s with
  | none => rfl
  | some v => exact absurd (Conversion.mem_of_readNumber? hs c hc) h

lemma readNumber?_parseFailed : readNumber? parseFailed = none :=
  readNumber?_of_not_mem (show ' ' ∈ parseFailed.toList by decide) (by decide)

lemma readNumber?_heading (rest : String) : readNumber? (unresolvedHeading ++ rest) = none := by
  have hblank : ' ' ∈ (unresolvedHeading ++ rest).toList := by
    rw [String.toList_append, List.mem_append]
    exact .inl (by decide)
  exact readNumber?_of_not_mem hblank (by decide)

lemma heading_ne_parseFailed (rest : String) : unresolvedHeading ++ rest ≠ parseFailed := by
  intro h
  have hhead : (unresolvedHeading ++ rest).toList.head? = parseFailed.toList.head? := by rw [h]
  rw [String.toList_append] at hhead
  exact absurd hhead (by simp [unresolvedHeading, parseFailed])

lemma failure_iff (lib : Library) (implied : Bool) (source : String) (vars : Snapshot) :
    (∃ f, lib.calculate implied source vars = .failure f) ↔
      ∃ f, Expr.parse implied source = .error f := by
  cases h : Expr.parse implied source with
  | error f => simp [Library.calculate, Compiled.ofSource, h, Except.map]
  | ok e =>
    rw [calculate_of_parse lib vars h, outcome_eq]
    split <;> simp

/-! ### What a printed line tells -/

/-- The line that a calculation prints says what came of it, and the exit code says the same: a
failure if the source is not read, missing names that the line lists in order, or a number that the
line means. -/
structure Tells (lib : Library) (source : String) (settings : Settings) (out : String)
    (result : Result) : Prop where
  printed : result.stdout = out ++ "\n"
  exit : result.exit = 0 ∨ result.exit = 1 ∨ result.exit = 2
  failed : result.exit = 1 ↔ out = parseFailed
  unread : out = parseFailed ↔ ∃ f, Expr.parse settings.implied source = .error f
  missing : result.exit = 2 ↔ ∃ rest, out = unresolvedHeading ++ rest
  names : ∀ rest, out = unresolvedHeading ++ rest →
    ∃ m, lib.calculate settings.implied source settings.store.snapshot = .unresolved m ∧
      splitNames rest = m.references ++ m.unary ++ m.binary
  number : result.exit = 0 ↔ ∃ x, readNumber? out = some x
  computed : ∀ x, readNumber? out = some x →
    ∃ v, lib.calculate settings.implied source settings.store.snapshot = .value v ∧
      x = if v.isZero then .zero false else v

section Outcomes

variable {settings : Settings} {out : String} {v : Double} {f : Failure}

lemma evalWith_of_calculate {o : Outcome}
    (h : lib.calculate settings.implied source settings.store.snapshot = o) :
    evalWith lib source settings = ⟨exitCode o, o.display ++ "\n"⟩ := by
  rw [evalWith, h]

lemma tells_failure
    (h : lib.calculate settings.implied source settings.store.snapshot = .failure f) :
    Tells lib source settings parseFailed (evalWith lib source settings) := by
  rw [evalWith_of_calculate h]
  have hno : ¬ ∃ rest, parseFailed = unresolvedHeading ++ rest := fun ⟨rest, hrest⟩ =>
    heading_ne_parseFailed rest hrest.symm
  exact {
    printed := rfl
    exit := .inr (.inl rfl)
    failed := iff_of_true rfl rfl
    unread := iff_of_true rfl ((failure_iff lib _ _ _).mp ⟨f, h⟩)
    missing := iff_of_false (by simp [exitCode]) hno
    names := fun rest hrest => (hno ⟨rest, hrest⟩).elim
    number := iff_of_false (by simp [exitCode]) (by simp [readNumber?_parseFailed])
    computed := by simp [readNumber?_parseFailed] }

lemma tells_unresolved
    (h : lib.calculate settings.implied source settings.store.snapshot = .unresolved m) :
    Tells lib source settings (unresolvedHeading ++ ", ".intercalate m.names)
      (evalWith lib source settings) := by
  rw [evalWith_of_calculate h]
  have hread : ¬ ∃ f, Expr.parse settings.implied source = .error f := by
    rw [← failure_iff lib settings.implied source settings.store.snapshot, h]
    simp
  exact {
    printed := rfl
    exit := .inr (.inr rfl)
    failed := iff_of_false (by simp [exitCode]) (heading_ne_parseFailed _)
    unread := iff_of_false (heading_ne_parseFailed _) hread
    missing := iff_of_true rfl ⟨_, rfl⟩
    names := fun rest hrest => ⟨m, h, by
      rw [← (String.append_right_inj _).mp hrest, splitNames_of_unresolved h, Missing.names]⟩
    number := iff_of_false (by simp [exitCode]) (by simp [readNumber?_heading])
    computed := by simp [readNumber?_heading] }

lemma tells_value (h : lib.calculate settings.implied source settings.store.snapshot = .value v) :
    Tells lib source settings v.display (evalWith lib source settings) := by
  rw [evalWith_of_calculate h]
  have hnumber : readNumber? v.display = some (ReadBack.shown v) := ReadBack.readNumber?_display v
  -- the text of a number reads as one, and neither of the other two texts does
  have hfailed : v.display ≠ parseFailed := fun hv => by
    rw [hv, readNumber?_parseFailed] at hnumber
    contradiction
  have hno : ¬ ∃ rest, v.display = unresolvedHeading ++ rest := fun ⟨rest, hrest⟩ => by
    rw [hrest, readNumber?_heading] at hnumber
    contradiction
  have hread : ¬ ∃ f, Expr.parse settings.implied source = .error f := by
    rw [← failure_iff lib settings.implied source settings.store.snapshot, h]
    simp
  exact {
    printed := rfl
    exit := .inl rfl
    failed := iff_of_false (by simp [exitCode]) hfailed
    unread := iff_of_false hfailed hread
    missing := iff_of_false (by simp [exitCode]) hno
    names := fun rest hrest => (hno ⟨rest, hrest⟩).elim
    number := iff_of_true rfl ⟨_, hnumber⟩
    computed := fun x hx => ⟨v, h, Option.some.inj (hx.symm.trans hnumber)⟩ }

end Outcomes

/-- **A printed line tells the outcome.** A command `eval` that has its source and its settings
prints one line. The exit code is 1 just if the line is the text of a failure, and just if the
source is not read; it is 2 just if the line has the heading, behind which the missing names can be
told apart; and it is 0 just if the line means a number, which is the one computed, a zero without
its sign. -/
theorem run_eval_tells (lib : Library) {files : String → File} {env : Environment}
    {args : List String} {o : Options} {source : String} {settings : Settings}
    (hargs : parse args = .ok (.eval, o)) (hhelp : o.help = false) (hsource : o.operands = [source])
    (hsettings : Settings.resolve files env o.manifest o.implied o.assignments = .ok settings)
    (stdin : String) :
    ∃ out, Tells lib source settings out (run lib files env args stdin) := by
  have hrun : run lib files env args stdin = evalWith lib source settings := by
    simp [run, start, hargs, hhelp, hsource, hsettings]
  rw [hrun]
  cases h : lib.calculate settings.implied source settings.store.snapshot with
  | value v => exact ⟨_, tells_value h⟩
  | unresolved m => exact ⟨_, tells_unresolved h⟩
  | failure f => exact ⟨_, tells_failure h⟩

/-- A command with a missing function, an assignment and no manifest. -/
def someArgs : List String := ["eval", "2x + f(1)", "--var", "x=3", "--implied"]

def someOptions : Options :=
  { Options.initial with operands := ["2x + f(1)"], assignments := ["x=3"], implied := some true }

def someSettings : Settings := ⟨.ofList [⟨"x", "3"⟩], true, none⟩

theorem run_eval_tells_missing :
    parse someArgs = .ok (.eval, someOptions) ∧ someOptions.help = false ∧
      someOptions.operands = ["2x + f(1)"] ∧
      Settings.resolve (fun _ => .missing) [] someOptions.manifest someOptions.implied
        someOptions.assignments = .ok someSettings ∧
      ∃ out, Tells (.builtin .standard) "2x + f(1)" someSettings out
        (run (.builtin .standard) (fun _ => .missing) [] someArgs "") := by
  have hargs : parse someArgs = .ok (.eval, someOptions) := by decide +kernel
  have hsettings : Settings.resolve (fun _ => .missing) [] someOptions.manifest
      someOptions.implied someOptions.assignments = .ok someSettings := rfl
  exact ⟨hargs, rfl, rfl, hsettings,
    run_eval_tells (.builtin .standard) hargs rfl rfl hsettings ""⟩

end Abacus.Proofs.ShownOutcomes
