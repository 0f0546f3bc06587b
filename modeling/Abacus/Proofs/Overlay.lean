import Mathlib.Data.List.Forall2
import Mathlib.Data.List.TakeWhile
import Abacus.Settings
import Abacus.Proofs.Lookup
import Abacus.Proofs.Report
import Abacus.Proofs.StoreRows

/-!
Assignments laid over the rows of a manifest. Among rows the first of a name counts, among
assignments the last: each assignment sets the first row of its name, or makes one at the end, and
so the rows keep their order, and every name means what was assigned to it last.
-/

namespace Abacus.Proofs.Overlay

open Report StoreRows

variable {a : Assignment} {as : List Assignment} {v : Variable} {vs : List Variable}
  {name : String} {s : Store}

/-! ### One assignment -/

/-- The first variable of the name is set, or a new one stands at the end. -/
def put (vs : List Variable) (a : Assignment) : List Variable :=
  match vs with
  | [] => [⟨a.name, a.value⟩]
  | v :: vs => if sameName v.name a.name then ⟨v.name, a.value⟩ :: vs else v :: put vs a

/-- The value that was assigned to the name last. -/
def lastValue (as : List Assignment) (name : String) : Option String :=
  (as.filter (sameName name ·.name)).getLast?.map (·.value)

lemma put_append {ws : List Variable} (h : ∀ w ∈ ws, sameName w.name a.name = false) :
    put (ws ++ vs) a = ws ++ put vs a := by
  induction ws with
  | nil => rfl
  | cons w ws ih =>
    obtain ⟨hw, hws⟩ := List.forall_mem_cons.mp h
    rw [List.cons_append, put, hw, ih hws]
    rfl

lemma toList_assign (s : Store) (name value : String) :
    (s.assign name value).toList = put s.toList ⟨name, value⟩ := by
  unfold Store.assign
  split
  · -- the first row of the name takes the value
    rename_i r hr
    obtain ⟨hname, as, bs, hrows, has⟩ := List.find?_eq_some_iff_append.mp hr
    have hset : (s.setValue r.handle value).rows =
        s.rows.set as.length ⟨r.handle, r.entry.name, value⟩ := rows_modify_split hrows _
    have hname' : sameName r.entry.name name = true := hname
    rw [Store.toList, hset, Store.toList, hrows, List.map_append, put_append]
    · simp [put, hname']
    · intro w hw
      obtain ⟨q, hq, rfl⟩ := List.mem_map.mp hw
      have := has q hq
      simpa [Variable.answersTo, sameName] using this
  · -- no row has the name, so there is a new one at the end
    rename_i hnone
    have hall : ∀ w ∈ s.toList, sameName w.name name = false := by
      intro w hw
      obtain ⟨q, hq, rfl⟩ := List.mem_map.mp hw
      have := List.find?_eq_none.mp hnone q hq
      simpa [Variable.answersTo, sameName] using this
    have hadd : (s.add ⟨name, value⟩).toList = s.toList ++ [⟨name, value⟩] := by
      simp [Store.add, Store.toList]
    have hput : put (s.toList ++ []) ⟨name, value⟩ = s.toList ++ [⟨name, value⟩] := put_append hall
    rw [hadd, ← hput, List.append_nil]

lemma map_name_put (vs : List Variable) (a : Assignment) :
    (put vs a).map (·.name) = keep sameName (vs.map (·.name)) a.name := by
  induction vs with
  | nil => rfl
  | cons v vs ih =>
    rw [put, keep, List.map_cons, List.any_cons, sameName_comm a.name]
    cases hv : sameName v.name a.name with
    | true => simp
    | false =>
      rw [if_neg (by simp), List.map_cons, ih, keep, Bool.false_or]
      split <;> simp

lemma find?_put (vs : List Variable) (a : Assignment) (name : String) :
    ((put vs a).find? (·.answersTo name)).map (·.value) =
      if sameName name a.name then some a.value
      else (vs.find? (·.answersTo name)).map (·.value) := by
  have hanswers : ∀ v : Variable, v.answersTo name = sameName v.name name := fun _ => rfl
  induction vs with
  | nil =>
    rw [put, List.find?_cons, hanswers, sameName_comm]
    cases sameName name a.name <;> rfl
  | cons v vs ih =>
    rw [put, List.find?_cons, hanswers]
    cases hv : sameName v.name a.name with
    | true =>
      have hsame : sameName v.name name = sameName name a.name := by
        rw [sameName, beq_iff_eq] at hv
        rw [sameName_comm name, sameName, sameName, hv]
      rw [if_pos rfl, List.find?_cons, hanswers, hsame]
      cases sameName name a.name <;> rfl
    | false =>
      have hsame : sameName v.name name = true → sameName name a.name = false := by
        intro h
        rw [sameName, beq_iff_eq] at h
        rwa [sameName, ← h]
      rw [if_neg (by simp), List.find?_cons, hanswers]
      cases hn : sameName v.name name with
      | true => simp [hsame hn]
      | false => exact ih

/-! ### Any assignments -/

lemma lastValue_cons (a : Assignment) (as : List Assignment) (name : String) :
    lastValue (a :: as) name =
      (lastValue as name).or (if sameName name a.name then some a.value else none) := by
  unfold lastValue
  cases h : sameName name a.name with
  | true =>
    simp only [List.filter_cons, h, if_true, List.getLast?_cons]
    cases (as.filter (sameName name ·.name)).getLast? <;> rfl
  | false => simp [h]

lemma map_name_foldl (vs : List Variable) (as : List Assignment) :
    (as.foldl put vs).map (·.name) = (as.map (·.name)).foldl (keep sameName) (vs.map (·.name)) := by
  induction as generalizing vs with
  | nil => rfl
  | cons a as ih => rw [List.foldl_cons, ih, map_name_put, List.map_cons, List.foldl_cons]

/-- The first variable of a name has the value that was assigned to the name last. -/
lemma find?_foldl (vs : List Variable) (as : List Assignment) (name : String) :
    ((as.foldl put vs).find? (·.answersTo name)).map (·.value) =
      (lastValue as name).or ((vs.find? (·.answersTo name)).map (·.value)) := by
  induction as generalizing vs with
  | nil => rfl
  | cons a as ih =>
    rw [List.foldl_cons, ih, find?_put, lastValue_cons, Option.or_assoc]
    cases sameName name a.name <;> rfl

/-- The first variable takes what is assigned to its name, and leaves the rest to the others. -/
lemma foldl_put_cons (v : Variable) (vs : List Variable) (as : List Assignment) :
    as.foldl put (v :: vs) =
      ⟨v.name, (lastValue as v.name).getD v.value⟩ ::
        (as.filter fun a => !sameName v.name a.name).foldl put vs := by
  induction as generalizing v vs with
  | nil => rfl
  | cons a as ih =>
    rw [List.foldl_cons, put, lastValue_cons]
    cases h : sameName v.name a.name with
    | true =>
      rw [if_pos rfl, ih, List.filter_cons_of_neg (by simp [h])]
      cases lastValue as v.name <;> rfl
    | false =>
      rw [if_neg (by simp), ih, List.filter_cons_of_pos (by simp [h]), List.foldl_cons]
      cases lastValue as v.name <;> rfl

lemma lastValue_filter (as : List Assignment) (name name' : String) :
    lastValue (as.filter fun a => !sameName name a.name) name' =
      if sameName name name' then none else lastValue as name' := by
  have hsame : ∀ a : Assignment, sameName name name' = true →
      sameName name a.name = sameName name' a.name := by
    intro a h
    rw [sameName, beq_iff_eq] at h
    rw [sameName, sameName, h]
  induction as with
  | nil => simp [lastValue]
  | cons a as ih =>
    cases ha : sameName name a.name with
    | true =>
      rw [List.filter_cons_of_neg (by simp [ha]), ih, lastValue_cons]
      cases h : sameName name name' with
      | true => rfl
      | false =>
        have : sameName name' a.name = false := by
          rw [sameName, beq_iff_eq] at ha
          rwa [sameName_comm, sameName, ← ha]
        simp [this]
    | false =>
      rw [List.filter_cons_of_pos (by simp [ha]), lastValue_cons, ih, lastValue_cons]
      cases h : sameName name name' with
      | true => simp [← hsame a h, ha]
      | false => rfl

/-- Of the variables of one name only the first has its value changed. -/
lemma getElem?_foldl (vs : List Variable) (as : List Assignment) {i : ℕ} (hv : vs[i]? = some v) :
    (as.foldl put vs)[i]? = some ⟨v.name,
      if (vs.take i).any (·.answersTo v.name) then v.value
      else (lastValue as v.name).getD v.value⟩ := by
  induction vs generalizing i as with
  | nil => simp at hv
  | cons w vs ih =>
    rw [foldl_put_cons]
    cases i with
    -- the first row is before all others, so the last assignment to its name is its own
    | zero =>
      obtain rfl : w = v := by simpa using hv
      rfl
    | succ i =>
      have hrest : vs[i]? = some v := by simpa using hv
      have hanswers : w.answersTo v.name = sameName w.name v.name := rfl
      rw [List.getElem?_cons_succ, ih _ hrest, lastValue_filter, List.take_succ_cons, List.any_cons,
        hanswers]
      cases sameName w.name v.name <;> simp

/-! ### Texts of assignments -/

/-- The text is an assignment: a name that is not blank, the first equals sign and a value. -/
def Splits (text : String) (a : Assignment) : Prop :=
  ∃ name value, text.toList = name ++ '=' :: value ∧ '=' ∉ name ∧
    a = ⟨String.ofList (Text.trim name), String.ofList value⟩ ∧ ∃ c ∈ name, Text.isBlank c = false

/-- The text has no equals sign, or nothing but blanks before the first one. -/
def Faulty (text : String) : Prop :=
  '=' ∉ text.toList ∨
    ∃ name value, text.toList = name ++ '=' :: value ∧ ∀ c ∈ name, Text.isBlank c = true

lemma trim_eq_nil {cs : List Char} : Text.trim cs = [] ↔ ∀ c ∈ cs, Text.isBlank c = true := by
  rw [Text.trim, List.reverse_eq_nil_iff, List.dropWhile_eq_nil_iff]
  constructor
  · intro h c hc
    rw [← List.takeWhile_append_dropWhile (p := Text.isBlank) (l := cs), List.mem_append] at hc
    rcases hc with hc | hc
    · exact List.mem_takeWhile_imp hc
    · exact h c (List.mem_reverse.mpr hc)
  · intro h c hc
    exact h c ((List.dropWhile_suffix _).subset (List.mem_reverse.mp hc))

lemma takeWhile_before {name : List Char} (h : '=' ∉ name) (value : List Char) :
    (name ++ '=' :: value).takeWhile (· != '=') = name ∧
      (name ++ '=' :: value).dropWhile (· != '=') = '=' :: value := by
  have hall : ∀ c ∈ name, (c != '=') = true := by
    intro c hc
    rw [bne_iff_ne]
    rintro rfl
    exact h hc
  rw [List.takeWhile_append_of_pos hall, List.dropWhile_append_of_pos hall]
  simp

lemma parse_of_splits {text : String} (h : Splits text a) : Assignment.parse text = .ok a := by
  obtain ⟨name, value, htext, hname, rfl, c, hc, hb⟩ := h
  obtain ⟨htake, hdrop⟩ := takeWhile_before hname value
  have hne : Text.trim name ≠ [] := by
    intro hnil
    rw [trim_eq_nil.mp hnil c hc] at hb
    exact Bool.noConfusion hb
  simp [Assignment.parse, htext, htake, hdrop, hne]

lemma parse_of_faulty {text : String} (h : Faulty text) :
    Assignment.parse text = .error ⟨text⟩ := by
  rcases h with h | ⟨name, value, htext, hb⟩
  · have hdrop : text.toList.dropWhile (· != '=') = [] := by
      rw [List.dropWhile_eq_nil_iff]
      intro c hc
      rw [bne_iff_ne]
      rintro rfl
      exact h hc
    simp [Assignment.parse, hdrop]
  · have hname : '=' ∉ name := fun hmem => absurd (hb '=' hmem) (by decide +kernel)
    obtain ⟨htake, hdrop⟩ := takeWhile_before hname value
    simp [Assignment.parse, htext, htake, hdrop, trim_eq_nil.mpr hb]

lemma splits_or_faulty (text : String) : (∃ a, Splits text a) ∨ Faulty text := by
  by_cases hmem : '=' ∈ text.toList
  · obtain ⟨name, value, htext, hname⟩ := List.eq_append_cons_of_mem hmem
    by_cases hb : ∀ c ∈ name, Text.isBlank c = true
    · exact .inr (.inr ⟨name, value, htext, hb⟩)
    · push Not at hb
      obtain ⟨c, hc, hcb⟩ := hb
      exact .inl ⟨_, name, value, htext, hname, rfl, c, hc, by simpa using hcb⟩
  · exact .inr (.inl hmem)

lemma applyAll_of_splits {texts : List String} (h : List.Forall₂ Splits texts as) (s : Store) :
    Assignment.applyAll s texts = .ok (as.foldl (fun s a => s.assign a.name a.value) s) := by
  induction h generalizing s with
  | nil => rfl
  | cons hsplits _ ih =>
    rw [Assignment.applyAll, parse_of_splits hsplits]
    exact ih _

/-- The first text that is no assignment is the one complained of. -/
lemma applyAll_of_faulty {before : List String} {text : String} (rest : List String)
    (hb : List.Forall₂ Splits before as) (h : Faulty text) (s : Store) :
    Assignment.applyAll s (before ++ text :: rest) = .error ⟨text⟩ := by
  induction hb generalizing s with
  | nil => rw [List.nil_append, Assignment.applyAll, parse_of_faulty h]
  | cons hsplits _ ih =>
    rw [List.cons_append, Assignment.applyAll, parse_of_splits hsplits]
    exact ih _

lemma exists_first_faulty {texts : List String} (h : ∃ text ∈ texts, Faulty text) :
    ∃ before text rest as, texts = before ++ text :: rest ∧ List.Forall₂ Splits before as ∧
      Faulty text := by
  induction texts with
  | nil => simp at h
  | cons t texts ih =>
    rcases splits_or_faulty t with ⟨a, ha⟩ | ht
    · have hrest : ∃ text ∈ texts, Faulty text := by
        obtain ⟨u, hu, hf⟩ := h
        rcases List.mem_cons.mp hu with rfl | hu
        · have hok := parse_of_splits ha
          rw [parse_of_faulty hf] at hok
          exact absurd hok (by simp)
        · exact ⟨u, hu, hf⟩
      obtain ⟨before, text, rest, as, rfl, hb, hf⟩ := ih hrest
      exact ⟨t :: before, text, rest, a :: as, rfl, .cons ha hb, hf⟩
    · exact ⟨[], t, texts, [], rfl, .nil, ht⟩

/-! ### The settings of a run -/

/-- The store holds the rows with the assignments laid over them. The rows keep their names, and a
new name stands at the end, as it was first spelled. Of the rows of one name the first has the value
that was assigned last, and a name means the number of that value, or of the first row that answers
to it. -/
structure Lies (rows : List Variable) (as : List Assignment) (store : Store) : Prop where
  names : store.toList.map (·.name) =
    rows.map (·.name) ++
      ((as.map (·.name)).filter fun name => !(rows.map (·.name)).any (sameName name)).eraseDupsBy
        sameName
  row : ∀ (i : ℕ) v, rows[i]? = some v → store.toList[i]? = some ⟨v.name,
    if (rows.take i).any (·.answersTo v.name) then v.value else (lastValue as v.name).getD v.value⟩
  resolves : ∀ name, store.snapshot.resolve name =
    ((lastValue as name).or ((rows.find? (·.answersTo name)).map (·.value))).bind readNumber?
  indexed : ∀ name, (Resolver.ofSnapshot store.snapshot).resolve name =
    ((lastValue as name).or ((rows.find? (·.answersTo name)).map (·.value))).bind readNumber?

lemma toList_ofList (vs : List Variable) : (Store.ofList vs).toList = vs := by
  have hadd : ∀ (s : Store) (v : Variable), (s.add v).toList = s.toList ++ [v] := by
    intro s v
    simp [Store.add, Store.toList]
  have hall : ∀ (vs : List Variable) (s : Store), (vs.foldl Store.add s).toList = s.toList ++ vs := by
    intro vs
    induction vs with
    | nil => simp
    | cons v vs ih => simp [ih, hadd]
  exact hall vs .empty

lemma toList_foldl_assign (as : List Assignment) (s : Store) :
    (as.foldl (fun s a => s.assign a.name a.value) s).toList = as.foldl put s.toList := by
  induction as generalizing s with
  | nil => rfl
  | cons a as ih => rw [List.foldl_cons, ih, toList_assign, List.foldl_cons]

lemma lies_foldl (rows : List Variable) (as : List Assignment) :
    Lies rows as (as.foldl (fun s a => s.assign a.name a.value) (.ofList rows)) := by
  have hlist : (as.foldl (fun s a => s.assign a.name a.value) (Store.ofList rows)).toList =
      as.foldl put rows := by
    rw [toList_foldl_assign, toList_ofList]
  have hresolves : ∀ name,
      (as.foldl (fun s a => s.assign a.name a.value) (Store.ofList rows)).snapshot.resolve name =
        ((lastValue as name).or ((rows.find? (·.answersTo name)).map (·.value))).bind
          readNumber? := by
    intro name
    rw [← find?_foldl, Snapshot.resolve, Snapshot.find?, Store.snapshot, hlist]
    cases (as.foldl put rows).find? (·.answersTo name) <;> rfl
  refine ⟨?_, fun i v hv => ?_, hresolves, fun name => ?_⟩
  · rw [hlist, map_name_foldl, foldl_keep]
  · rw [hlist, getElem?_foldl rows as hv]
  · rw [Lookup.resolve_ofSnapshot, hresolves]

/-- **Assignments lie over the manifest.** If all the texts are assignments, the settings hold the
rows of the manifest with the assignments laid over them in their order; otherwise there are no
settings, and the first text that is no assignment is complained of. -/
theorem resolve_lies (files : String → File) (env : Environment) {manifest : Option String}
    (implied : Option Bool) {m : Manifest}
    (hm : Settings.manifestAt files (manifest <|> Settings.findManifest files) = .ok m)
    (texts : List String) :
    (∀ as, List.Forall₂ Splits texts as →
      ∃ settings, Settings.resolve files env manifest implied texts = .ok settings ∧
        Lies m.entries as settings.store) ∧
      ((∃ text ∈ texts, Faulty text) → ∃ before text rest as, texts = before ++ text :: rest ∧
        List.Forall₂ Splits before as ∧ Faulty text ∧
        Settings.resolve files env manifest implied texts = .error (.assignment ⟨text⟩)) := by
  constructor
  · intro as has
    simp only [Settings.resolve, hm, applyAll_of_splits has]
    exact ⟨_, rfl, lies_foldl m.entries as⟩
  · intro h
    obtain ⟨before, text, rest, as, rfl, hb, hf⟩ := exists_first_faulty h
    refine ⟨before, text, rest, as, rfl, hb, hf, ?_⟩
    simp only [Settings.resolve, hm, applyAll_of_faulty rest hb hf]

/-- A manifest with two rows of one name. -/
def twice : String :=
  "[[variables]]\nname = 'a'\nvalue = 1\n[[variables]]\nname = 'A'\nvalue = 2\n"

def twiceAt (_ : String) : File := .bytes twice.toUTF8

lemma fromUTF8?_toUTF8 (s : String) : String.fromUTF8? s.toUTF8 = some s := by
  simp only [String.fromUTF8?, String.toUTF8_eq_toByteArray, dif_pos s.isValidUTF8]
  rfl

lemma ofText_twice :
    Manifest.ofText "m.toml" twice = .ok ⟨false, [⟨"a", "1"⟩, ⟨"A", "2"⟩]⟩ := by
  decide +kernel

lemma manifestAt_twice :
    Settings.manifestAt twiceAt (some "m.toml" <|> Settings.findManifest twiceAt) =
      .ok ⟨false, [⟨"a", "1"⟩, ⟨"A", "2"⟩]⟩ := by
  have hpath : (some "m.toml" <|> Settings.findManifest twiceAt) = some "m.toml" := by simp
  simp only [hpath, Settings.manifestAt, Manifest.load, twiceAt, fromUTF8?_toUTF8, ofText_twice]

theorem resolve_lies_twice :
    (∃ settings, Settings.resolve twiceAt [] (some "m.toml") none ["b=3", "A=5", " B =x=y"] =
        .ok settings ∧
      Lies [⟨"a", "1"⟩, ⟨"A", "2"⟩] [⟨"b", "3"⟩, ⟨"A", "5"⟩, ⟨"B", "x=y"⟩] settings.store) ∧
    ∃ before text rest as, ["b=3", " =5", "c"] = before ++ text :: rest ∧
      List.Forall₂ Splits before as ∧ Faulty text ∧
      Settings.resolve twiceAt [] (some "m.toml") none ["b=3", " =5", "c"] =
        .error (.assignment ⟨text⟩) := by
  have hb : Splits "b=3" ⟨"b", "3"⟩ :=
    ⟨['b'], ['3'], by decide +kernel, by decide +kernel, by decide +kernel, 'b', by decide +kernel⟩
  have hA : Splits "A=5" ⟨"A", "5"⟩ :=
    ⟨['A'], ['5'], by decide +kernel, by decide +kernel, by decide +kernel, 'A', by decide +kernel⟩
  have hB : Splits " B =x=y" ⟨"B", "x=y"⟩ :=
    ⟨[' ', 'B', ' '], ['x', '=', 'y'], by decide +kernel, by decide +kernel, by decide +kernel, 'B',
      by decide +kernel⟩
  have hblank : Faulty " =5" :=
    .inr ⟨[' '], ['5'], by decide +kernel, List.forall_mem_singleton.mpr (by decide +kernel)⟩
  exact ⟨(resolve_lies twiceAt [] none manifestAt_twice _).1 _ (.cons hb (.cons hA (.cons hB .nil))),
    (resolve_lies twiceAt [] none manifestAt_twice _).2 ⟨" =5", by simp, hblank⟩⟩

end Abacus.Proofs.Overlay
