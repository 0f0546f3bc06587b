import Abacus.Proofs.Meanings
import Abacus.Proofs.Overlay
import Abacus.Proofs.SessionLines

/-!
What names mean after an edit of the rows. A command finds its row by name and changes it by handle,
while calculations look names up in an index that is made anew, and of several rows of one name the
first hides the others. Still an edit changes what the names that it mentions mean, in the way that
its rows say, and it changes no other name.
-/

namespace Abacus.Proofs.EditedNames

open Report Session StoreRows Text

variable {s : Session} {name m : String} {as bs rows : List Row} {r : Row} {v : Variable}

/-! ### Lines that give a command any arguments -/

/-- A word as it can be given in a line: a backslash before each character, and two quotes that keep
an empty word and a blank at the end. -/
def quoted (word : List Char) : List Char := word.flatMap (['\x5c', ·]) ++ ['\x27', '\x27']

lemma scan_word_escaped (word cs rest : List Char) :
    ShellWords.scan .word word (cs.flatMap (['\x5c', ·]) ++ rest) =
      ShellWords.scan .word (cs.reverse ++ word) rest := by
  induction cs generalizing word with
  | nil => rfl
  | cons c cs ih =>
    have hstep : ShellWords.scan .word word ('\x5c' :: c :: (cs.flatMap (['\x5c', ·]) ++ rest)) =
        ShellWords.scan .word (c :: word) (cs.flatMap (['\x5c', ·]) ++ rest) := rfl
    rw [List.flatMap_cons, List.append_assoc, List.cons_append, List.singleton_append, hstep, ih,
      List.reverse_cons, List.append_assoc, List.singleton_append]

lemma scan_quoted (word rest : List Char) :
    ShellWords.scan .outside [] (quoted word ++ rest) =
      ShellWords.scan .word word.reverse rest := by
  cases word with
  | nil => rfl
  | cons c cs =>
    have hstep : ShellWords.scan .outside [] (quoted (c :: cs) ++ rest) =
        ShellWords.scan .word [c] (cs.flatMap (['\x5c', ·]) ++ '\x27' :: '\x27' :: rest) := by
      rw [quoted, List.flatMap_cons, List.append_assoc, List.append_assoc]
      rfl
    rw [hstep, scan_word_escaped, List.reverse_cons]
    rfl

lemma scan_words (word : List Char) (args : List (List Char)) :
    ShellWords.scan .word word (args.flatMap fun arg => ' ' :: quoted arg) =
      .ok (word.reverse :: args) := by
  induction args generalizing word with
  | nil => rfl
  | cons arg args ih =>
    have hstep : ∀ rest, ShellWords.scan .word word (' ' :: rest) =
        (ShellWords.scan .outside [] rest).map (word.reverse :: ·) := fun _ => rfl
    rw [List.flatMap_cons, List.cons_append, hstep, scan_quoted, ih, List.reverse_reverse]
    rfl

/-- The command word and its arguments after a colon. -/
def lineOf (word : String) (args : List String) : String :=
  String.ofList (':' :: (quoted word.toList ++
    (args.map String.toList).flatMap fun arg => ' ' :: quoted arg))

lemma trim_of_ends {c d : Char} (hc : isBlank c = false) (hd : isBlank d = false)
    (cs : List Char) : trim (c :: (cs ++ [d])) = c :: (cs ++ [d]) := by
  have hreverse : (c :: (cs ++ [d])).reverse = d :: (c :: cs).reverse := by simp
  rw [trim, List.dropWhile_cons_of_neg (by simp [hc]), hreverse,
    List.dropWhile_cons_of_neg (by simp [hd]), ← hreverse, List.reverse_reverse]

lemma exists_quoted_snoc (word : List Char) (args : List (List Char)) :
    ∃ cs, quoted word ++ (args.flatMap fun arg => ' ' :: quoted arg) = cs ++ ['\x27'] := by
  rcases args.eq_nil_or_concat with rfl | ⟨args, arg, rfl⟩
  · exact ⟨word.flatMap (['\x5c', ·]) ++ ['\x27'], by simp [quoted]⟩
  · exact ⟨quoted word ++ (args.flatMap fun arg => ' ' :: quoted arg) ++
      (' ' :: arg.flatMap (['\x5c', ·]) ++ ['\x27']), by simp [quoted]⟩

lemma words_lineOf (word : String) (args : List String) :
    Words (lineOf word args) (.ok (word :: args)) := by
  obtain ⟨cs, hcs⟩ := exists_quoted_snoc word.toList (args.map String.toList)
  refine ⟨cs ++ ['\x27'], ?_, ?_⟩
  · rw [lineOf, String.toList_ofList, hcs]
    exact trim_of_ends (by decide) (by decide) cs
  · rw [shellWords, String.toList_ofList, ← hcs, scan_quoted, scan_words, List.reverse_reverse]
    simp [Except.map, Function.comp_def]

/-- **Every command can be given any arguments**, whatever characters are in them. -/
theorem exists_reads (command : Command) (args : List String) :
    ∃ line, Reads line command args := by
  have hword : ∃ word, Command.ofName? (Text.lower word) = some command := by
    cases command with
    | set => exact ⟨"set", by decide +kernel⟩
    | add => exact ⟨"add", by decide +kernel⟩
    | rename => exact ⟨"rename", by decide +kernel⟩
    | delete => exact ⟨"del", by decide +kernel⟩
    | implied => exact ⟨"implied", by decide +kernel⟩
    | vars => exact ⟨"vars", by decide +kernel⟩
    | help => exact ⟨"help", by decide +kernel⟩
    | quit => exact ⟨"quit", by decide +kernel⟩
  obtain ⟨word, hword⟩ := hword
  exact ⟨lineOf word args, word, words_lineOf word args, hword⟩

/-! ### What names mean among rows -/

/-- The number that a session gives to a name, by the index that calculations use. -/
def look (s : Session) (name : String) : Option Double :=
  (Resolver.ofSnapshot s.store.snapshot).resolve name

/-- The number of the first of the rows that has the name. -/
def meaning (rows : List Row) (name : String) : Option Double :=
  (rows.find? (·.entry.answersTo name)).bind (·.entry.number?)

/-- The rows fall into those before the first one of the name, that one, and those behind it. -/
structure First (rows : List Row) (name : String) (as : List Row) (r : Row) (bs : List Row) :
    Prop where
  split : rows = as ++ r :: bs
  answers : r.entry.answersTo name = true
  before : ∀ a ∈ as, a.entry.answersTo name = false

/-- The name, in letters of either case, means `number` after the edit, and every other name what it
meant before. -/
def Becomes (s t : Session) (name : String) (number : Option Double) : Prop :=
  ∀ m, look t m = if sameName m name then number else look s m

/-- The row `r` has another name and is otherwise the same, and so are all other rows. The new name
means what the first row of it says, which may stand before `r`; what else had the old one comes
behind it. -/
structure Renames (s t : Session) (old new : String) (as : List Row) (r : Row) (bs : List Row) :
    Prop where
  rows : t.store.rows = as ++ ⟨r.handle, new, r.entry.value⟩ :: bs
  gained : ∀ m, sameName m new = true →
    look t m = ((as.find? (·.entry.answersTo m)).getD r).entry.number?
  lost : ∀ m, sameName m old = true → sameName m new = false → look t m = meaning bs m
  others : ∀ m, sameName m old = false → sameName m new = false → look t m = look s m

lemma look_eq (s : Session) (name : String) : look s name = meaning s.store.rows name :=
  (Meanings.means_find? s.store name).index

lemma answersTo_congr (h : sameName m name = true) (v : Variable) :
    v.answersTo m = v.answersTo name := by
  rw [Variable.answersTo, Variable.answersTo, eq_of_beq h]

lemma answersTo_self (name value : String) : Variable.answersTo ⟨name, value⟩ name = true :=
  beq_self_eq_true _

lemma meaning_congr (h : sameName m name = true) (rows : List Row) :
    meaning rows m = meaning rows name := by
  simp only [meaning, answersTo_congr h]

lemma meaning_append (as bs : List Row) (m : String) :
    meaning (as ++ bs) m =
      ((as.find? (·.entry.answersTo m)).elim (meaning bs m) (·.entry.number?)) := by
  rw [meaning, List.find?_append]
  cases as.find? (·.entry.answersTo m) <;> rfl

lemma meaning_cons_of_answers (h : v.answersTo m = true) (k : ℕ) (rows : List Row) :
    meaning (⟨k, v⟩ :: rows) m = v.number? := by
  rw [meaning, List.find?_cons, h]
  rfl

lemma meaning_cons_of_not_answers (h : v.answersTo m = false) (k : ℕ) (rows : List Row) :
    meaning (⟨k, v⟩ :: rows) m = meaning rows m := by
  rw [meaning, List.find?_cons, h, meaning]

lemma First.find?_before (h : First rows name as r bs) (hm : sameName m name = true) :
    as.find? (·.entry.answersTo m) = none := by
  simpa [answersTo_congr hm] using h.before

/-- What a row says that is not of the name `m` makes no difference to it. -/
lemma meaning_split (h : v.answersTo m = false) (k : ℕ) (as bs : List Row) :
    meaning (as ++ ⟨k, v⟩ :: bs) m = meaning (as ++ bs) m := by
  rw [meaning_append, meaning_append, meaning_cons_of_not_answers h]

lemma exists_first (h : s.HasRow name) :
    ∃ as r bs, s.store.find? name = some r ∧ First s.store.rows name as r bs := by
  obtain ⟨r, hr⟩ := s.exists_find? h
  obtain ⟨hname, as, bs, hrows, has⟩ := List.find?_eq_some_iff_append.mp hr
  exact ⟨as, r, bs, hr, hrows, hname, fun a ha => by simpa using has a ha⟩

/-! ### The edits -/

lemma becomes_assign (s : Session) (name value : String) :
    Becomes s (s.withStore (s.store.assign name value)) name (readNumber? value) := by
  intro m
  have hvalue : ∀ t : Session, look t m =
      ((t.store.toList.find? (·.answersTo m)).map (·.value)).bind readNumber? := by
    intro t
    rw [look_eq, meaning, Store.toList, List.find?_map, Option.map_map, Option.bind_map]
    rfl
  have hput : (s.withStore (s.store.assign name value)).store.toList =
      Overlay.put s.store.toList ⟨name, value⟩ := Overlay.toList_assign s.store name value
  rw [hvalue, hvalue, hput, Overlay.find?_put]
  split <;> rfl

lemma meaning_of_not_hasRow (h : ¬ s.HasRow m) : meaning s.store.rows m = none := by
  have hfind : s.store.rows.find? (·.entry.answersTo m) = none := s.find?_eq_none h
  rw [meaning, hfind, Option.bind_none]

lemma hasRow_congr (h : sameName m name = true) : s.HasRow m ↔ s.HasRow name := by
  simp only [HasRow, answersTo_congr h]

/-- A name that has a row already means what it meant before a row was added. -/
lemma look_add (v : Variable) (h : s.HasRow m) :
    look (s.withStore (s.store.add v)) m = look s m := by
  obtain ⟨r, hr⟩ := s.exists_find? h
  have hfind : s.store.rows.find? (·.entry.answersTo m) = some r := hr
  have hrows : (s.withStore (s.store.add v)).store.rows = s.store.rows ++ [⟨s.store.next, v⟩] := rfl
  have hmeaning : meaning s.store.rows m = r.entry.number? := by
    rw [meaning, hfind, Option.bind_some]
  rw [look_eq, look_eq, hrows, meaning_append, hfind, hmeaning, Option.elim_some]

lemma look_add_of_not_hasRow (v : Variable) (h : ¬ s.HasRow m) :
    look (s.withStore (s.store.add v)) m = meaning [⟨s.store.next, v⟩] m := by
  have hfind : s.store.rows.find? (·.entry.answersTo m) = none := s.find?_eq_none h
  have hrows : (s.withStore (s.store.add v)).store.rows = s.store.rows ++ [⟨s.store.next, v⟩] := rfl
  rw [look_eq, hrows, meaning_append, hfind]
  rfl

/-- A new row says nothing of a name that is not its own. -/
lemma look_add_of_not_same (value : String) (h : sameName m name = false) :
    look (s.withStore (s.store.add ⟨name, value⟩)) m = look s m := by
  by_cases hrow : s.HasRow m
  · exact look_add _ hrow
  · have hanswers : Variable.answersTo ⟨name, value⟩ m = false :=
      answersTo_eq_false (answersTo_self name value) h
    rw [look_add_of_not_hasRow _ hrow, meaning_cons_of_not_answers hanswers, look_eq,
      meaning_of_not_hasRow hrow]
    rfl

lemma becomes_add (value : String) (h : ¬ s.HasRow name) :
    Becomes s (s.withStore (s.store.add ⟨name, value⟩)) name (readNumber? value) := by
  intro m
  cases hm : sameName m name with
  | true =>
    have hanswers : Variable.answersTo ⟨name, value⟩ m = true := by
      rw [answersTo_congr hm, answersTo_self]
    rw [look_add_of_not_hasRow _ (mt (hasRow_congr hm).mp h), meaning_cons_of_answers hanswers,
      if_pos rfl]
    rfl
  | false => rw [look_add_of_not_same value hm, if_neg Bool.false_ne_true]

lemma look_add_of_hasRow (value : String) (h : s.HasRow name) (m : String) :
    look (s.withStore (s.store.add ⟨name, value⟩)) m = look s m := by
  cases hm : sameName m name with
  | true => exact look_add _ ((hasRow_congr hm).mpr h)
  | false => exact look_add_of_not_same value hm

lemma rows_erase_first (h : First s.store.rows name as r bs) :
    (s.withStore (s.store.erase r.handle)).store.rows = as ++ bs := by
  have herase : (s.store.erase r.handle).rows = s.store.rows.eraseIdx as.length :=
    rows_erase_split h.split
  rw [withStore, herase, h.split, List.eraseIdx_append_of_length_le (Nat.le_refl _), Nat.sub_self,
    List.eraseIdx_cons_zero]

lemma becomes_erase (h : First s.store.rows name as r bs) :
    Becomes s (s.withStore (s.store.erase r.handle)) name (meaning bs name) := by
  intro m
  rw [look_eq, look_eq, rows_erase_first h, h.split]
  cases hm : sameName m name with
  | true => rw [if_pos rfl, meaning_append, h.find?_before hm, Option.elim_none, meaning_congr hm]
  | false =>
    rw [if_neg Bool.false_ne_true, meaning_split (answersTo_eq_false h.answers hm)]

lemma renames_setName (h : First s.store.rows name as r bs) (new : String) :
    Renames s (s.withStore (s.store.setName r.handle new)) name new as r bs := by
  have hrows : (s.withStore (s.store.setName r.handle new)).store.rows =
      as ++ ⟨r.handle, new, r.entry.value⟩ :: bs := by
    have hset : (s.store.setName r.handle new).rows =
        s.store.rows.set as.length ⟨r.handle, new, r.entry.value⟩ := rows_modify_split h.split _
    rw [withStore, hset, h.split, List.set_append_right _ _ (Nat.le_refl _), Nat.sub_self,
      List.set_cons_zero]
  have hnew : ∀ m, sameName m new = false →
      Variable.answersTo ⟨new, r.entry.value⟩ m = false :=
    fun m hm => answersTo_eq_false (answersTo_self new _) hm
  refine ⟨hrows, fun m hm => ?_, fun m ho hn => ?_, fun m ho hn => ?_⟩
  · -- the new name: the row now answers to it, unless a row before does
    have hanswers : Variable.answersTo ⟨new, r.entry.value⟩ m = true := by
      rw [answersTo_congr hm, answersTo_self]
    rw [look_eq, hrows, meaning_append, meaning_cons_of_answers hanswers]
    cases as.find? (·.entry.answersTo m) <;> rfl
  · -- the old name: the row has left it, and none before had it
    rw [look_eq, hrows, meaning_split (hnew m hn), meaning_append, h.find?_before ho,
      Option.elim_none]
  · -- any other name
    rw [look_eq, look_eq, hrows, h.split, meaning_split (hnew m hn),
      meaning_split (answersTo_eq_false h.answers ho)]

lemma handle_of_change (lib : Library) {line : String} {command : Command} {args : List String}
    {t : Session} {before : List Shown} (h : Reads line command args)
    (heffect : s.effect command args = .change t before) : (s.handle lib line).1 = t := by
  rw [handle, s.lineEffect_of_reads h, heffect, apply]

/-- **An edit changes what the names mean that it mentions, and no other.** Setting a name makes it
mean its value. Adding a row does so if there was none of the name, and else it changes no name.
Deleting takes the first row of the name away, so the next one counts. Renaming leaves all rows at
their places with their values; the new name means what the first row of it says then. Names and
values can be any texts. -/
theorem handle_edits (lib : Library) (s : Session) :
    (∀ command args, ∃ line, Reads line command args) ∧
    (∀ line name value, Reads line .set [name, value] →
      Becomes s (s.handle lib line).1 name (readNumber? value)) ∧
    (∀ line name value, Reads line .add [name, value] →
      (¬ s.HasRow name → Becomes s (s.handle lib line).1 name (readNumber? value)) ∧
        (s.HasRow name → ∀ m, look (s.handle lib line).1 m = look s m)) ∧
    (∀ line name, Reads line .delete [name] → s.HasRow name →
      ∃ as r bs, First s.store.rows name as r bs ∧
        (s.handle lib line).1.store.rows = as ++ bs ∧
        Becomes s (s.handle lib line).1 name (meaning bs name)) ∧
    ∀ line old new, Reads line .rename [old, new] → s.HasRow old →
      ∃ as r bs, First s.store.rows old as r bs ∧
        Renames s (s.handle lib line).1 old new as r bs := by
  refine ⟨exists_reads, fun line name value h => ?_, fun line name value h => ?_,
    fun line name h hrow => ?_, fun line old new h hrow => ?_⟩
  · rw [handle_of_change lib h rfl]
    exact becomes_assign s name value
  · rw [handle_of_change lib h rfl]
    exact ⟨becomes_add value, look_add_of_hasRow value⟩
  · obtain ⟨as, r, bs, hfind, hfirst⟩ := exists_first hrow
    have heffect : s.effect .delete [name] =
        .change (s.withStore (s.store.erase r.handle)) [] := by rw [effect, hfind]
    rw [handle_of_change lib h heffect]
    exact ⟨as, r, bs, hfirst, rows_erase_first hfirst, becomes_erase hfirst⟩
  · obtain ⟨as, r, bs, hfind, hfirst⟩ := exists_first hrow
    have heffect : s.effect .rename [old, new] =
        .change (s.withStore (s.store.setName r.handle new)) [] := by rw [effect, hfind]
    rw [handle_of_change lib h heffect]
    exact ⟨as, r, bs, hfirst, renames_setName hfirst new⟩

/-- Two rows of one name, and one that is no number. -/
def shadowed : Session := ⟨.ofList [⟨"a", "1"⟩, ⟨"A", "2"⟩, ⟨"b", "x"⟩], "a", false, true⟩

theorem handle_edits_hidden :
    let lib : Library := ⟨.standard, .empty⟩
    Reads ":set B 5" .set ["B", "5"] ∧
      Becomes shadowed (shadowed.handle lib ":set B 5").1 "B" (readNumber? "5") ∧
    Reads ":add B 5" .add ["B", "5"] ∧ shadowed.HasRow "B" ∧
      look (shadowed.handle lib ":add B 5").1 "b" = look shadowed "b" ∧
    Reads ":del A" .delete ["A"] ∧ shadowed.HasRow "A" ∧
      (∃ as r bs, First shadowed.store.rows "A" as r bs ∧
        (shadowed.handle lib ":del A").1.store.rows = as ++ bs ∧
        Becomes shadowed (shadowed.handle lib ":del A").1 "A" (meaning bs "A")) ∧
      look (shadowed.handle lib ":del A").1 "a" = readNumber? "2" ∧
    Reads ":rename A b" .rename ["A", "b"] ∧
      (∃ as r bs, First shadowed.store.rows "A" as r bs ∧
        Renames shadowed (shadowed.handle lib ":rename A b").1 "A" "b" as r bs) ∧
      look (shadowed.handle lib ":rename A b").1 "B" = readNumber? "1" := by
  intro lib
  obtain ⟨-, hset, hadd, hdel, hrename⟩ := handle_edits lib shadowed
  have hsetLine : Reads ":set B 5" .set ["B", "5"] :=
    ⟨"set", ⟨"set B 5".toList, by decide +kernel, by decide +kernel⟩, by decide +kernel⟩
  have haddLine : Reads ":add B 5" .add ["B", "5"] :=
    ⟨"add", ⟨"add B 5".toList, by decide +kernel, by decide +kernel⟩, by decide +kernel⟩
  have hdelLine : Reads ":del A" .delete ["A"] :=
    ⟨"del", ⟨"del A".toList, by decide +kernel, by decide +kernel⟩, by decide +kernel⟩
  have hrenameLine : Reads ":rename A b" .rename ["A", "b"] :=
    ⟨"rename", ⟨"rename A b".toList, by decide +kernel, by decide +kernel⟩, by decide +kernel⟩
  have hA : shadowed.HasRow "A" := ⟨⟨"a", "1"⟩, by decide +kernel, by decide +kernel⟩
  have hB : shadowed.HasRow "B" := ⟨⟨"b", "x"⟩, by decide +kernel, by decide +kernel⟩
  exact ⟨hsetLine, hset _ _ _ hsetLine, haddLine, hB, (hadd _ _ _ haddLine).2 hB "b", hdelLine, hA,
    hdel _ _ hdelLine hA, by decide +kernel, hrenameLine, hrename _ _ _ hrenameLine hA,
    by decide +kernel⟩

end Abacus.Proofs.EditedNames
