import Mathlib.Tactic.Common
import Abacus.Elementary.Standard
import Abacus.Session

/-!
What the lines of a session do. A line is taken if it is an expression, or a command on arguments
that it accepts; then the result is shown again, as it is after the line. An expression replaces the
one before, a blank line keeps it, and a command edits the rows or the flag and keeps the rest.
Every other line leaves the session as it was, but for the end of it. So over any run of lines the
result shown last is the result of the session as it is, and before the first one is shown nothing
has changed.
-/

namespace Abacus.Session

/-! ### Lines -/

/-- There is a row that answers to the name. -/
def HasRow (s : Session) (name : String) : Prop := ∃ v ∈ s.store.toList, v.answersTo name = true

/-- The commands that edit something, on arguments that they edit it with. -/
inductive Accepts (s : Session) : Command → List String → Prop
  | set {args : List String} (h : 1 ≤ args.length) (h' : args.length ≤ 2) : Accepts s .set args
  | add {args : List String} (h : args.length ≤ 2) : Accepts s .add args
  | rename {old : String} (new : String) (h : s.HasRow old) : Accepts s .rename [old, new]
  | delete {name : String} (h : s.HasRow name) : Accepts s .delete [name]
  | toggle : Accepts s .implied []
  | switch {word : String} (rest : List String) (h : Text.lower word ∈ onWords ++ offWords) :
      Accepts s .implied (word :: rest)

/-- What a command that is accepted leaves: other rows, or the flag toggled or set. -/
inductive Edits (s : Session) : Command → List String → Session → Prop
  | rows {command : Command} (args : List String) (h : command ∈ [.set, .add, .rename, .delete])
      (store : Store) : Edits s command args { s with store := store }
  | toggle : Edits s .implied [] { s with implied := !s.implied }
  | on {word : String} (rest : List String) (h : Text.lower word ∈ onWords) :
      Edits s .implied (word :: rest) { s with implied := true }
  | off {word : String} (rest : List String) (h : Text.lower word ∈ offWords) :
      Edits s .implied (word :: rest) { s with implied := false }

/-- The words of a line that begins with a colon, or why there are none. -/
def Words (line : String) (words : Except Text.ShellWords.Fault (List String)) : Prop :=
  ∃ rest, Text.trim line.toList = ':' :: rest ∧ Text.shellWords (String.ofList rest) = words

/-- The line is a command, and these are its arguments. -/
def Reads (line : String) (command : Command) (args : List String) : Prop :=
  ∃ word, Words line (.ok (word :: args)) ∧ Command.ofName? (Text.lower word) = some command

variable (lib : Library) (s : Session) {line : String} {command : Command} {args : List String}

lemma head?_append {t : String} {c : Char} (h : t.toList.head? = some c) (u : String) :
    (t ++ u).toList.head? = some c := by
  rw [String.toList_append, List.head?_append, h, Option.some_or]

lemma exists_find? {name : String} (h : s.HasRow name) : ∃ r, s.store.find? name = some r := by
  obtain ⟨v, hv, hname⟩ := h
  obtain ⟨r, hr, rfl⟩ := List.mem_map.mp hv
  exact Option.isSome_iff_exists.mp (List.find?_isSome.mpr ⟨r, hr, hname⟩)

lemma find?_eq_none {name : String} (h : ¬ s.HasRow name) : s.store.find? name = none := by
  refine List.find?_eq_none.mpr fun r hr hname => h ⟨r.entry, List.mem_map_of_mem hr, hname⟩

lemma lineEffect_of_words {words : Except Text.ShellWords.Fault (List String)} :
    Words line words → s.lineEffect line =
      match words with
      | .error fault => .refuse (.unreadable fault)
      | .ok [] => .refuse .emptyCommand
      | .ok (word :: args) =>
        match Command.ofName? (Text.lower word) with
        | none => .refuse (.unknownCommand (Text.lower word))
        | some command => s.effect command args := by
  rintro ⟨rest, htrim, rfl⟩
  rw [lineEffect, htrim]
  rfl

lemma lineEffect_of_reads (h : Reads line command args) :
    s.lineEffect line = s.effect command args := by
  obtain ⟨word, hwords, hname⟩ := h
  simp only [s.lineEffect_of_words hwords, hname]

end Abacus.Session
