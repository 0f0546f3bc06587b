import Mathlib.Tactic.Common
import Abacus.Proofs.Respelling

/-!
White space between tokens. The texts of the tokens of a source, with single spaces between them,
have the same tokens again; so the two sources are read alike and have one answer, whatever white
space the first one had and wherever it had it.
-/

namespace Abacus

namespace Token

/-- The texts of the tokens with a space between any two. -/
def spaced (ts : List Token) : String := " ".intercalate (ts.map Token.text)

/-- Every token of a scan is scanned again when its text stands alone. -/
lemma begins_of_scanFrom {pos : ℕ} {cs : List Char} {ts : List Token}
    (h : scanFrom pos cs = .ok ts) : ∀ t ∈ ts, Begins [] t := by
  refine forall_of_scanFrom (fun pos c rest t tail hb hnext => ?_) h
  obtain ⟨-, -, hbegins⟩ := begins_of_next hb hnext
  exact Begins.parts (b := []) hbegins parts_nil

/-- Tokens with spaces between them are scanned as these tokens, at other places. -/
lemma scanFrom_spaced {ts : List Token} (h : ∀ t ∈ ts, Begins [] t) (pos : ℕ) :
    ∃ us, scanFrom pos ([' '].intercalate (ts.map fun t => t.text.toList)) = .ok us ∧
      us.map Token.bare = ts.map Token.bare := by
  induction ts generalizing pos with
  | nil => exact ⟨[], by simp [scanFrom], rfl⟩
  | cons t ts ih =>
    have ht := h t (by simp)
    cases ts with
    | nil =>
      have hscan := scanFrom_begins ht pos
      rw [List.append_nil, scanFrom, Except.map] at hscan
      exact ⟨[t.moved pos], by simpa using hscan, rfl⟩
    | cons u ts =>
      -- the space after the token parts it from the next
      have hspace : Begins (' ' :: [' '].intercalate ((u :: ts).map fun t => t.text.toList)) t :=
        Begins.parts (b := []) ht (parts_cons (by simp) _)
      have hscan := scanFrom_begins hspace pos
      obtain ⟨us, hus, hbare⟩ := ih (fun u hu => h u (List.mem_cons_of_mem _ hu))
        (pos + t.text.length + 1)
      rw [scanFrom, if_pos Text.isBlank_space, hus, Except.map] at hscan
      refine ⟨t.moved pos :: us, ?_, by simp [hbare]⟩
      simpa using hscan

lemma scan_spaced {source : String} {ts : List Token} (h : scan source = .ok ts) :
    ∃ us, scan (spaced ts) = .ok us ∧ us.map Token.bare = ts.map Token.bare := by
  obtain ⟨us, hus, hbare⟩ := scanFrom_spaced (begins_of_scanFrom h) 0
  refine ⟨us, ?_, hbare⟩
  rw [scan, spaced, String.toList_intercalate, List.map_map]
  exact hus

end Token

/-- **White space between tokens decides nothing.** The spaced source has the same tokens, it is
read as the same tree or refused with the same message, and a calculation shows the same text for it
or has no room for it either, whatever the variables and the functions are. -/
theorem answer_spaced {source : String} {ts : List Token} (h : Token.scan source = .ok ts)
    (implied : Bool) :
    (∃ us, Token.scan (Token.spaced ts) = .ok us ∧ us.map Token.bare = ts.map Token.bare) ∧
    Alike (Expr.parse implied source) (Expr.parse implied (Token.spaced ts)) ∧
    ∀ (lib : Library) (vars : Snapshot),
      lib.answer implied source vars = lib.answer implied (Token.spaced ts) vars ∧
      (lib.calculateOnStack implied source vars).map Outcome.display =
        (lib.calculateOnStack implied (Token.spaced ts) vars).map Outcome.display := by
  obtain ⟨us, hus, hbare⟩ := Token.scan_spaced h
  have halike : Alike (Expr.parse implied source) (Expr.parse implied (Token.spaced ts)) := by
    unfold Expr.parse
    rw [h, hus]
    exact Grammar.expression_alike implied _ _ hbare.symm
  exact ⟨⟨us, hus, hbare⟩, halike, fun lib vars => lib.answer_eq_of_alike vars halike⟩

/-- The letter `e` begins a power only if a digit follows it, and a point needs one beside it. -/
theorem answer_spaced_cut_power :
    ∃ ts, Token.scan "1e\t.5(x)" = .ok ts ∧ Token.spaced ts = "1 e .5 ( x )" ∧
      Alike (Expr.parse true "1e\t.5(x)") (Expr.parse true (Token.spaced ts)) ∧
      ∀ (lib : Library) (vars : Snapshot),
        lib.answer true "1e\t.5(x)" vars = lib.answer true (Token.spaced ts) vars := by
  let ts : List Token := (Token.scan "1e\t.5(x)").toOption.getD []
  have hs : Token.scan "1e\t.5(x)" = .ok ts := by decide +kernel
  obtain ⟨-, halike, hanswer⟩ := answer_spaced hs true
  exact ⟨ts, hs, by decide +kernel, halike, fun lib vars => (hanswer lib vars).1⟩

end Abacus
