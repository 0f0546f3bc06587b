import Mathlib.Tactic.Common
import Abacus.Token

/-!
A scan step by step and in pieces. What is true of every token that can begin somewhere is true of
every token of a scan. A mark ends whatever stands before it, so a piece of text whose last
character is a mark has the same tokens wherever it stands, and the tokens of a text that is put
together of such pieces are those of the pieces.
-/

namespace Abacus.Token

variable {pos : ℕ} {c : Char} {k : Kind}

/-- The text `cs` at `pos` has the tokens `ts`, whatever follows it. -/
def Scans (pos : ℕ) (cs : List Char) (ts : List Token) : Prop :=
  ∀ rest, scanFrom pos (cs ++ rest) = (scanFrom (pos + cs.length) rest).map (ts ++ ·)

lemma Scans.append {cs cs' : List Char} {ts ts' : List Token} (h : Scans pos cs ts)
    (h' : Scans (pos + cs.length) cs' ts') : Scans pos (cs ++ cs') (ts ++ ts') := by
  intro rest
  rw [List.append_assoc, h, h', List.length_append, Nat.add_assoc]
  cases scanFrom (pos + (cs.length + cs'.length)) rest <;> simp [Except.map]

lemma Scans.scan {source : String} {ts : List Token} (h : Scans 0 source.toList ts) :
    scan source = .ok ts := by
  have hnil := h []
  rwa [List.append_nil, scanFrom, Except.map, List.append_nil] at hnil

lemma scanFrom_of_next {rest tail : List Char} {t : Token} (hb : Text.isBlank c = false)
    (h : next pos c rest = .ok (t, tail)) :
    scanFrom pos (c :: rest) = (scanFrom (pos + t.text.length) tail).map (t :: ·) := by
  rw [scanFrom, if_neg (by simp [hb])]
  split <;> simp_all

/-- What every token has that begins anywhere, every token of a scan has. -/
lemma forall_of_scanFrom {P : Token → Prop}
    (hnext : ∀ pos c rest t tail, Text.isBlank c = false → next pos c rest = .ok (t, tail) → P t)
    {cs : List Char} {ts : List Token} (h : scanFrom pos cs = .ok ts) : ∀ t ∈ ts, P t := by
  induction pos, cs using scanFrom.induct generalizing ts with
  | case1 pos =>
    rw [scanFrom] at h
    obtain rfl := Except.ok.inj h
    simp
  | case2 pos c rest hb ih =>
    rw [scanFrom, if_pos hb] at h
    exact ih h
  | case3 pos c rest hb e he =>
    rw [scanFrom, if_neg hb] at h
    split at h <;> simp_all
  | case4 pos c rest hb t tail hn _ ih =>
    rw [scanFrom_of_next (by simpa using hb) hn] at h
    cases hs : scanFrom (pos + t.text.length) tail with
    | error e => simp [hs, Except.map] at h
    | ok us =>
      rw [hs] at h
      obtain rfl := Except.ok.inj h
      exact List.forall_mem_cons.mpr ⟨hnext _ _ _ _ _ (by simpa using hb) hn, ih hs⟩

/-! ### Marks -/

/-- A mark is no blank and begins neither a number nor a word. -/
lemma classes_of_mark (h : mark? c = some k) :
    Text.isBlank c = false ∧ (∀ rest, startsNumber c rest = false) ∧ Text.isWordChar c = false := by
  have hc : Text.isBlank c = false ∧ Text.isDigit c = false ∧ c ≠ '.' ∧
      Text.isWordChar c = false := by
    unfold mark? at h
    split at h <;> first | decide +kernel | simp at h
  obtain ⟨hb, hd, hp, hw⟩ := hc
  exact ⟨hb, fun rest => by simp [startsNumber, hd, hp], hw⟩

/-- The kind of a mark is no other kind. -/
lemma ne_of_mark (h : mark? c = some k) : k ≠ .ident ∧ ∀ v, k ≠ .number v := by
  unfold mark? at h
  split at h <;> cases h <;> simp

lemma next_mark (h : mark? c = some k) (rest : List Char) :
    next pos c rest = .ok (⟨k, String.singleton c, pos⟩, rest) := by
  obtain ⟨-, hn, hw⟩ := classes_of_mark h
  have hs : Text.isWordStart c = false := by simp [Text.isWordStart, hw]
  simp [next, hn, hs, h]

lemma scanFrom_mark (h : mark? c = some k) (pos : ℕ) (rest : List Char) :
    scanFrom pos (c :: rest) =
      (scanFrom (pos + 1) rest).map (⟨k, String.singleton c, pos⟩ :: ·) := by
  rw [scanFrom_of_next (classes_of_mark h).1 (next_mark h rest), String.length_singleton]

lemma scans_mark (pos : ℕ) (h : mark? c = some k) :
    Scans pos [c] [⟨k, String.singleton c, pos⟩] := fun rest => scanFrom_mark h pos rest

/-! ### Words -/

/-- A word ends at a mark. -/
lemma scans_word (w : Char) (ws : List Char)
    (hw : Text.isBlank w = false ∧ Text.isDigit w = false ∧ w ≠ '.' ∧ Text.isWordStart w = true)
    (hws : ∀ x ∈ ws, Text.isWordChar x = true) (h : mark? c = some k) :
    Scans pos (w :: ws ++ [c]) [⟨.ident, String.ofList (w :: ws), pos⟩,
      ⟨k, String.singleton c, pos + (ws.length + 1)⟩] := by
  intro rest
  obtain ⟨hb, hd, hp, hw⟩ := hw
  have hn : ∀ rest, startsNumber w rest = false := fun rest => by simp [startsNumber, hd, hp]
  have hc := (classes_of_mark h).2.2
  have hword : next pos w (ws ++ c :: rest) =
      .ok (⟨.ident, String.ofList (w :: ws), pos⟩, c :: rest) := by
    have htake : (ws ++ c :: rest).takeWhile Text.isWordChar = ws := by
      rw [List.takeWhile_append_of_pos hws, List.takeWhile_cons_of_neg (by simp [hc]),
        List.append_nil]
    have hdrop : (ws ++ c :: rest).dropWhile Text.isWordChar = c :: rest := by
      rw [List.dropWhile_append_of_pos hws, List.dropWhile_cons_of_neg (by simp [hc])]
    rw [next, hn, hw, htake, hdrop]
    rfl
  have hmark := scans_mark (pos + (ws.length + 1)) h rest
  rw [List.singleton_append] at hmark
  have hlen : pos + (ws.length + 1) + [c].length = pos + (w :: (ws ++ [c])).length := by
    simp; omega
  simp only [List.cons_append, List.append_assoc, List.nil_append]
  rw [scanFrom_of_next hb hword, String.length_ofList, List.length_cons, hmark, hlen]
  cases scanFrom (pos + (w :: (ws ++ [c])).length) rest <;> rfl

end Abacus.Token
