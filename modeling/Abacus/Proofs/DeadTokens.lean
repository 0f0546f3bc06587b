import Abacus.Proofs.Stuck

/-!
A failure to read a source points at the first token that cannot stand where it stands. The tokens
before it are the beginning of some expression, and no expression begins with them and that token;
at the end of the source the tokens themselves are no expression. Only an empty call with no level
left is reported one token late.
-/

namespace Abacus.Proofs.DeadTokens

open Grammar

variable {g : Grammar} {ts us rest : List Token} {f : Failure}

/-- The tokens are those of an expression. -/
def Accepts (g : Grammar) (ts : List Token) : Prop := ∃ e, g.expression ts = .ok e

lemma accepts_of_fits {d : Derivation g.implied .sum} (h : d.Fits 0 []) : Accepts g d.tokens :=
  ⟨d.tree, expression_ok_iff.mpr ⟨d, Derivation.derives_iff.mpr ⟨rfl, h⟩, rfl⟩⟩

lemma not_accepts_of_fails (h : g.Fails 0 ts .sum) : ¬ Accepts g ts := by
  obtain ⟨f, hf⟩ := h
  rintro ⟨e, he⟩
  rw [expression, hf] at he
  split at he <;> simp at he

/-- What is left over after a whole sum makes the tokens no expression, whatever comes then. -/
lemma not_accepts_leftOver {d : Derivation g.implied .sum} {t : Token}
    (h : d.Fits 0 (t :: rest)) : ¬ Accepts g (d.tokens ++ t :: rest) := by
  obtain ⟨hlt, hs⟩ := reads_of_fits d h
  rintro ⟨e, he⟩
  rw [expression, hs] at he
  split at he <;> simp at he

/-- `rest` begins with an empty call's parentheses: the call's name is the last of the tokens `us`,
and in an expression that begins with them it lies at the last level. -/
def EmptyCallTooDeep (g : Grammar) (us rest : List Token) (f : Failure) : Prop :=
  ∃ name o c post, rest = o :: c :: post ∧ name.kind = .ident ∧ o.kind = .lparen ∧
    c.kind = .rparen ∧ f = ⟨.noArguments name.text, c.pos⟩ ∧
    ∃ (d : Derivation g.implied .sum) (ls ms : List Leaf), d.Derives d.tokens ∧
      d.leaves 0 = ls ++ ⟨name, maxDepth, true⟩ :: ms ∧ us = ls.map (·.token) ++ [name]

/-- `us` begins some expression, and none begins with `us` and the first token of `rest`; if there
is no such token, `us` itself is none. -/
structure Dead (g : Grammar) (us rest : List Token) : Prop where
  viable : ∃ ext, Accepts g (us ++ ext)
  dead : ∀ ext, ext.head? = rest.head? → ¬ Accepts g (us ++ ext)

lemma viable_of_completes {d : Derivation g.implied .sum} {last : Option Leaf}
    (h : Completes d 0 us last) : ∃ ext, Accepts g (us ++ ext) := by
  obtain ⟨ext, hext⟩ := h.tokens
  exact ⟨ext, hext ▸ accepts_of_fits (h.fits [] (ends_nil .sum))⟩

lemma emptyCall_of_pointsAt {d : Derivation g.implied .sum} {l : Leaf}
    (h : Completes d 0 us (some l)) (hp : g.PointsAt f rest (some l)) :
    EmptyCallTooDeep g us rest f := by
  obtain ⟨token, level, alone⟩ := l
  obtain ⟨rfl, rfl, hk, o, c, post, hrest, ho, hc, hf⟩ := hp
  obtain ⟨ls, ms, hl, hus⟩ := h.leaves
  refine ⟨token, o, c, post, hrest, hk, ho, hc, hf, d, ls, ms, ?_, hl, ?_⟩
  · exact Derivation.derives_iff.mpr ⟨rfl, h.fits [] (ends_nil .sum)⟩
  · simpa using hus.symm

lemma dead_of_stuckAt (h : g.StuckAt 0 ts .sum f) :
    ∃ us rest, us ++ rest = ts ∧ Dead g us rest ∧
      (f.pos = g.placeOf rest ∨ EmptyCallTooDeep g us rest f) := by
  obtain ⟨us, rest, last, hts, hp, ⟨d, hd⟩, hf⟩ := h
  refine ⟨us, rest, hts,
    ⟨viable_of_completes hd, fun ext hext => not_accepts_of_fails (hf ext hext)⟩, ?_⟩
  cases last with
  | none => exact .inl hp
  | some l => exact .inr (emptyCall_of_pointsAt hd hp)

lemma dead_of_expression (hne : ts ≠ []) (h : g.expression ts = .error f) :
    ∃ us rest, us ++ rest = ts ∧ Dead g us rest ∧
      (f.pos = g.placeOf rest ∨ EmptyCallTooDeep g us rest f) := by
  rw [expression, if_neg (by simpa using hne)] at h
  cases hs : g.sum 0 ts with
  | error f' =>
    obtain rfl : f' = f := by simpa [hs] using h
    exact dead_of_stuckAt ((stuckBelow g _).sum (Nat.zero_le _) (Nat.lt_succ_self _) hs)
  | ok p =>
    obtain ⟨e, rest, hlt⟩ := p
    cases rest with
    | nil => simp [hs] at h
    | cons t rest =>
      -- the rules end before the tokens do, so what was read is a whole that no token may follow
      obtain rfl : (⟨.leftOver t, t.pos⟩ : Failure) = f := by simpa [hs] using h
      obtain ⟨d, rfl, -, hfit⟩ := (soundBelow g _).sum (Nat.lt_succ_self _) ⟨hlt, hs⟩
      have hd := completes_whole d (Nat.zero_le _) hfit
      refine ⟨d.tokens, t :: rest, rfl, ⟨viable_of_completes hd, fun ext hext => ?_⟩, .inl rfl⟩
      obtain ⟨ext, rfl⟩ := List.head?_eq_some_iff.mp hext
      exact not_accepts_leftOver (fits_congr d (by simp) hfit)

/-- **A failure points at the first token that cannot be continued.** Of a source that has tokens
and is not read, the failure names a place: what comes before it begins an expression, but not
together with what stands there. Only for an empty call at the last level the place is that of the
opening parenthesis and the closing one is named. -/
theorem pos_of_parse_error {implied : Bool} {source : String} (hs : Token.scan source = .ok ts)
    (hne : ts ≠ []) (h : Expr.parse implied source = .error f) :
    ∃ us rest, us ++ rest = ts ∧ Dead ⟨implied, source.length⟩ us rest ∧
      (f.pos = placeOf ⟨implied, source.length⟩ rest ∨
        EmptyCallTooDeep ⟨implied, source.length⟩ us rest f) := by
  rw [Expr.parse, hs] at h
  exact dead_of_expression hne h

/-- The closing parenthesis after a plus sign. -/
theorem pos_of_parse_error_operand :
    ∃ ts f us rest, Token.scan "2*(1+)3" = .ok ts ∧ ts ≠ [] ∧
      Expr.parse false "2*(1+)3" = .error f ∧ us ++ rest = ts ∧ Dead ⟨false, 7⟩ us rest ∧
      (f.pos = placeOf ⟨false, 7⟩ rest ∨ EmptyCallTooDeep ⟨false, 7⟩ us rest f) := by
  let ts : List Token := (Token.scan "2*(1+)3").toOption.getD []
  have hs : Token.scan "2*(1+)3" = .ok ts := by decide +kernel
  have hne : ts ≠ [] := by decide +kernel
  have hok : (Expr.parse false "2*(1+)3").isOk = false := by decide +kernel
  cases h : Expr.parse false "2*(1+)3" with
  | ok e => rw [h] at hok; simp [Except.isOk, Except.toBool] at hok
  | error f =>
    obtain ⟨us, rest, hts, hdead, hpos⟩ := pos_of_parse_error hs hne h
    exact ⟨ts, f, us, rest, hs, hne, rfl, hts, hdead, hpos⟩

end Abacus.Proofs.DeadTokens
