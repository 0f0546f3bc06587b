import Abacus.Elementary.Standard
import Abacus.Proofs.FirstFactors
import Abacus.Proofs.Respelling
import Abacus.Proofs.SourceReport

/-!
The name of a call in parentheses. Before its argument in parentheses the name is then a factor of
its own, and the call is a product of neighbours. What is reported is the same wherever the call
stands, but the number is the same only where nothing binds the call closer than the product: a call
of one argument is an operand, and its product is made before bangs, an exponent, or an operator on
its left are applied to it.
-/

namespace Abacus.Proofs.ParenthesisedNames

open Grammar Report SourceOrder SourceReport ImpliedCalls

/-! ### The text -/

/-- The source with parentheses around the token. -/
def parenthesise (source : String) (f : Token) : String :=
  String.ofList (source.toList.take f.pos ++
    '(' :: (f.text.toList ++ ')' :: source.toList.drop (f.pos + f.text.length)))

/-- The tokens with parentheses around one of them. -/
def enclose (pre : List Token) (f : Token) (rest : List Token) : List Token :=
  pre ++ ⟨.lparen, "(", 0⟩ :: f :: ⟨.rparen, ")", 0⟩ :: rest

variable {source : String} {pre rest : List Token} {f : Token}

/-- The parenthesised source has the tokens with the parentheses. -/
lemma scan_parenthesise (h : Token.scan source = .ok (pre ++ f :: rest)) :
    ∃ us, Token.scan (parenthesise source f) = .ok us ∧
      us.map Token.bare = (enclose pre f rest).map Token.bare := by
  obtain ⟨a, b, hsource, hpos, hbegins, hrest, hbefore⟩ := Token.scanFrom_split h
  rw [Nat.zero_add] at hpos hbefore
  have htext : (parenthesise source f).toList = a ++ '(' :: (f.text.toList ++ ')' :: b) := by
    have htake : source.toList.take f.pos = a := by
      rw [hsource, hpos, List.take_left]
    have hdrop : source.toList.drop (f.pos + f.text.length) = b := by
      rw [hsource, hpos, ← String.length_toList, ← List.length_append, ← List.append_assoc,
        List.drop_left]
    rw [parenthesise, String.toList_ofList, htake, hdrop]
  -- the parenthesis after the name parts it from what follows
  have hname : Token.Begins (')' :: b) f :=
    Token.Begins.parts (b := []) hbegins (parts_cons (by simp) b)
  -- the rest is scanned as before, two places farther on
  obtain ⟨us, hus, hbare⟩ := Token.scanFrom_moved hrest (a.length + 1 + f.text.length + 1)
  have hscan : Token.scanFrom a.length ('(' :: (f.text.toList ++ ')' :: b)) =
      .ok (⟨.lparen, "(", a.length⟩ :: f.moved (a.length + 1) ::
        ⟨.rparen, ")", a.length + 1 + f.text.length⟩ :: us) := by
    rw [Token.scanFrom_mark (k := .lparen) rfl, Token.scanFrom_begins hname,
      Token.scanFrom_mark (k := .rparen) rfl, hus]
    rfl
  refine ⟨_, by rw [Token.scan, htext, hbefore _ (parts_cons (by simp) _), hscan, Except.map],
    ?_⟩
  rw [enclose, List.map_append, List.map_append, List.map_cons, List.map_cons, List.map_cons,
    Token.bare_moved, hbare]
  rfl

/-! ### What is named -/

lemma names_bare (ts : List Token) : names (ts.map Token.bare) = names ts := by
  induction ts with
  | nil => rfl
  | cons t ts ih =>
    have hhead : (ts.map Token.bare).head?.all (·.kind ≠ .lparen) =
        ts.head?.all (·.kind ≠ .lparen) := by
      cases ts <;> rfl
    rw [List.map_cons, names, names, hhead, ih]
    rfl

lemma closings_bare (ts : List Token) (b : Option String) (opened : List Opened) :
    closings b opened (ts.map Token.bare) = closings b opened ts := by
  induction ts generalizing b opened with
  | nil => rfl
  | cons t ts ih =>
    simp only [List.map_cons, closings, ih]
    rfl

/-- One token is a name or none, and which of the two the next token decides. -/
lemma exists_names_cons {ts us : List Token} (t : Token) (h : ts.head? = us.head?) :
    ∃ ns, names (t :: ts) = ns ++ names ts ∧ names (t :: us) = ns ++ names us := by
  rw [names, names, h]
  split
  · exact ⟨[t.text], rfl, rfl⟩
  · exact ⟨[], rfl, rfl⟩

/-- The word that a token leaves before the next one. -/
def wordOf (t : Token) : Option String := if t.kind = .ident then some t.text else none

/-- One token closes a call or none, and changes what is open. -/
lemma exists_closings_cons (t : Token) (b : Option String) (opened : List Opened) :
    ∃ cs opened', ∀ ts, closings b opened (t :: ts) = cs ++ closings (wordOf t) opened' ts := by
  cases hk : t.kind with
  | ident => exact ⟨[], opened, fun ts => by simp [closings, wordOf, hk]⟩
  | lparen => exact ⟨[], ⟨b, 0⟩ :: opened, fun ts => by simp [closings, wordOf, hk]⟩
  | comma =>
    cases opened with
    | nil => exact ⟨[], [], fun ts => by simp [closings, wordOf, hk]⟩
    | cons p outer =>
      exact ⟨[], ⟨p.name, p.commas + 1⟩ :: outer, fun ts => by simp [closings, wordOf, hk]⟩
  | rparen =>
    rcases opened with _ | ⟨⟨name, n⟩, outer⟩
    · exact ⟨[], [], fun ts => by simp [closings, wordOf, hk]⟩
    · cases name with
      | none => exact ⟨[], outer, fun ts => by simp [closings, wordOf, hk]⟩
      | some name => exact ⟨[(name, n + 1)], outer, fun ts => by simp [closings, wordOf, hk]⟩
  | _ => exact ⟨[], opened, fun ts => by simp [closings, wordOf, hk]⟩

section Seam

variable {t : Token} {ts as bs : List Token} {b : Option String} {opened : List Opened}

lemma filter_names_cons {q : String → Bool} (h : t.kind = .ident → q t.text = false) :
    (names (t :: ts)).filter q = (names ts).filter q := by
  rw [names]
  split
  · rename_i hname
    rw [List.filter_cons_of_neg (by simp [h hname.1])]
  · rfl

/-- Where tokens are exchanged behind `pre`, the names that pass stay the same if they do behind no
token at all, and the last of `pre` is no word that passes. -/
lemma filter_names_append {q : String → Bool} (h : (names as).filter q = (names bs).filter q)
    (hpre : ∀ w ∈ pre.getLast?, w.kind = .ident → q w.text = false) :
    (names (pre ++ as)).filter q = (names (pre ++ bs)).filter q := by
  induction pre with
  | nil => exact h
  | cons t pre ih =>
    cases pre with
    | nil =>
      have ht : t.kind = .ident → q t.text = false := hpre t (by simp)
      rw [List.singleton_append, List.singleton_append, filter_names_cons ht,
        filter_names_cons ht, h]
    | cons u pre =>
      have hrest := ih fun w hw => hpre w (by simpa [List.getLast?_cons_cons] using hw)
      obtain ⟨ns, has, hbs⟩ := exists_names_cons t
        (show (u :: pre ++ as).head? = (u :: pre ++ bs).head? from rfl)
      change (names (t :: (u :: pre ++ as))).filter q = (names (t :: (u :: pre ++ bs))).filter q
      rw [has, hbs, List.filter_append, List.filter_append, hrest]

lemma filter_closings_append {q : String × ℕ → Bool}
    (h : ∀ b opened, (∀ name ∈ b, q (name, 1) = false) →
      (closings b opened as).filter q = (closings b opened bs).filter q)
    (hb : pre = [] → ∀ name ∈ b, q (name, 1) = false)
    (hpre : ∀ w ∈ pre.getLast?, w.kind = .ident → q (w.text, 1) = false) :
    (closings b opened (pre ++ as)).filter q = (closings b opened (pre ++ bs)).filter q := by
  induction pre generalizing b opened with
  | nil => exact h b opened (hb rfl)
  | cons t pre ih =>
    obtain ⟨cs, opened', hcons⟩ := exists_closings_cons t b opened
    -- what stands before is read the same way, and it leaves the same groups open
    have hrest : (closings (wordOf t) opened' (pre ++ as)).filter q =
        (closings (wordOf t) opened' (pre ++ bs)).filter q := by
      refine ih ?_ fun w hw => hpre w ?_
      · rintro rfl name hname
        obtain ⟨ht, rfl⟩ : t.kind = .ident ∧ t.text = name := by simpa [wordOf] using hname
        exact hpre t (by simp) ht
      · simp [List.getLast?_cons, Option.mem_def.mp hw]
    rw [List.cons_append, List.cons_append, hcons, hcons, List.filter_append, List.filter_append,
      hrest]

end Seam

/-! ### Calls of one argument -/

section Call

variable {o c : Token} {args : Derivation true .sum} {post : List Token}

lemma filter_names_enclose (hf : f.kind = .ident) (ho : o.kind = .lparen) {q : String → Bool}
    (hq : q f.text = false) (hpre : ∀ w ∈ pre.getLast?, w.kind = .ident → q w.text = false) :
    (names (enclose pre f (o :: rest))).filter q = (names (pre ++ f :: o :: rest)).filter q := by
  refine filter_names_append ?_ hpre
  have hclear : Clear isOpening (⟨.rparen, ")", 0⟩ :: o :: rest) := clear_cons.mpr rfl
  rw [names_cons_of_ne (by simp), names_cons_name hf hclear, names_cons_of_ne (by simp),
    names_cons_call ho, List.filter_cons_of_neg (by simp [hq])]

lemma filter_closings_enclose (hf : f.kind = .ident) (ho : o.kind = .lparen)
    (hc : c.kind = .rparen) (hargs : args.Fits 0 (c :: post)) {q : String × ℕ → Bool}
    (hq : q (f.text, 1) = false)
    (hpre : ∀ w ∈ pre.getLast?, w.kind = .ident → q (w.text, 1) = false) :
    (closedCalls (enclose pre f (o :: (args.tokens ++ c :: post)))).filter q =
      (closedCalls (pre ++ f :: o :: (args.tokens ++ c :: post))).filter q := by
  refine filter_closings_append (fun b opened hb => ?_) (fun _ => by simp) hpre
  -- the group of the name closes as a call if a word stands before it
  have hname : (closings b opened (⟨.lparen, "(", 0⟩ :: f :: ⟨.rparen, ")", 0⟩ ::
      o :: (args.tokens ++ c :: post))).filter q =
        (closings none opened (o :: (args.tokens ++ c :: post))).filter q := by
    rw [closings_opening rfl, closings_word hf]
    cases b with
    | none => rw [closings_group rfl]
    | some name => rw [closings_call rfl, List.filter_cons_of_neg (by simp [hb name rfl])]
  -- without the name the parentheses are a group, with it they were a call that is not counted
  have hgroup : closings none opened (o :: (args.tokens ++ c :: post)) =
      Uses.calls (usesOf args) ++ closings none opened post := by
    rw [closings_opening ho, closings_tokens args hargs, closings_group hc]
  have hcall : closings b opened (f :: o :: (args.tokens ++ c :: post)) =
      Uses.calls (usesOf args) ++ (f.text, 1) :: closings none opened post := by
    rw [closings_word hf, closings_opening ho, closings_tokens args hargs, closings_call hc]
  rw [hname, hgroup, hcall, List.filter_append, List.filter_append,
    List.filter_cons_of_neg (by simp [hq])]

variable (lib : Library) (vars : Snapshot)

lemma shortfall_bare (implied : Bool) (ts : List Token) :
    shortfall lib implied vars (ts.map Token.bare) = shortfall lib implied vars ts := by
  simp only [shortfall, callsLacking, closedCalls, names_bare, closings_bare]

/-- With the name in parentheses the same names are missing. -/
lemma shortfall_enclose (hf : f.kind = .ident) (ho : o.kind = .lparen) (hc : c.kind = .rparen)
    (hargs : args.Fits 0 (c :: post)) (hsup : nameSupplied lib vars f.text = true)
    (hpre : ∀ w ∈ pre.getLast?, w.kind = .ident → nameSupplied lib vars w.text = true) :
    shortfall lib true vars (enclose pre f (o :: (args.tokens ++ c :: post))) =
      shortfall lib true vars (pre ++ f :: o :: (args.tokens ++ c :: post)) := by
  have hone : ∀ name, nameSupplied lib vars name = true →
      callSupplied lib true vars (name, 1) = true := fun name h => by simp [callSupplied, h]
  have hcalls : ∀ n, callsLacking lib true vars n
      (enclose pre f (o :: (args.tokens ++ c :: post))) =
        callsLacking lib true vars n (pre ++ f :: o :: (args.tokens ++ c :: post)) := by
    intro n
    rw [callsLacking, filter_closings_enclose hf ho hc hargs]
    · rfl
    · simp [hone _ hsup]
    · exact fun w hw hk => by simp [hone _ (hpre w hw hk)]
  rw [shortfall, shortfall, hcalls, hcalls, filter_names_enclose hf ho]
  · simp [hsup]
  · exact fun w hw hk => by simp [hpre w hw hk]

end Call

/-! ### Calculations -/

/-- Behind the name `f` stand an argument in parentheses, which could be a source of its own, and
the tokens `post`. -/
structure Call (f : Token) (rest post : List Token) : Prop where
  name : f.kind = .ident
  argument : ∃ o args c, o.kind = .lparen ∧ (∃ d : Derivation true .sum, d.Derives args) ∧
    c.kind = .rparen ∧ rest = o :: (args ++ c :: post)

/-- That the argument is one is found by reading it. -/
lemma call_of_isOk {o c : Token} {args post : List Token} (hf : f.kind = .ident)
    (ho : o.kind = .lparen) (hargs : (expression ⟨true, 0⟩ args).isOk = true)
    (hc : c.kind = .rparen) : Call f (o :: (args ++ c :: post)) post := by
  obtain ⟨e, he⟩ := exists_of_isOk hargs
  obtain ⟨d, hd, -⟩ := expression_ok_iff.mp he
  exact ⟨hf, o, args, c, ho, ⟨d, hd⟩, hc, rfl⟩

section Calculation

variable (lib : Library) (vars : Snapshot) {ts us post : List Token} {e : Expr}

lemma calculate_eq_shortfall (hs : Token.scan source = .ok ts)
    (hp : Expr.parse true source = .ok e) :
    lib.calculate true source vars =
      if (shortfall lib true vars ts).isEmpty then .value (Uses.value (scope lib true vars) e)
      else .unresolved (shortfall lib true vars ts) := by
  obtain ⟨d, hd, rfl⟩ := (parse_ok_iff hs).mp hp
  rw [calculate_of_parse lib vars hp, Uses.outcome_eq, report_eq_shortfall lib vars hd]

/-- A source whose tokens are spelled as those of a derivation is evaluated as its tree. -/
lemma calculate_of_derives {d : Derivation true .sum} (hs : Token.scan source = .ok us)
    (hbare : us.map Token.bare = ts.map Token.bare) (hd : d.Derives ts) :
    (∃ e, Expr.parse true source = .ok e) ∧
      lib.calculate true source vars = (scope lib true vars).outcome d.tree := by
  -- the derivation is over other places, and these are not seen in the outcome
  have hread : expression ⟨true, source.length⟩ ts = .ok d.tree :=
    expression_ok_iff.mpr ⟨d, hd, rfl⟩
  have halike : Alike (Expr.parse true source) (expression ⟨true, source.length⟩ ts) := by
    rw [Expr.parse, hs]
    exact expression_alike true _ _ hbare
  rw [hread] at halike
  cases hp : Expr.parse true source with
  | error err => simp [hp, Alike] at halike
  | ok e =>
    have htree : e.bare = d.tree.bare := by simpa [hp, Alike] using halike
    refine ⟨⟨e, rfl⟩, ?_⟩
    rw [calculate_of_parse lib vars hp, ← Scope.outcome_bare, htree, Scope.outcome_bare]

/-- **The name of a call in parentheses.** No function has the name and a number does, so the call
is a product. In every context the source with the parentheses, if it is read, comes to a number
just if the other one does, or to the same report; only a word right before the name has to have a
number, as it becomes a call. Where the call begins its product and neither a bang nor an exponent
follows it, the parenthesised source is read, and comes to the very same outcome. -/
theorem calculate_parenthesised (hs : Token.scan source = .ok (pre ++ f :: rest))
    (hcall : Call f rest post) (hfun : lib.functions.unary f.text = none)
    (hsup : nameSupplied lib vars f.text = true) (hp : ∃ e, Expr.parse true source = .ok e) :
    ((∃ e, Expr.parse true (parenthesise source f) = .ok e) →
      (∀ w ∈ pre.getLast?, w.kind = .ident → nameSupplied lib vars w.text = true) →
      (∃ v w, lib.calculate true source vars = .value v ∧
        lib.calculate true (parenthesise source f) vars = .value w) ∨
      ∃ m, lib.calculate true source vars = .unresolved m ∧
        lib.calculate true (parenthesise source f) vars = .unresolved m) ∧
    (BeginsProduct pre → Free post →
      (∃ e, Expr.parse true (parenthesise source f) = .ok e) ∧
      lib.calculate true (parenthesise source f) vars = lib.calculate true source vars) := by
  obtain ⟨us, hus, hbare⟩ := scan_parenthesise hs
  obtain ⟨e, hp⟩ := hp
  obtain ⟨hname, o, _, c, ho, ⟨args, hargs⟩, hc, rfl⟩ := hcall
  obtain ⟨rfl, hfit⟩ := Derivation.derives_iff.mp hargs
  have hfit : args.Fits 0 (c :: post) :=
    fits_of_ends_sum args (Nat.zero_le _) hfit (ends_of_rparen hc _)
  refine ⟨?_, fun hbegins hfree => ?_⟩
  · rintro ⟨e', hp'⟩ hpre
    -- the same names are missing, so there is a value for both or for neither
    have hshort := shortfall_enclose lib vars hname ho hc hfit hsup hpre
    rw [← shortfall_bare, ← hbare, shortfall_bare] at hshort
    rw [calculate_eq_shortfall lib vars hs hp, calculate_eq_shortfall lib vars hus hp', hshort]
    split
    · exact .inl ⟨_, _, rfl, rfl⟩
    · exact .inr ⟨_, rfl, rfl⟩
  · obtain ⟨d, hd, rfl⟩ := (parse_ok_iff hs).mp hp
    -- the call leads its product, so the tree of the neighbours has the same value
    have hstands : standsFor (scope lib true vars) f.text = true := by
      have hknown := known_scope lib true vars f.text
      simp_all [standsFor, Uses.known, scope]
    obtain ⟨d', hd', hout⟩ := derives_parenthesised hname ho hc hfit hfree hstands hd hbegins
      (show Token.kind ⟨.lparen, "(", 0⟩ = .lparen from rfl)
      (show Token.kind ⟨.rparen, ")", 0⟩ = .rparen from rfl)
    obtain ⟨hread, hcalc⟩ := calculate_of_derives lib vars hus hbare hd'
    exact ⟨hread, by rw [hcalc, hout, calculate_of_parse lib vars hp]⟩

end Calculation

/-- Behind signs the number is the same, and behind a word and before a bang what is missing is. -/
theorem calculate_parenthesised_sign :
    let lib : Library := ⟨.standard, .empty⟩
    let vars : Snapshot := ⟨[⟨"a", "2"⟩, ⟨"b", "5"⟩]⟩
    lib.calculate true "1--(a)(3)/b" vars = lib.calculate true "1--a(3)/b" vars ∧
      lib.calculate true "b (a)(y)!" vars = .unresolved ⟨["y"], [], []⟩ := by
  intro lib vars
  constructor
  · let ts : List Token := (Token.scan "1--a(3)/b").toOption.getD []
    let f : Token := ⟨.ident, "a", 3⟩
    have hs : Token.scan "1--a(3)/b" =
        .ok (ts.take 3 ++ f :: ⟨.lparen, "(", 4⟩ :: ((ts.drop 5).take 1 ++
          ⟨.rparen, ")", 6⟩ :: ts.drop 7)) := by decide +kernel
    have hcall : Call f _ (ts.drop 7) := call_of_isOk rfl
      (show Token.kind ⟨.lparen, "(", 4⟩ = .lparen from rfl)
      (show (expression ⟨true, 0⟩ ((ts.drop 5).take 1)).isOk = true by decide +kernel)
      (show Token.kind ⟨.rparen, ")", 6⟩ = .rparen from rfl)
    have hp := exists_of_isOk (x := Expr.parse true "1--a(3)/b") (by decide +kernel)
    have htext : parenthesise "1--a(3)/b" f = "1--(a)(3)/b" := by decide +kernel
    have h := calculate_parenthesised lib vars hs hcall rfl (by decide +kernel) hp
    rw [htext] at h
    exact (h.2 (by decide +kernel) (by decide +kernel)).2
  · let f : Token := ⟨.ident, "a", 2⟩
    have hs : Token.scan "b a(y)!" = .ok ([⟨.ident, "b", 0⟩] ++ f :: ⟨.lparen, "(", 3⟩ ::
        ([⟨.ident, "y", 4⟩] ++ ⟨.rparen, ")", 5⟩ :: [⟨.bang, "!", 6⟩])) := by decide +kernel
    have hcall : Call f _ [⟨.bang, "!", 6⟩] := call_of_isOk rfl
      (show Token.kind ⟨.lparen, "(", 3⟩ = .lparen from rfl)
      (show (expression ⟨true, 0⟩ [⟨.ident, "y", 4⟩]).isOk = true by decide +kernel)
      (show Token.kind ⟨.rparen, ")", 5⟩ = .rparen from rfl)
    have hp := exists_of_isOk (x := Expr.parse true "b a(y)!") (by decide +kernel)
    have hp' := exists_of_isOk (x := Expr.parse true "b (a)(y)!") (by decide +kernel)
    have htext : parenthesise "b a(y)!" f = "b (a)(y)!" := by decide +kernel
    have hmissing : lib.calculate true "b a(y)!" vars = .unresolved ⟨["y"], [], []⟩ := by
      decide +kernel
    have h := (calculate_parenthesised lib vars hs hcall rfl (by decide +kernel) hp).1
    rw [htext] at h
    rcases h hp' (by decide +kernel) with ⟨v, w, hv, -⟩ | ⟨m, hm, hm'⟩
    · simp [hmissing] at hv
    · rw [hm', ← hm, hmissing]

/-- An operand is multiplied before its bangs, a factor after them. -/
theorem not_forall_calculate_parenthesised :
    ¬ ∀ (lib : Library) (vars : Snapshot) (source : String) (pre : List Token) (f : Token)
      (rest post : List Token),
      Token.scan source = .ok (pre ++ f :: rest) → Call f rest post →
      lib.functions.unary f.text = none → nameSupplied lib vars f.text = true →
      (∃ e, Expr.parse true source = .ok e) →
      (∃ e, Expr.parse true (parenthesise source f) = .ok e) →
      lib.calculate true (parenthesise source f) vars = lib.calculate true source vars := by
  intro h
  let lib : Library := ⟨.standard, .empty⟩
  let vars : Snapshot := ⟨[⟨"a", "2"⟩]⟩
  let ts : List Token := (Token.scan "a(3)!").toOption.getD []
  let f : Token := ⟨.ident, "a", 0⟩
  have hs : Token.scan "a(3)!" = .ok ([] ++ f :: ⟨.lparen, "(", 1⟩ :: ((ts.drop 2).take 1 ++
      ⟨.rparen, ")", 3⟩ :: ts.drop 4)) := by decide +kernel
  have hcall : Call f _ (ts.drop 4) := call_of_isOk rfl
    (show Token.kind ⟨.lparen, "(", 1⟩ = .lparen from rfl)
    (show (expression ⟨true, 0⟩ ((ts.drop 2).take 1)).isOk = true by decide +kernel)
    (show Token.kind ⟨.rparen, ")", 3⟩ = .rparen from rfl)
  have htext : parenthesise "a(3)!" f = "(a)(3)!" := by decide +kernel
  have hp := exists_of_isOk (x := Expr.parse true "a(3)!") (by decide +kernel)
  have hp' := exists_of_isOk (x := Expr.parse true "(a)(3)!") (by decide +kernel)
  have hsame := h lib vars "a(3)!" [] f _ _ hs hcall rfl (by decide +kernel) hp (htext ▸ hp')
  rw [htext] at hsame
  exact absurd hsame (by decide +kernel)

end Abacus.Proofs.ParenthesisedNames
