import Abacus.Proofs.ReadBack
import Abacus.Proofs.Spacing
import Abacus.Proofs.WrittenProducts

/-!
Trees that are read back from their text. Every operation of two operands stands between its own
parentheses, but a sign stands right before its operand and an exclamation mark right after it, so
the text of a tree is read as that tree unless a signed operand is what an exclamation mark or an
exponent belongs to. Products of neighbours come back as written products, and places are those of
the new text. The text has a derivation that goes as deep as the tree nests, so that texts which
nest too deep are all that is refused.

The room for open calls is left aside for printing, though not for the evaluation of what is read.
A run of exclamation marks is evaluated by one call and printed by a call for each, so a tree with
an outcome may have a text that there is no room to print; what is said here is of trees and texts
that there are.
-/

namespace Abacus.Proofs.PrintedText

open Grammar WrittenProducts

/-! ### Trees with an unambiguous text -/

def isSigned : Expr → Bool
  | .signed _ _ => true
  | _ => false

mutual

/-- All numbers are finite, and nothing that begins with a sign is the operand of an exclamation
mark or the base of a power. -/
def printable : Expr → Bool
  | .number v => !v.isNaN && !v.isInfinite
  | .reference _ _ => true
  | .binary op l r => !(op == .pow && isSigned l) && printable l && printable r
  | .signed _ e => printable e
  | .factorial e => !isSigned e && printable e
  | .call _ _ args => allPrintable args

def allPrintable : List Expr → Bool
  | [] => true
  | e :: rest => printable e && allPrintable rest

end

mutual

def finite : Expr → Bool
  | .number v => !v.isNaN && !v.isInfinite
  | .reference _ _ => true
  | .binary _ l r => finite l && finite r
  | .signed _ e => finite e
  | .factorial e => finite e
  | .call _ _ args => allFinite args

def allFinite : List Expr → Bool
  | [] => true
  | e :: rest => finite e && allFinite rest

end

mutual

lemma finite_of_printable (e : Expr) (h : printable e = true) : finite e = true := by
  match e with
  | .number v => exact h
  | .reference _ _ => rfl
  | .binary op l r =>
    simp only [printable, Bool.and_eq_true] at h
    simp only [finite, finite_of_printable l h.1.2, finite_of_printable r h.2, Bool.and_self]
  | .signed _ e => exact finite_of_printable e h
  | .factorial e =>
    simp only [printable, Bool.and_eq_true] at h
    exact finite_of_printable e h.2
  | .call _ _ args => exact allFinite_of_allPrintable args h

lemma allFinite_of_allPrintable (es : List Expr) (h : allPrintable es = true) :
    allFinite es = true := by
  match es with
  | [] => rfl
  | e :: rest =>
    simp only [allPrintable, Bool.and_eq_true] at h
    simp only [allFinite, finite_of_printable e h.1, allFinite_of_allPrintable rest h.2,
      Bool.and_self]

end

mutual

/-- The levels of parentheses, argument lists, signs and exponents in the text of a tree. An
exponent lies one level below the parentheses of its power. -/
def nesting : Expr → ℕ
  | .number _ => 0
  | .reference _ _ => 0
  | .binary op l r => 1 + max (nesting l) (if op = .pow then 1 + nesting r else nesting r)
  | .signed _ e => 1 + nesting e
  | .factorial e => nesting e
  | .call _ _ args => 1 + nestingOfAll args

def nestingOfAll : List Expr → ℕ
  | [] => 0
  | e :: rest => max (nesting e) (nestingOfAll rest)

end

/-- The trees that sources have: names are words, numbers have no sign, and calls have one argument
or two. -/
inductive Sourced : Expr → Prop
  | finite (m : Magnitude) : Sourced (.number (.finite false m))
  | infinite : Sourced (.number (.inf false))
  | reference {name : String} {pos : ℕ} (hn : Token.Begins [] ⟨.ident, name, pos⟩) :
      Sourced (.reference name pos)
  | binary {l r : Expr} (op : Operator) (hl : Sourced l) (hr : Sourced r) :
      Sourced (.binary op l r)
  | signed {e : Expr} (s : Sign) (he : Sourced e) : Sourced (.signed s e)
  | factorial {e : Expr} (he : Sourced e) : Sourced (.factorial e)
  | call {name : String} {pos : ℕ} {a : Expr} (hn : Token.Begins [] ⟨.ident, name, pos⟩)
      (ha : Sourced a) : Sourced (.call name pos [a])
  | callTwo {name : String} {pos : ℕ} {a b : Expr} (hn : Token.Begins [] ⟨.ident, name, pos⟩)
      (ha : Sourced a) (hb : Sourced b) : Sourced (.call name pos [a, b])

/-! ### The trees of sources -/

variable {implied : Bool} {e : Expr} {rest ts ts' : List Token} {after cs cs' : List Char}

/-- What a rule gives is such a tree, or for the rest of a chain makes one of such a tree. -/
def Gives : (r : Rule) → r.Yield → Prop
  | .sumTail, f => ∀ left, Sourced left → Sourced (f left)
  | .productTail, f => ∀ left, Sourced left → Sourced (f left)
  | .sum, e => Sourced e
  | .product, e => Sourced e
  | .signed, e => Sourced e
  | .power, e => Sourced e
  | .factorial, e => Sourced e
  | .operand, e => Sourced e

lemma sourced_number {t : Token} {v : Double} (h : Token.Begins [] t) (hk : t.kind = .number v) :
    Sourced (.number v) := by
  cases h with
  | number pos hx _ =>
    obtain rfl := Token.Kind.number.inj hk
    unfold Decimal.toDouble
    split_ifs
    · exact .finite _
    · exact .infinite
    · exact .finite _
    · unfold Double.ofRatio
      split
      · exact .finite _
      · exact .infinite
  | word => simp at hk
  | mark pos hm => exact absurd hk ((Token.ne_of_mark hm).2 v)

lemma ident_eta {t : Token} (hk : t.kind = .ident) : t = ⟨.ident, t.text, t.pos⟩ := by
  rw [← hk]

lemma sourced_bangs {bs : List Token} (he : Sourced e) :
    Sourced (bs.foldl (fun left _ => .factorial left) e) := by
  induction bs generalizing e with
  | nil => exact he
  | cons b bs ih => exact ih (.factorial he)

/-- **The tree of a derivation of scanned tokens is one that sources have.** -/
theorem gives_tree {r : Rule} (d : Derivation implied r)
    (h : ∀ t ∈ d.tokens, Token.Begins [] t) : Gives r d.tree := by
  induction d with
  | sum first tail ihf iht | product first tail ihf iht =>
    obtain ⟨hf, ht⟩ := List.forall_mem_append.mp h
    have htail : ∀ left, Sourced left → Sourced (tail.tree left) := iht ht
    exact htail _ (ihf hf)
  | sumEnd | productEnd =>
    intro left hl
    exact hl
  | sumLink t op _ term tail ihf iht | productLink t op _ term tail ihf iht =>
    obtain ⟨hf, ht⟩ := List.forall_mem_append.mp (List.forall_mem_cons.mp h).2
    have htail : ∀ left, Sourced left → Sourced (tail.tree left) := iht ht
    intro left hl
    exact htail _ (.binary op hl (ihf hf))
  | neighbour _ factor tail ihf iht =>
    obtain ⟨hf, ht⟩ := List.forall_mem_append.mp h
    have htail : ∀ left, Sourced left → Sourced (tail.tree left) := iht ht
    intro left hl
    exact htail _ (.binary .implied hl (ihf hf))
  | sign t s _ e ih => exact .signed s (ih (List.forall_mem_cons.mp h).2)
  | unsigned e ih => exact ih h
  | base e ih => exact ih h
  | raised e t _ x ihe ihx =>
    obtain ⟨he, hx⟩ := List.forall_mem_append.mp h
    exact .binary .pow (ihe he) (ihx (List.forall_mem_cons.mp hx).2)
  | factorial e bs _ ih => exact sourced_bangs (ih (List.forall_mem_append.mp h).1)
  | number t v hk => exact sourced_number (h t (by simp [Derivation.tokens])) hk
  | name t hk => exact .reference (ident_eta hk ▸ h t (by simp [Derivation.tokens]))
  | group o c _ _ e ih => exact ih fun t ht => h t (by simp [Derivation.tokens, ht])
  | call f o c hf _ _ arg ih =>
    exact .call (ident_eta hf ▸ h f (by simp [Derivation.tokens]))
      (ih fun t ht => h t (by simp [Derivation.tokens, ht]))
  | callTwo f o m c hf _ _ _ arg arg' ih ih' =>
    exact .callTwo (ident_eta hf ▸ h f (by simp [Derivation.tokens]))
      (ih fun t ht => h t (by simp [Derivation.tokens, ht]))
      (ih' fun t ht => h t (by simp [Derivation.tokens, ht]))

lemma sourced_of_parse {source : String} (h : Expr.parse implied source = .ok e) : Sourced e := by
  obtain ⟨ts, hts⟩ := scan_of_parse h
  obtain ⟨d, hd, rfl⟩ := (parse_ok_iff hts).mp h
  exact gives_tree d (hd.tokens ▸ Token.begins_of_scanFrom hts)

/-! ### The tokens of a text -/

def signToken : Sign → Token
  | .plus => ⟨.plus, "+", 0⟩
  | .minus => ⟨.minus, "-", 0⟩

def operatorToken : Operator → Token
  | .add => ⟨.plus, "+", 0⟩
  | .sub => ⟨.minus, "-", 0⟩
  | .mul => ⟨.star, "*", 0⟩
  | .implied => ⟨.star, "*", 0⟩
  | .div => ⟨.slash, "/", 0⟩
  | .mod => ⟨.percent, "%", 0⟩
  | .pow => ⟨.caret, "^", 0⟩

def bangToken : Token := ⟨.bang, "!", 0⟩

def openingToken : Token := ⟨.lparen, "(", 0⟩

def closingToken : Token := ⟨.rparen, ")", 0⟩

def commaToken : Token := ⟨.comma, ",", 0⟩

mutual

/-- The tokens of the text of a tree, without their places. -/
def tokens : Expr → List Token
  | .number v => [⟨.number v, v.text, 0⟩]
  | .reference name _ => [⟨.ident, name, 0⟩]
  | .binary op l r => openingToken :: (tokens l ++ operatorToken op :: (tokens r ++ [closingToken]))
  | .signed s e => signToken s :: tokens e
  | .factorial e => tokens e ++ [bangToken]
  | .call name _ args => ⟨.ident, name, 0⟩ :: openingToken :: (tokensOfAll args ++ [closingToken])

/-- Commas stand between arguments. -/
def tokensOfAll : List Expr → List Token
  | [] => []
  | [e] => tokens e
  | e :: rest => tokens e ++ commaToken :: tokensOfAll rest

end

/-- A text before `after` is scanned as the tokens `ts`, wherever it stands. -/
def ScansAs (cs after : List Char) (ts : List Token) : Prop :=
  ∀ pos, ∃ us pos', us.map Token.bare = ts ∧
    Token.scanFrom pos (cs ++ after) = (Token.scanFrom pos' after).map (us ++ ·)

lemma ScansAs.append (h : ScansAs cs (cs' ++ after) ts) (h' : ScansAs cs' after ts') :
    ScansAs (cs ++ cs') after (ts ++ ts') := by
  intro pos
  obtain ⟨us, pos₁, rfl, hs⟩ := h pos
  obtain ⟨vs, pos₂, rfl, hs'⟩ := h' pos₁
  refine ⟨us ++ vs, pos₂, List.map_append, ?_⟩
  rw [List.append_assoc, hs, hs']
  cases Token.scanFrom pos₂ after <;> simp [Except.map]

lemma scansAs_begins {t : Token} (h : Token.Begins after t) :
    ScansAs t.text.toList after [t.bare] :=
  fun pos => ⟨[t.moved pos], _, rfl, Token.scanFrom_begins h pos⟩

lemma scansAs_mark {c : Char} {k : Token.Kind} (h : Token.mark? c = some k) :
    ScansAs [c] after [⟨k, String.singleton c, 0⟩] :=
  fun pos => ⟨[⟨k, String.singleton c, pos⟩], pos + 1, rfl, Token.scanFrom_mark h pos after⟩

lemma scansAs_space : ScansAs [' '] after [] := by
  intro pos
  refine ⟨[], pos + 1, rfl, ?_⟩
  rw [List.singleton_append, Token.scanFrom, if_pos Text.isBlank_space]
  cases Token.scanFrom (pos + 1) after <;> rfl

lemma scansAs_operator (op : Operator) : ScansAs op.text.toList after [operatorToken op] := by
  cases op <;> exact scansAs_mark rfl

lemma scansAs_sign (s : Sign) : ScansAs s.text.toList after [signToken s] := by
  cases s <;> exact scansAs_mark rfl

/-- **The text of a tree has the tokens of the tree**, if no number in it is infinite. -/
theorem scansAs_text (h : Sourced e) (hf : finite e = true) (hr : Parts after) :
    ScansAs e.text.toList after (tokens e) := by
  induction h generalizing after with
  | finite m =>
    obtain ⟨y, hy, htext⟩ := Double.exists_numeral_text false m
    have hscan := scansAs_begins (hy.begins hr 0)
    rw [tokens, Expr.text, htext]
    exact hscan
  | infinite => simp [finite, Double.isInfinite] at hf
  | reference hn => exact scansAs_begins (hn.parts (b := []) hr)
  | @binary l r op _ _ ihl ihr =>
    simp only [finite, Bool.and_eq_true] at hf
    have htext : (Expr.binary op l r).text.toList = ['('] ++ (l.text.toList ++ ([' '] ++
        (op.text.toList ++ ([' '] ++ (r.text.toList ++ [')']))))) := by
      simp [Expr.text]
    rw [htext]
    exact (scansAs_mark rfl).append <| (ihl hf.1 (parts_cons (by simp) _)).append <|
      scansAs_space.append <| (scansAs_operator op).append <| scansAs_space.append <|
      (ihr hf.2 (parts_cons (by simp) _)).append (scansAs_mark rfl)
  | @signed e s _ ih =>
    have htext : (Expr.signed s e).text.toList = s.text.toList ++ e.text.toList := by
      simp [Expr.text]
    rw [htext]
    exact (scansAs_sign s).append (ih hf hr)
  | @factorial e _ ih =>
    have htext : (Expr.factorial e).text.toList = e.text.toList ++ ['!'] := by
      simp [Expr.text]
    rw [htext]
    exact (ih hf (parts_cons (by simp) _)).append (scansAs_mark rfl)
  | @call name pos a hn _ ih =>
    simp only [finite, allFinite, Bool.and_eq_true] at hf
    have htext : (Expr.call name pos [a]).text.toList =
        name.toList ++ (['('] ++ (a.text.toList ++ [')'])) := by
      simp [Expr.text, Expr.texts]
    have hname : ScansAs name.toList (['('] ++ (a.text.toList ++ [')']) ++ after)
        [⟨.ident, name, 0⟩] := scansAs_begins (hn.parts (b := []) (parts_cons (by simp) _))
    rw [htext]
    exact hname.append <| (scansAs_mark rfl).append <|
      (ih hf.1 (parts_cons (c := ')') (by simp) _)).append (scansAs_mark rfl)
  | @callTwo name pos a b hn _ _ iha ihb =>
    simp only [finite, allFinite, Bool.and_eq_true] at hf
    have htext : (Expr.call name pos [a, b]).text.toList = name.toList ++ (['('] ++
        (a.text.toList ++ ([','] ++ ([' '] ++ (b.text.toList ++ [')']))))) := by
      simp [Expr.text, Expr.texts]
    have hname : ScansAs name.toList (['('] ++ (a.text.toList ++ ([','] ++ ([' '] ++
        (b.text.toList ++ [')'])))) ++ after) [⟨.ident, name, 0⟩] :=
      scansAs_begins (hn.parts (b := []) (parts_cons (by simp) _))
    have htokens : tokens (.call name pos [a, b]) = [⟨.ident, name, 0⟩] ++ ([openingToken] ++
        (tokens a ++ ([commaToken] ++ ([] ++ (tokens b ++ [closingToken]))))) := by
      simp [tokens, tokensOfAll]
    rw [htext, htokens]
    exact hname.append <| (scansAs_mark rfl).append <|
      (iha hf.1 (parts_cons (c := ',') (by simp) _)).append <| (scansAs_mark rfl).append <|
      scansAs_space.append <| (ihb hf.2.1 (parts_cons (c := ')') (by simp) _)).append
        (scansAs_mark rfl)

/-! ### The tokens are derived -/

/-- What a text is read as: names stand nowhere, and products are written. -/
def printed (e : Expr) : Expr := (explicit e).bare

/-- The operation that an operation is read back as. -/
def written (op : Operator) : Operator := if op = .implied then .mul else op

@[simp] lemma printed_binary (op : Operator) (l r : Expr) :
    printed (.binary op l r) = .binary (written op) (printed l) (printed r) := rfl

/-- The derivation has the tokens of the tree and lies as deep as the tree nests. It stands wherever
nothing goes on with a signed operand. -/
structure DerivesSigned (e : Expr) (d : Derivation implied .signed) : Prop where
  tokens : d.tokens = tokens e
  tree : d.tree = printed e
  levels : ∀ {n m}, (∀ l ∈ d.leaves n, l.level ≤ m) ↔ n + nesting e ≤ m
  stands : ∀ {rest}, Ends .signed rest → Clear isOpening rest → d.Stands rest

/-- The same of an operand with exclamation marks after it. -/
structure DerivesOperand (e : Expr) (d : Derivation implied .operand) (bs : List Token) : Prop where
  bangs : ∀ b ∈ bs, b.kind = .bang
  tokens : d.tokens ++ bs = tokens e
  tree : bs.foldl (fun left _ => .factorial left) d.tree = printed e
  levels : ∀ {n m}, (∀ l ∈ d.leaves n, l.level ≤ m) ↔ n + nesting e ≤ m
  stands : ∀ {rest}, Clear isOpening rest → d.Stands (bs ++ rest)

section Derivations

variable {l r a b : Expr} {op : Operator} {bs : List Token} {d : Derivation implied .signed}
  {dl dr da db : Derivation implied .signed} {o : Derivation implied .operand} {t : Token}

lemma DerivesSigned.stands_cons (h : DerivesSigned e d)
    (ht : isBang t.kind = false ∧ isCaret t.kind = false ∧ isOpening t.kind = false) :
    d.Stands (t :: rest) :=
  h.stands ⟨clear_cons.mpr ht.1, clear_cons.mpr ht.2.1⟩ (clear_cons.mpr ht.2.2)

/-- A signed operand by itself. -/
def single (d : Derivation implied .signed) : Derivation implied .sum :=
  .sum (.product d .productEnd) .sumEnd

@[simp] lemma tokens_single (d : Derivation implied .signed) : (single d).tokens = d.tokens := by
  simp [single, Derivation.tokens]

@[simp] lemma leaves_single (d : Derivation implied .signed) (n : ℕ) :
    (single d).leaves n = d.leaves n := by
  simp [single, Derivation.leaves]

lemma DerivesSigned.stands_single (h : DerivesSigned e d) (he : Ends .sum rest)
    (ho : Clear isOpening rest) : (single d).Stands rest := by
  obtain ⟨hb, hc, hp, hs⟩ := he
  exact ⟨⟨h.stands ⟨hb, hc⟩ ho, hp⟩, hs⟩

lemma clear_closing (rest : List Token) : Clear isOpening (closingToken :: rest) := by
  rw [clear_cons]
  rfl

lemma DerivesOperand.leaves_bangs (h : DerivesOperand e o bs) {n m : ℕ} :
    (∀ l ∈ (Derivation.factorial o bs h.bangs).leaves n, l.level ≤ m) ↔ n + nesting e ≤ m := by
  simp only [Derivation.leaves, List.forall_mem_append, List.forall_mem_map, h.levels]
  exact and_iff_left_of_imp fun hm _ _ => by omega

lemma DerivesOperand.signed (h : DerivesOperand e o bs) :
    DerivesSigned e (.unsigned (.base (.factorial o bs h.bangs))) where
  tokens := h.tokens
  tree := h.tree
  levels := h.leaves_bangs
  stands he ho := ⟨⟨h.stands ho, he.1⟩, he.2⟩

lemma derivesOperand_number (v : Double) :
    DerivesOperand (.number v)
      (.number ⟨.number v, v.text, 0⟩ v rfl : Derivation implied .operand) [] where
  bangs := no_bangs
  tokens := rfl
  tree := rfl
  levels := by simp [Derivation.leaves, nesting]
  stands _ := trivial

lemma derivesOperand_name (name : String) (pos : ℕ) :
    DerivesOperand (.reference name pos)
      (.name ⟨.ident, name, 0⟩ rfl : Derivation implied .operand) [] where
  bangs := no_bangs
  tokens := rfl
  tree := rfl
  levels := by simp [Derivation.leaves, nesting]
  stands ho := ho

/-! ### Groups -/

/-- What stands between the parentheses of an operation. -/
structure DerivesInside (op : Operator) (l r : Expr) (s : Derivation implied .sum) : Prop where
  tokens : s.tokens = tokens l ++ operatorToken op :: tokens r
  tree : s.tree = printed (.binary op l r)
  levels : ∀ {n m}, (∀ l ∈ s.leaves n, l.level ≤ m) ↔
    n + max (nesting l) (if op = .pow then 1 + nesting r else nesting r) ≤ m
  stands : ∀ rest, s.Stands (closingToken :: rest)

lemma DerivesInside.group {s : Derivation implied .sum} (h : DerivesInside op l r s) :
    DerivesOperand (.binary op l r) (.group openingToken closingToken rfl rfl s) [] where
  bangs := no_bangs
  tokens := by simp [Derivation.tokens, h.tokens, PrintedText.tokens]
  tree := h.tree
  levels := by
    intro n m
    simp only [Derivation.leaves, List.forall_mem_cons, List.forall_mem_append, h.levels, nesting]
    simp
    omega
  stands _ := h.stands _

lemma isOpening_operatorToken (op : Operator) : isOpening (operatorToken op).kind = false := by
  cases op <;> rfl

lemma derivesInside_sum (ht : sumOperator? (operatorToken op).kind = some (written op))
    (hop : op ≠ .pow) (hl : DerivesSigned l dl) (hr : DerivesSigned r dr) :
    DerivesInside op l r (.sum (.product dl .productEnd)
      (.sumLink (operatorToken op) (written op) ht (.product dr .productEnd) .sumEnd)) where
  tokens := by simp [Derivation.tokens, hl.tokens, hr.tokens]
  tree := by rw [printed_binary, ← hl.tree, ← hr.tree]; rfl
  levels := by
    intro n m
    simp only [Derivation.leaves, List.append_nil, List.forall_mem_cons, List.forall_mem_append,
      hl.levels, hr.levels, if_neg hop]
    omega
  stands rest := by
    -- the operator ends the left operand, and the parenthesis ends the right one
    obtain ⟨hb, hc, he⟩ := clear_of_sumOperator ht
    obtain ⟨-, -, hp, hs⟩ := ends_of_rparen (t := closingToken) rfl rest
    exact ⟨⟨hl.stands_cons ⟨hb, hc, isOpening_operatorToken op⟩, clear_cons.mpr he⟩,
      ⟨hr.stands_cons ⟨rfl, rfl, rfl⟩, hp⟩, hs⟩

lemma derivesInside_product (ht : productOperator? (operatorToken op).kind = some (written op))
    (hop : op ≠ .pow) (hl : DerivesSigned l dl) (hr : DerivesSigned r dr) :
    DerivesInside op l r (.sum
      (.product dl (.productLink (operatorToken op) (written op) ht dr .productEnd)) .sumEnd) where
  tokens := by simp [Derivation.tokens, hl.tokens, hr.tokens]
  tree := by rw [printed_binary, ← hl.tree, ← hr.tree]; rfl
  levels := by
    intro n m
    simp only [Derivation.leaves, List.append_nil, List.forall_mem_cons, List.forall_mem_append,
      hl.levels, hr.levels, if_neg hop]
    omega
  stands rest := by
    obtain ⟨hb, hc, -⟩ := clear_of_productOperator ht
    obtain ⟨-, -, hp, hs⟩ := ends_of_rparen (t := closingToken) rfl rest
    exact ⟨⟨hl.stands_cons ⟨hb, hc, isOpening_operatorToken op⟩,
      hr.stands_cons ⟨rfl, rfl, rfl⟩, hp⟩, hs⟩

lemma derivesInside_power (hl : DerivesOperand l o bs) (hr : DerivesSigned r dr) :
    DerivesInside .pow l r (single
      (.unsigned (.raised (.factorial o bs hl.bangs) (operatorToken .pow) rfl dr))) where
  tokens := by simp [Derivation.tokens, hl.tokens, hr.tokens]
  tree := by rw [printed_binary, ← hl.tree, ← hr.tree]; rfl
  levels := by
    intro n m
    rw [leaves_single]
    change (∀ u ∈ (Derivation.factorial o bs hl.bangs).leaves n ++
      ⟨operatorToken .pow, n, false⟩ :: dr.leaves (n + 1), u.level ≤ m) ↔ _
    simp only [List.forall_mem_append, hl.leaves_bangs, List.forall_mem_cons, hr.levels, if_true]
    omega
  stands rest := by
    obtain ⟨-, -, hp, hs⟩ := ends_of_rparen (t := closingToken) rfl rest
    -- the marks of the base stand between it and the operator, and none of them opens a call
    have ho : Clear isOpening (operatorToken .pow :: (dr.tokens ++ closingToken :: rest)) :=
      clear_cons.mpr rfl
    exact ⟨⟨⟨⟨hl.stands ho, clear_cons.mpr rfl⟩, hr.stands_cons ⟨rfl, rfl, rfl⟩⟩, hp⟩, hs⟩

/-! ### Calls, signs and exclamation marks -/

lemma DerivesSigned.call (h : DerivesSigned a da) (name : String) (pos : ℕ) :
    DerivesOperand (.call name pos [a])
      (.call ⟨.ident, name, 0⟩ openingToken closingToken rfl rfl rfl (single da)) [] where
  bangs := no_bangs
  tokens := by simp [Derivation.tokens, h.tokens, PrintedText.tokens, tokensOfAll]
  tree := by
    have htree : (single da).tree = printed a := h.tree
    simp only [List.foldl_nil, Derivation.tree, htree]
    rfl
  levels := by
    intro n m
    simp only [Derivation.leaves, leaves_single, List.forall_mem_cons, List.forall_mem_append,
      h.levels, nesting, nestingOfAll]
    simp
    omega
  stands _ := h.stands_single (ends_of_rparen rfl _) (clear_closing _)

lemma DerivesSigned.callTwo (ha : DerivesSigned a da) (hb : DerivesSigned b db) (name : String)
    (pos : ℕ) :
    DerivesOperand (.call name pos [a, b])
      (.callTwo ⟨.ident, name, 0⟩ openingToken commaToken closingToken rfl rfl rfl rfl (single da)
        (single db)) [] where
  bangs := no_bangs
  tokens := by simp [Derivation.tokens, ha.tokens, hb.tokens, PrintedText.tokens, tokensOfAll]
  tree := by
    have hta : (single da).tree = printed a := ha.tree
    have htb : (single db).tree = printed b := hb.tree
    simp only [List.foldl_nil, Derivation.tree, hta, htb]
    rfl
  levels := by
    intro n m
    simp only [Derivation.leaves, leaves_single, List.forall_mem_cons, List.forall_mem_append,
      ha.levels, hb.levels, nesting, nestingOfAll]
    simp
    omega
  stands _ := ⟨ha.stands_single (ends_of_comma rfl _) (clear_cons.mpr rfl),
    hb.stands_single (ends_of_rparen rfl _) (clear_closing _)⟩

lemma sign_signToken (s : Sign) : sign? (signToken s).kind = some s := by
  cases s <;> rfl

lemma DerivesSigned.sign (h : DerivesSigned e d) (s : Sign) :
    DerivesSigned (.signed s e) (.sign (signToken s) s (sign_signToken s) d) where
  tokens := by rw [Derivation.tokens, h.tokens, PrintedText.tokens]
  tree := by rw [Derivation.tree, h.tree]; rfl
  levels := by
    intro n m
    simp only [Derivation.leaves, List.forall_mem_cons, h.levels, nesting]
    omega
  stands he ho := h.stands he ho

lemma DerivesOperand.factorial (h : DerivesOperand e o bs) :
    DerivesOperand (.factorial e) o (bs ++ [bangToken]) where
  bangs := List.forall_mem_append.mpr ⟨h.bangs, List.forall_mem_singleton.mpr rfl⟩
  tokens := by rw [← List.append_assoc, h.tokens, PrintedText.tokens]
  tree := by
    rw [List.foldl_append, h.tree]
    rfl
  levels := h.levels
  stands _ := by
    rw [List.append_assoc]
    exact h.stands (clear_cons.mpr rfl)

/-! ### Whole trees -/

/-- Signed or not, the tree has a derivation, and one as an operand if no sign is before it. -/
structure Derivable (implied : Bool) (e : Expr) : Prop where
  signed : ∃ d : Derivation implied .signed, DerivesSigned e d
  operand : isSigned e = false → ∃ (o : Derivation implied .operand) (bs : List Token),
    DerivesOperand e o bs

lemma DerivesOperand.derivable (h : DerivesOperand e o bs) : Derivable implied e where
  signed := ⟨_, h.signed⟩
  operand _ := ⟨o, bs, h⟩

lemma Derivable.binary (hl : Derivable implied l) (hr : Derivable implied r)
    (hb : op = .pow → isSigned l = false) : Derivable implied (.binary op l r) := by
  obtain ⟨dl, hdl⟩ := hl.signed
  obtain ⟨dr, hdr⟩ := hr.signed
  cases op with
  | add | sub => exact (derivesInside_sum rfl (by simp) hdl hdr).group.derivable
  | mul | implied | div | mod =>
    exact (derivesInside_product rfl (by simp) hdl hdr).group.derivable
  | pow =>
    obtain ⟨o, bs, hbase⟩ := hl.operand (hb rfl)
    exact (derivesInside_power hbase hdr).group.derivable

/-- **A tree with an unambiguous text has a derivation of its tokens.** -/
theorem derivable (implied : Bool) (h : Sourced e) (hp : printable e = true) :
    Derivable implied e := by
  induction h with
  | finite | infinite => exact (derivesOperand_number _).derivable
  | reference => exact (derivesOperand_name _ _).derivable
  | binary op _ _ ihl ihr =>
    simp only [printable, Bool.and_eq_true] at hp
    -- parentheses are printed around it, but the base of a power may not be a sign
    exact (ihl hp.1.2).binary (ihr hp.2) fun hop => by simpa [hop] using hp.1.1
  | signed s _ ih =>
    -- a sign is printed without parentheses, so it derives as a signed operand only
    obtain ⟨d, hd⟩ := (ih hp).signed
    exact ⟨⟨_, hd.sign s⟩, fun hs => by simp [isSigned] at hs⟩
  | factorial _ ih =>
    simp only [printable, Bool.and_eq_true] at hp
    obtain ⟨o, bs, h⟩ := (ih hp.2).operand (by simpa using hp.1)
    exact h.factorial.derivable
  | call _ _ ih =>
    simp only [printable, allPrintable, Bool.and_eq_true] at hp
    obtain ⟨d, hd⟩ := (ih hp.1).signed
    exact (hd.call _ _).derivable
  | callTwo _ _ _ iha ihb =>
    simp only [printable, allPrintable, Bool.and_eq_true] at hp
    obtain ⟨da, ha⟩ := (iha hp.1).signed
    obtain ⟨db, hb⟩ := (ihb hp.2.1).signed
    exact (ha.callTwo hb _ _).derivable

end Derivations

/-- The tokens are read just if they do not lie too deep, and as the tree. -/
lemma expression_tokens_iff (h : Sourced e) (hp : printable e = true) {stop : ℕ} {e' : Expr} :
    expression ⟨implied, stop⟩ (tokens e) = .ok e' ↔ nesting e ≤ 100 ∧ e' = printed e := by
  obtain ⟨d, hd⟩ := (derivable implied h hp).signed
  have hstands : (single d).Stands [] := hd.stands_single (ends_nil .sum) (clear_nil _)
  have htokens : (single d).tokens = tokens e := (tokens_single d).trans hd.tokens
  have hlevels : (∀ l ∈ (single d).leaves 0, l.level ≤ 100) ↔ nesting e ≤ 100 := by
    rw [leaves_single, hd.levels, Nat.zero_add]
  rw [expression_ok_iff]
  constructor
  · rintro ⟨d', hd', rfl⟩
    obtain ⟨ht, hfit⟩ := Derivation.derives_iff.mp hd'
    obtain ⟨rfl, -⟩ := Derivation.unique d' (single d) hfit.stands hstands (by rw [ht, htokens])
    exact ⟨hlevels.mp hd'.levels, hd.tree⟩
  · rintro ⟨hn, rfl⟩
    exact ⟨single d, ⟨htokens, Derivation.callsOnly_iff_stands.mpr hstands, hlevels.mpr hn⟩,
      hd.tree⟩

mutual

lemma framesIn_explicit (s : Surrounding) (e : Expr) : (explicit e).framesIn s = e.framesIn s := by
  match e with
  | .number v => rfl
  | .reference name _ => rfl
  | .binary op l r =>
    have hop : (if op = .implied then .mul else op) = Operator.pow ↔ op = .pow := by
      cases op <;> simp
    simp only [explicit, Expr.framesIn, hop, framesIn_explicit _ l, framesIn_explicit _ r]
  | .signed sign e => simp only [explicit, Expr.framesIn, framesIn_explicit _ e]
  | .factorial e => simp only [explicit, Expr.framesIn, framesIn_explicit _ e]
  | .call name _ args => simp only [explicit, Expr.framesIn, framesOfAll_explicitAll args]

lemma framesOfAll_explicitAll (es : List Expr) :
    Expr.framesOfAll (explicitAll es) = Expr.framesOfAll es := by
  match es with
  | [] => rfl
  | e :: rest =>
    simp only [explicitAll, Expr.framesOfAll, framesIn_explicit _ e, framesOfAll_explicitAll rest]

end

/-- The text is read like the tokens. -/
lemma parse_text_alike (h : Sourced e) (hp : printable e = true) (implied : Bool) :
    Alike (Expr.parse implied e.text) (expression ⟨implied, 0⟩ (tokens e)) := by
  obtain ⟨us, pos, hus, hscan⟩ := scansAs_text h (finite_of_printable e hp) parts_nil 0
  have hbare : us.map Token.bare = (tokens e).map Token.bare := by
    rw [← hus, List.map_map]
    rfl
  rw [List.append_nil, Token.scanFrom, Except.map, List.append_nil] at hscan
  rw [Expr.parse, Token.scan, hscan]
  exact expression_alike implied _ 0 hbare

lemma isOk_of_alike {x y : Except Failure Expr} (h : Alike x y) : x.isOk = y.isOk := by
  cases x <;> cases y <;> first | rfl | exact h.elim

/-- **The text of a tree is accepted just if it nests a hundred levels at most.** -/
theorem isOk_parse_text {source : String} (h : Expr.parse implied source = .ok e)
    (hp : printable e = true) : (Expr.parse implied e.text).isOk = true ↔ nesting e ≤ 100 := by
  have hs := sourced_of_parse h
  rw [isOk_of_alike (parse_text_alike hs hp implied)]
  constructor
  · intro hok
    obtain ⟨e', he'⟩ := exists_of_isOk hok
    exact ((expression_tokens_iff hs hp).mp he').1
  · intro hn
    rw [(expression_tokens_iff hs hp).mpr ⟨hn, rfl⟩]
    rfl

/-- The text is read, and as the tree it is the text of. -/
lemma exists_parse_text (h : Sourced e) (hp : printable e = true) (hn : nesting e ≤ 100)
    (implied : Bool) : ∃ e', Expr.parse implied e.text = .ok e' ∧ e'.bare = printed e := by
  have halike := parse_text_alike h hp implied
  rw [(expression_tokens_iff h hp).mpr ⟨hn, rfl⟩] at halike
  cases he : Expr.parse implied e.text with
  | error f => simp [he, Alike] at halike
  | ok e' =>
    rw [he] at halike
    exact ⟨e', rfl, halike.trans (Expr.bare_bare _)⟩

/-- **The text of a tree is read as the tree**, but for places and for products of neighbours, which
come back as written. So it has the outcomes of the source. -/
theorem parse_text {source : String} (h : Expr.parse implied source = .ok e)
    (hp : printable e = true) (hn : nesting e ≤ 100) :
    ∃ e', Expr.parse implied e.text = .ok e' ∧ e'.bare = (explicit e).bare ∧
      ∀ (lib : Library) (vars : Snapshot),
        lib.calculate implied e.text vars = lib.calculate implied source vars ∧
        lib.calculateOnStack implied e.text vars = lib.calculateOnStack implied source vars := by
  obtain ⟨e', hparse, hbare⟩ := exists_parse_text (sourced_of_parse h) hp hn implied
  have hout : ∀ s : Scope, s.outcome e' = s.outcome e := fun s => by
    rw [← s.outcome_bare, hbare, printed, s.outcome_bare, outcome_explicit]
  have hroom : e'.frames = e.frames := by
    rw [Expr.frames, ← Expr.framesIn_bare, hbare, printed, Expr.framesIn_bare, framesIn_explicit]
    rfl
  refine ⟨e', hparse, hbare, fun lib vars => ?_⟩
  simp only [Library.calculate, Library.calculateOnStack, Compiled.ofSource, h, hparse, Except.map,
    Compiled.outcome, Compiled.outcomeOnStack, hout, hroom, and_self]

/-- Neighbours, a call and a factorial below a sign. -/
theorem parse_text_neighbours :
    ∃ e e', Expr.parse true "2a(x)b^-3!" = .ok e ∧ printable e = true ∧ nesting e ≤ 100 ∧
      e.text = "((2.0 * a(x)) * (b ^ -3.0!))" ∧
      Expr.parse true "((2.0 * a(x)) * (b ^ -3.0!))" = .ok e' ∧ e'.bare = (explicit e).bare ∧
      ∀ (lib : Library) (vars : Snapshot), lib.calculate true "((2.0 * a(x)) * (b ^ -3.0!))" vars =
        lib.calculate true "2a(x)b^-3!" vars := by
  obtain ⟨e, he⟩ := exists_of_isOk (x := Expr.parse true "2a(x)b^-3!") (by decide +kernel)
  have hall : ((Expr.parse true "2a(x)b^-3!").toOption.all fun e => printable e &&
      decide (nesting e ≤ 100) && e.text == "((2.0 * a(x)) * (b ^ -3.0!))") = true := by
    decide +kernel
  simp only [he, Except.toOption, Option.all_some, Bool.and_eq_true, decide_eq_true_eq,
    beq_iff_eq] at hall
  obtain ⟨⟨hp, hn⟩, htext⟩ := hall
  obtain ⟨e', hparse, hbare, hsame⟩ := parse_text he hp hn
  rw [htext] at hparse hsame
  exact ⟨e, e', he, hp, hn, htext, hparse, hbare, fun lib vars => (hsame lib vars).1⟩

end Abacus.Proofs.PrintedText
