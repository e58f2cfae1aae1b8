import Mathlib
import Treewalk.Proofs.Syntax.ParseSteps
import Treewalk.Proofs.Syntax.LexPrinted
/-!
# The parser reads printed words back

For a nesting limit `lim`, `Expr.ReadBack lim e` says that the parser reads any tokens that
spell `e`'s words back as `e`, positions forgotten, at every depth that leaves room for `e`'s
nesting and in front of any token that ends an expression. There is one such predicate for
each kind of syntax, at the level of the parser that reads it: a target at the tightest level
(its `=` follows it), properties and elements one list at a time inside their brackets, a
statement in front of anything but an `else`.

Each constructor has its lemma: if the parts read back, so does the whole. The induction over
the syntax at the end only picks the lemma of each constructor.
-/
open Treewalk.Parser Treewalk.Printer

namespace Treewalk

theorem Token.kind_eq_of_word {t : Token} {w : Word} (h : t.word = w) : t.kind = w.kind :=
  congrArg Word.kind h

theorem Token.lexeme_eq_of_word {t : Token} {w : Word} (h : t.word = w) :
    t.lexeme = w.lexeme :=
  congrArg Word.lexeme h

theorem map_word_delimited {ts : List Token} {o c : TokenKind} {ws more : List Word}
    (h : ts.map Token.word = (punct o :: ws ++ [punct c]) ++ more) :
    ∃ t ts₁ u ts₂, ts = t :: ts₁ ++ u :: ts₂ ∧ t.kind = o ∧ ts₁.map Token.word = ws ∧
      u.kind = c ∧ ts₂.map Token.word = more := by
  simp only [List.cons_append, List.append_assoc] at h
  obtain ⟨t, r, rfl, ht, hr⟩ := List.map_eq_cons_iff.mp h
  obtain ⟨ts₁, r', rfl, h₁, hr'⟩ := List.map_eq_append_iff.mp hr
  obtain ⟨u, ts₂, rfl, hu, h₂⟩ := List.map_eq_cons_iff.mp hr'
  exact ⟨t, ts₁, u, ts₂, rfl, Token.kind_eq_of_word ht, h₁, Token.kind_eq_of_word hu, h₂⟩

theorem map_word_delimited_end {ts : List Token} {o c : TokenKind} {ws : List Word}
    (h : ts.map Token.word = punct o :: ws ++ [punct c]) :
    ∃ t ts₁ u, ts = t :: ts₁ ++ [u] ∧ t.kind = o ∧ ts₁.map Token.word = ws ∧ u.kind = c := by
  obtain ⟨t, ts₁, u, ts₂, rfl, ht, h₁, hu, h₂⟩ :=
    @map_word_delimited ts o c ws [] (by rw [List.append_nil]; exact h)
  rw [List.map_eq_nil_iff] at h₂
  subst h₂
  exact ⟨t, ts₁, u, rfl, ht, h₁, hu⟩

variable (lim : Nat)

/-- The parser reads `e` back from tokens spelling its words. -/
def Expr.ReadBack (e : Expr) : Prop :=
  ∀ (d : Nat) (ts rest : List Token), ts.map Token.word = e.words → d + e.nesting ≤ lim →
    endsExpr (kindAt rest) = true →
      Yields (parseExpression (some lim) d (ts ++ rest)) Expr.erase e.erase rest

def Target.ReadBack (t : Target) : Prop :=
  ∀ (d : Nat) (ts rest : List Token), ts.map Token.word = t.words → d + t.nesting ≤ lim →
    stopsPostfix (kindAt rest) = true →
      Yields (parsePostfix (some lim) d (ts ++ rest)) Expr.erase t.toExpr.erase rest

def Expr.ListReadBack (es : List Expr) : Prop :=
  ∀ (d : Nat) (closer : TokenKind) (T ts rest : List Token) (u : Token)
    (hr : (ts ++ u :: rest).length ≤ T.length) (acc : Array Expr),
    ts.map Token.word = Expr.listWords es → d + Expr.listNesting es ≤ lim → u.kind = closer →
    (closer = .rparen ∨ closer = .rbracket) →
      Yields (parseArgs (some lim) d closer T (ts ++ u :: rest) hr acc) Expr.eraseList
        (Expr.eraseList acc.toList ++ Expr.eraseList es) rest

def Field.ReadBack (f : Field) : Prop :=
  ∀ (d : Nat) (T ts rest : List Token) (u : Token) (bp : Pos)
    (hr : (ts ++ u :: rest).length < T.length) (acc : Array Field),
    ts.map Token.word = f.words → d + f.nesting ≤ lim → (u.kind = .comma ∨ u.kind = .rbrace) →
      ∃ f' h, parseFields (some lim) d T bp (ts ++ u :: rest) hr acc =
        parseFieldsNext (some lim) d T bp (u :: rest) h (acc.push f') ∧ f'.erase = f.erase

def Field.ListReadBack (fs : List Field) : Prop :=
  ∀ (d : Nat) (T ts rest : List Token) (u : Token) (bp : Pos)
    (hr : (ts ++ u :: rest).length < T.length) (acc : Array Field),
    ts.map Token.word = Field.listWords fs → d + Field.listNesting fs ≤ lim → u.kind = .rbrace →
      Yields (parseFields (some lim) d T bp (ts ++ u :: rest) hr acc) Expr.erase
        (.object (Field.eraseList acc.toList ++ Field.eraseList fs) default) rest

variable {lim}

/-! ### Literals and names -/

theorem parseExpression_of_primary {d : Nat} {ts rest : List Token} {a b : Expr}
    {h : rest.length < ts.length} (hd : d + 1 ≤ lim) (hk : kindAt ts ≠ .lbrace)
    (hr : endsExpr (kindAt rest) = true)
    (hp : parsePrimary (some lim) (d + 1) ts = .ok (a, ⟨rest, h⟩)) (hb : a.erase = b) :
    Yields (parseExpression (some lim) d ts) Expr.erase b rest :=
  parseExpression_of_parsePostfix hd hk hr
    ⟨a, h, by rw [parsePostfix_eq hp, postfixTail_stop (endsExpr_stopsPostfix hr)], hb⟩

theorem kindAt_append_of_map_word {ts rest : List Token} {w : Word} {ws : List Word}
    (h : ts.map Token.word = w :: ws) : kindAt (ts ++ rest) = w.kind := by
  obtain ⟨t, ts', rfl, ht, -⟩ := List.map_eq_cons_iff.mp h
  exact Token.kind_eq_of_word ht

theorem Expr.readBack_num {x : Float} (hx : Binary64.isLiteral x = true) (p : Pos) :
    (Expr.num x p).ReadBack lim := by
  intro d ts rest hts hd hr
  obtain ⟨t, rfl, ht⟩ := List.map_eq_singleton_iff.mp hts
  have hk : t.kind = .number := Token.kind_eq_of_word ht
  refine parseExpression_of_primary (by simpa [Expr.nesting] using hd) (by simp [kindAt_cons, hk]) hr
    (parsePrimary_number hk) ?_
  simp [Expr.erase, Token.lexeme_eq_of_word ht, Lexer.ofLexeme_text, Numeral.toFloat_ofLiteral hx]

theorem Expr.readBack_str (s : String) (p : Pos) : (Expr.str s p).ReadBack lim := by
  intro d ts rest hts hd hr
  obtain ⟨t, rfl, ht⟩ := List.map_eq_singleton_iff.mp hts
  have hk : t.kind = .string := Token.kind_eq_of_word ht
  refine parseExpression_of_primary (by simpa [Expr.nesting] using hd) (by simp [kindAt_cons, hk]) hr
    (parsePrimary_string hk) ?_
  simp [Expr.erase, Token.lexeme_eq_of_word ht]

theorem Expr.readBack_ident (x : String) (p : Pos) : (Expr.ident x p).ReadBack lim := by
  intro d ts rest hts hd hr
  obtain ⟨t, rfl, ht⟩ := List.map_eq_singleton_iff.mp hts
  have hk : t.kind = .ident := Token.kind_eq_of_word ht
  refine parseExpression_of_primary (by simpa [Expr.nesting] using hd) (by simp [kindAt_cons, hk]) hr
    (parsePrimary_ident hk) ?_
  simp [Expr.erase, Token.lexeme_eq_of_word ht, name]

/-! ### Operators -/

theorem Expr.readBack_binary {op : BinOp} {l r : Expr} {p : Pos} (hl : l.ReadBack lim)
    (hr : r.ReadBack lim) : (Expr.binary op l r p).ReadBack lim := by
  intro d ts rest hts hd hend
  simp only [Expr.words] at hts
  simp only [Expr.nesting] at hd
  obtain ⟨t, ts₁, u, ts₂, rfl, ht, h₁, hu, h₂⟩ := map_word_delimited hts
  obtain ⟨o, ts₃, rfl, ho, h₃⟩ := List.map_eq_cons_iff.mp h₂
  obtain ⟨t', ts₄, u', rfl, ht', h₄, hu'⟩ := map_word_delimited_end h₃
  have hok : o.kind = op.token := Token.kind_eq_of_word ho
  rw [show (t :: ts₁ ++ u :: o :: (t' :: ts₄ ++ [u'])) ++ rest =
    t :: (ts₁ ++ u :: o :: t' :: (ts₄ ++ u' :: rest)) by simp]
  -- both operands are read in their parentheses, at the level below the operator's
  obtain ⟨a, _, ha, hea⟩ := parsePostfix_paren ht hu
    (by rw [kindAt_cons, hok]; exact token_stopsPostfix op)
    (hl (d + 1) ts₁ (u :: o :: t' :: (ts₄ ++ u' :: rest)) h₁ (by omega)
      (by rw [kindAt_cons, hu]; decide))
  obtain ⟨x, _, hx, hex⟩ := parsePostfix_paren ht' hu' (endsExpr_stopsPostfix hend)
    (hr (d + 1) ts₄ (u' :: rest) h₄ (by omega) (by rw [kindAt_cons, hu']; decide))
  refine parseExpression_of_assignment (by omega) <|
    parseAssignment_of_operand (endsExpr_ne_assign hend) <|
      parseOperand_of_additive (by rw [kindAt_cons, ht]; decide) ⟨.binary op a x o.pos, by simp; omega, ?_, ?_⟩
  · rcases token_level op with ⟨hadd, hmul⟩ | ⟨hadd, hmul⟩
    · have hmx : parseMultiplicative (some lim) (d + 1) (t' :: (ts₄ ++ u' :: rest)) =
          .ok (x, ⟨rest, by simp; omega⟩) := by
        rw [parseMultiplicative_eq hx, multiplicativeTail_stop (endsExpr_multiplicativeOp hend)]
      rw [parseAdditive_eq (by rw [parseMultiplicative_eq ha,
          multiplicativeTail_stop (by rw [kindAt_cons, hok]; exact hmul)]),
        additiveTail_op (by rw [hok]; exact hadd) hmx, additiveTail_stop (endsExpr_additiveOp hend)]
    · rw [parseAdditive_eq (by rw [parseMultiplicative_eq ha,
          multiplicativeTail_op (by rw [hok]; exact hmul) hx,
          multiplicativeTail_stop (endsExpr_multiplicativeOp hend)]),
        additiveTail_stop (endsExpr_additiveOp hend)]
  · simp [Expr.erase, hea, hex]

/-! ### Members, indexes and calls, at the tightest level -/

theorem parsePostfix_member {o : Expr} {x : String} (np p : Pos) (ho : o.ReadBack lim)
    {d : Nat} {ts rest : List Token} (hts : ts.map Token.word = paren o.words ++ [punct .dot, name x])
    (hd : d + o.nesting ≤ lim) (hr : stopsPostfix (kindAt rest) = true) :
    Yields (parsePostfix (some lim) d (ts ++ rest)) Expr.erase (Expr.member o x np p).erase rest := by
  obtain ⟨t, ts₁, u, ts₂, rfl, ht, h₁, hu, h₂⟩ := map_word_delimited hts
  obtain ⟨dt, r, rfl, hdt, hr'⟩ := List.map_eq_cons_iff.mp h₂
  obtain ⟨nt, rfl, hnt⟩ := List.map_eq_singleton_iff.mp hr'
  rw [show (t :: ts₁ ++ u :: [dt, nt]) ++ rest = t :: (ts₁ ++ u :: dt :: nt :: rest) by simp]
  obtain ⟨a, _, ha, hea⟩ := ho d ts₁ (u :: dt :: nt :: rest) h₁ hd (by rw [kindAt_cons, hu]; decide)
  refine ⟨.member a nt.lexeme nt.pos dt.pos, by simp; omega, ?_, ?_⟩
  · rw [parsePostfix_eq (parsePrimary_paren ht ha hu),
      postfixTail_member (Token.kind_eq_of_word hdt) (Token.kind_eq_of_word hnt), postfixTail_stop hr]
  · simp [Expr.erase, hea, Token.lexeme_eq_of_word hnt, name]

theorem parsePostfix_index {o k : Expr} (p : Pos) (ho : o.ReadBack lim) (hk : k.ReadBack lim)
    {d : Nat} {ts rest : List Token}
    (hts : ts.map Token.word = paren o.words ++ punct .lbracket :: k.words ++ [punct .rbracket])
    (hd : d + max o.nesting k.nesting ≤ lim) (hr : stopsPostfix (kindAt rest) = true) :
    Yields (parsePostfix (some lim) d (ts ++ rest)) Expr.erase (Expr.index o k p).erase rest := by
  rw [List.append_assoc] at hts
  obtain ⟨t, ts₁, u, ts₂, rfl, ht, h₁, hu, h₂⟩ := map_word_delimited hts
  obtain ⟨lb, ts₃, rb, rfl, hlb, h₃, hrb⟩ := map_word_delimited_end h₂
  rw [show (t :: ts₁ ++ u :: (lb :: ts₃ ++ [rb])) ++ rest =
    t :: (ts₁ ++ u :: lb :: (ts₃ ++ rb :: rest)) by simp]
  obtain ⟨a, _, ha, hea⟩ := ho d ts₁ (u :: lb :: (ts₃ ++ rb :: rest)) h₁ (by omega)
    (by rw [kindAt_cons, hu]; decide)
  obtain ⟨key, _, hkey, hek⟩ := hk d ts₃ (rb :: rest) h₃ (by omega)
    (by rw [kindAt_cons, hrb]; decide)
  refine ⟨.index a key lb.pos, by simp; omega, ?_, ?_⟩
  · rw [parsePostfix_eq (parsePrimary_paren ht ha hu), postfixTail_index hlb hkey hrb,
      postfixTail_stop hr]
  · simp [Expr.erase, hea, hek]

theorem parsePostfix_call {f : Expr} {as : List Expr} (p : Pos) (hf : f.ReadBack lim)
    (has : Expr.ListReadBack lim as) {d : Nat} {ts rest : List Token}
    (hts : ts.map Token.word = paren f.words ++ punct .lparen :: Expr.listWords as ++ [punct .rparen])
    (hd : d + max f.nesting (Expr.listNesting as) ≤ lim) (hr : stopsPostfix (kindAt rest) = true) :
    Yields (parsePostfix (some lim) d (ts ++ rest)) Expr.erase (Expr.call f as p).erase rest := by
  rw [List.append_assoc] at hts
  obtain ⟨t, ts₁, u, ts₂, rfl, ht, h₁, hu, h₂⟩ := map_word_delimited hts
  obtain ⟨lp, ts₃, rp, rfl, hlp, h₃, hrp⟩ := map_word_delimited_end h₂
  rw [show (t :: ts₁ ++ u :: (lp :: ts₃ ++ [rp])) ++ rest =
    t :: (ts₁ ++ u :: lp :: (ts₃ ++ rp :: rest)) by simp]
  obtain ⟨a, _, ha, hea⟩ := hf d ts₁ (u :: lp :: (ts₃ ++ rp :: rest)) h₁ (by omega)
    (by rw [kindAt_cons, hu]; decide)
  obtain ⟨args, _, hargs, heargs⟩ := has d .rparen (ts₃ ++ rp :: rest) ts₃ rest rp (Nat.le_refl _)
    #[] h₃ (by omega) hrp (.inl rfl)
  refine ⟨.call a args lp.pos, by simp; omega, ?_, ?_⟩
  · rw [parsePostfix_eq (parsePrimary_paren ht ha hu), postfixTail_call hlp hargs,
      postfixTail_stop hr]
  · simp_all [Expr.erase]

theorem Expr.readBack_member {o : Expr} {x : String} {np p : Pos} (ho : o.ReadBack lim) :
    (Expr.member o x np p).ReadBack lim := by
  intro d ts rest hts hd hend
  simp only [Expr.words] at hts
  simp only [Expr.nesting] at hd
  exact parseExpression_of_parsePostfix (by omega)
    (by rw [kindAt_append_of_map_word (hts.trans List.cons_append)]; decide) hend
    (parsePostfix_member np p ho hts (by omega) (endsExpr_stopsPostfix hend))

theorem Expr.readBack_index {o k : Expr} {p : Pos} (ho : o.ReadBack lim) (hk : k.ReadBack lim) :
    (Expr.index o k p).ReadBack lim := by
  intro d ts rest hts hd hend
  simp only [Expr.words] at hts
  simp only [Expr.nesting] at hd
  exact parseExpression_of_parsePostfix (by omega)
    (by rw [kindAt_append_of_map_word (hts.trans List.cons_append)]; decide) hend
    (parsePostfix_index p ho hk hts (by omega) (endsExpr_stopsPostfix hend))

theorem Expr.readBack_call {f : Expr} {as : List Expr} {p : Pos} (hf : f.ReadBack lim)
    (has : Expr.ListReadBack lim as) : (Expr.call f as p).ReadBack lim := by
  intro d ts rest hts hd hend
  simp only [Expr.words] at hts
  simp only [Expr.nesting] at hd
  exact parseExpression_of_parsePostfix (by omega)
    (by rw [kindAt_append_of_map_word (hts.trans List.cons_append)]; decide) hend
    (parsePostfix_call p hf has hts (by omega) (endsExpr_stopsPostfix hend))

/-! ### Array and object literals -/

theorem Expr.readBack_array {es : List Expr} {p : Pos} (hes : Expr.ListReadBack lim es) :
    (Expr.array es p).ReadBack lim := by
  intro d ts rest hts hd hend
  simp only [Expr.words] at hts
  simp only [Expr.nesting] at hd
  obtain ⟨t, ts₁, u, rfl, ht, h₁, hu⟩ := map_word_delimited_end hts
  rw [show (t :: ts₁ ++ [u]) ++ rest = t :: (ts₁ ++ u :: rest) by simp]
  obtain ⟨elems, _, helems, hee⟩ := hes (d + 1) .rbracket (ts₁ ++ u :: rest) ts₁ rest u
    (Nat.le_refl _) #[] h₁ (by omega) hu (.inr rfl)
  exact parseExpression_of_primary (by omega) (by rw [kindAt_cons, ht]; decide) hend
    (parsePrimary_array ht helems) (by simp_all [Expr.erase])

theorem Expr.readBack_object {fs : List Field} {p : Pos} (hfs : Field.ListReadBack lim fs) :
    (Expr.object fs p).ReadBack lim := by
  intro d ts rest hts hd hend
  simp only [Expr.words, braced] at hts
  simp only [Expr.nesting] at hd
  obtain ⟨t, ts₁, u, rfl, ht, h₁, hu⟩ := map_word_delimited_end hts
  rw [show (t :: ts₁ ++ [u]) ++ rest = t :: (ts₁ ++ u :: rest) by simp]
  refine parseExpression_of_assignment (by omega) <|
    parseAssignment_of_operand (endsExpr_ne_assign hend) ?_
  rw [parseOperand_brace ht]
  simpa [Expr.erase] using hfs (d + 1) _ ts₁ rest u t.pos (by simp) #[] h₁ (by omega) hu


/-! ### Assignments -/

theorem Target.words_cons (t : Target) :
    ∃ w ws, t.words = w :: ws ∧ (w.kind = .ident ∨ w.kind = .lparen) := by
  cases t <;> simp [Target.words, paren, name, punct]

theorem Expr.toTarget?_of_erase {a : Expr} {t : Target} (h : a.erase = t.toExpr.erase) :
    ∃ t', a.toTarget? = some t' ∧ t'.erase = t.erase := by
  cases t <;> cases a <;> simp_all [Target.toExpr, Expr.erase, Target.erase, Expr.toTarget?]

theorem Expr.readBack_assign {t : Target} {v : Expr} (ht : t.ReadBack lim) (hv : v.ReadBack lim) :
    (Expr.assign t v).ReadBack lim := by
  intro d ts rest hts hd hend
  simp only [Expr.words] at hts
  simp only [Expr.nesting] at hd
  obtain ⟨ts₁, ts₂, rfl, h₁, h₂⟩ := List.map_eq_append_iff.mp hts
  obtain ⟨eq, ts₃, rfl, heq, h₃⟩ := List.map_eq_cons_iff.mp h₂
  obtain ⟨lp, ts₄, rp, rfl, hlp, h₄, hrp⟩ := map_word_delimited_end h₃
  rw [show ts₁ ++ eq :: (lp :: ts₄ ++ [rp]) ++ rest = ts₁ ++ eq :: lp :: (ts₄ ++ rp :: rest) by
    simp]
  have hek : eq.kind = .assign := Token.kind_eq_of_word heq
  obtain ⟨w, ws, hw, hwk⟩ := t.words_cons
  obtain ⟨lhs, _, hlhs, hel⟩ :=
    parseOperand_of_additive (by
        rw [kindAt_append_of_map_word (h₁.trans hw)]; rcases hwk with hwk | hwk <;> simp [hwk]) <|
      parseAdditive_of_multiplicative (by rw [kindAt_cons, hek]; rfl) <|
        parseMultiplicative_of_parsePostfix (by rw [kindAt_cons, hek]; rfl) <|
          ht (d + 1) ts₁ (eq :: lp :: (ts₄ ++ rp :: rest)) h₁ (by omega)
            (by rw [kindAt_cons, hek]; rfl)
  obtain ⟨tgt, htgt, hetgt⟩ := Expr.toTarget?_of_erase hel
  obtain ⟨val, _, hval, heval⟩ := parseExpression_paren (by omega) hlp hrp hend
    (hv (d + 1 + 1) ts₄ (rp :: rest) h₄ (by omega) (by rw [kindAt_cons, hrp]; decide))
  refine parseExpression_of_assignment (by omega)
    ⟨.assign tgt val, by simp; omega, parseAssignment_assign hlhs hek htgt hval, ?_⟩
  simp [Expr.erase, hetgt, heval]

/-! ### Targets -/

theorem Target.readBack_var (x : String) (p : Pos) : (Target.var x p).ReadBack lim := by
  intro d ts rest hts hd hr
  simp only [Target.words] at hts
  obtain ⟨t, rfl, ht⟩ := List.map_eq_singleton_iff.mp hts
  refine ⟨.ident t.lexeme t.pos, by simp, ?_, ?_⟩
  · show parsePostfix (some lim) d (t :: rest) = _
    rw [parsePostfix_eq (parsePrimary_ident (Token.kind_eq_of_word ht)), postfixTail_stop hr]
  · simp [Target.toExpr, Expr.erase, Token.lexeme_eq_of_word ht, name]

theorem Target.readBack_member {o : Expr} {x : String} {np p : Pos} (ho : o.ReadBack lim) :
    (Target.member o x np p).ReadBack lim := by
  intro d ts rest hts hd hr
  simp only [Target.words] at hts
  exact parsePostfix_member np p ho hts hd hr

theorem Target.readBack_index {o k : Expr} {p : Pos} (ho : o.ReadBack lim)
    (hk : k.ReadBack lim) : (Target.index o k p).ReadBack lim := by
  intro d ts rest hts hd hr
  simp only [Target.words] at hts
  exact parsePostfix_index p ho hk hts hd hr

/-! ### Properties, elements and arguments -/

theorem Field.readBack_keyed {k : String} {p : Pos} {v : Expr} (hv : v.ReadBack lim) :
    (Field.keyed k p v).ReadBack lim := by
  intro d T ts rest u bp hr acc hts hd hu
  simp only [Field.words] at hts
  simp only [Field.nesting] at hd
  obtain ⟨kt, r, rfl, hkt, hr'⟩ := List.map_eq_cons_iff.mp hts
  obtain ⟨ct, ts₁, rfl, hct, h₁⟩ := List.map_eq_cons_iff.mp hr'
  obtain ⟨val, _, hval, heval⟩ := hv d ts₁ (u :: rest) h₁ hd
    (by rcases hu with hu | hu <;> rw [kindAt_cons, hu] <;> decide)
  exact ⟨.keyed kt.lexeme kt.pos val, _,
    parseFields_keyed (Token.kind_eq_of_word hkt) (Token.kind_eq_of_word hct) hval,
    by simp [Field.erase, heval, Token.lexeme_eq_of_word hkt]⟩

theorem Field.readBack_shorthand (k : String) (p : Pos) : (Field.shorthand k p).ReadBack lim := by
  intro d T ts rest u bp hr acc hts hd hu
  simp only [Field.words] at hts
  obtain ⟨t, rfl, ht⟩ := List.map_eq_singleton_iff.mp hts
  exact ⟨.shorthand t.lexeme t.pos, _,
    parseFields_shorthand (r := u :: rest) (Token.kind_eq_of_word ht)
      (by rcases hu with hu | hu <;> rw [kindAt_cons, hu] <;> decide),
    by simp [Field.erase, Token.lexeme_eq_of_word ht, name]⟩

theorem Field.listReadBack_nil : Field.ListReadBack lim [] := by
  intro d T ts rest u bp hr acc hts hd hu
  rw [Field.listWords, List.map_eq_nil_iff] at hts
  subst hts
  exact ⟨_, _, parseFields_close hu, by simp [Expr.erase]⟩

theorem Field.listReadBack_single {f : Field} (hf : f.ReadBack lim) :
    Field.ListReadBack lim [f] := by
  intro d T ts rest u bp hr acc hts hd hu
  simp only [Field.listWords] at hts
  simp only [Field.listNesting] at hd
  obtain ⟨f', h, hstep, hef⟩ := hf d T ts rest u bp hr acc hts (by omega) (.inr hu)
  rw [hstep]
  exact ⟨_, _, parseFieldsNext_close hu, by simp [Expr.erase, hef]⟩

theorem Field.listReadBack_cons {f f' : Field} {fs : List Field} (hf : f.ReadBack lim)
    (hfs : Field.ListReadBack lim (f' :: fs)) : Field.ListReadBack lim (f :: f' :: fs) := by
  intro d T ts rest u bp hr acc hts hd hu
  simp only [Field.listWords] at hts
  rw [Field.listNesting] at hd
  obtain ⟨ts₁, ts₂, rfl, h₁, h₂⟩ := List.map_eq_append_iff.mp hts
  obtain ⟨ct, ts₃, rfl, hct, h₃⟩ := List.map_eq_cons_iff.mp h₂
  revert hr
  rw [show (ts₁ ++ ct :: ts₃) ++ u :: rest = ts₁ ++ ct :: (ts₃ ++ u :: rest) by simp]
  intro hr
  obtain ⟨g, h, hstep, heg⟩ :=
    hf d T ts₁ (ts₃ ++ u :: rest) ct bp hr acc h₁ (by omega) (.inl (Token.kind_eq_of_word hct))
  rw [hstep, parseFieldsNext_comma (Token.kind_eq_of_word hct)]
  exact (hfs d T ts₃ rest u bp _ (acc.push g) h₃ (by omega) hu).image_eq (by simp [heg])

theorem Expr.listReadBack_nil : Expr.ListReadBack lim [] := by
  intro d closer T ts rest u hr acc hts hd hu hc
  rw [Expr.listWords, List.map_eq_nil_iff] at hts
  subst hts
  exact ⟨_, _, parseArgs_close hu, by simp⟩

theorem endsExpr_closer {closer : TokenKind} {u : Token} {rest : List Token}
    (hu : u.kind = closer) (hc : closer = .rparen ∨ closer = .rbracket) :
    endsExpr (kindAt (u :: rest)) = true := by
  rcases hc with rfl | rfl <;> rw [kindAt_cons, hu] <;> decide

theorem Expr.listReadBack_single {e : Expr} (he : e.ReadBack lim) : Expr.ListReadBack lim [e] := by
  intro d closer T ts rest u hr acc hts hd hu hc
  simp only [Expr.listWords] at hts
  simp only [Expr.listNesting] at hd
  obtain ⟨lp, ts₁, rp, rfl, hlp, h₁, hrp⟩ := map_word_delimited_end hts
  revert hr
  rw [show (lp :: ts₁ ++ [rp]) ++ u :: rest = lp :: (ts₁ ++ rp :: u :: rest) by simp]
  intro hr
  obtain ⟨a, _, ha, hea⟩ := parseExpression_paren (by omega) hlp hrp (endsExpr_closer hu hc)
    (he (d + 1) ts₁ (rp :: u :: rest) h₁ (by omega) (by rw [kindAt_cons, hrp]; decide))
  refine ⟨_, _, parseArgs_last (by rw [kindAt_cons, hlp]; rcases hc with rfl | rfl <;> decide) ha hu
    (by rcases hc with rfl | rfl <;> decide), by simp [hea]⟩

theorem Expr.listReadBack_cons {e e' : Expr} {es : List Expr} (he : e.ReadBack lim)
    (hes : Expr.ListReadBack lim (e' :: es)) : Expr.ListReadBack lim (e :: e' :: es) := by
  intro d closer T ts rest u hr acc hts hd hu hc
  simp only [Expr.listWords] at hts
  rw [Expr.listNesting] at hd
  obtain ⟨lp, ts₁, rp, ts₂, rfl, hlp, h₁, hrp, h₂⟩ := map_word_delimited hts
  obtain ⟨ct, ts₃, rfl, hct, h₃⟩ := List.map_eq_cons_iff.mp h₂
  have hck : ct.kind = .comma := Token.kind_eq_of_word hct
  revert hr
  rw [show (lp :: ts₁ ++ rp :: ct :: ts₃) ++ u :: rest =
    lp :: (ts₁ ++ rp :: ct :: (ts₃ ++ u :: rest)) by simp]
  intro hr
  obtain ⟨a, _, ha, hea⟩ := parseExpression_paren (by omega) hlp hrp
    (by rw [kindAt_cons, hck]; decide)
    (he (d + 1) ts₁ (rp :: ct :: (ts₃ ++ u :: rest)) h₁ (by omega)
      (by rw [kindAt_cons, hrp]; decide))
  rw [parseArgs_comma (by rw [kindAt_cons, hlp]; rcases hc with rfl | rfl <;> decide) ha hck]
  exact (hes d closer T ts₃ rest u _ (acc.push a) h₃ (by omega) hu hc).image_eq (by simp [hea])

/-! ### Every well-formed expression reads back -/

-- The induction follows the syntax: each constructor hands its parts to its lemma above, and
-- well-formedness, which only the literals need, is split along the way.
mutual

theorem Expr.readBack : (e : Expr) → e.wellFormed = true → e.ReadBack lim
  | .num _ p, h => Expr.readBack_num h p
  | .str s p, _ => Expr.readBack_str s p
  | .ident x p, _ => Expr.readBack_ident x p
  | .binary _ l r _, h => by
    simp only [Expr.wellFormed, Bool.and_eq_true] at h
    exact Expr.readBack_binary (Expr.readBack l h.1) (Expr.readBack r h.2)
  | .assign t v, h => by
    simp only [Expr.wellFormed, Bool.and_eq_true] at h
    exact Expr.readBack_assign (Target.readBack t h.1) (Expr.readBack v h.2)
  | .array es _, h => Expr.readBack_array (Expr.listReadBack es h)
  | .object fs _, h => Expr.readBack_object (Field.listReadBack fs h)
  | .member o _ _ _, h => by
    simp only [Expr.wellFormed, Bool.and_eq_true] at h
    exact Expr.readBack_member (Expr.readBack o h.1)
  | .index o k _, h => by
    simp only [Expr.wellFormed, Bool.and_eq_true] at h
    exact Expr.readBack_index (Expr.readBack o h.1) (Expr.readBack k h.2)
  | .call f as _, h => by
    simp only [Expr.wellFormed, Bool.and_eq_true] at h
    exact Expr.readBack_call (Expr.readBack f h.1) (Expr.listReadBack as h.2)

theorem Target.readBack : (t : Target) → t.wellFormed = true → t.ReadBack lim
  | .var x p, _ => Target.readBack_var x p
  | .member o _ _ _, h => by
    simp only [Target.wellFormed, Bool.and_eq_true] at h
    exact Target.readBack_member (Expr.readBack o h.1)
  | .index o k _, h => by
    simp only [Target.wellFormed, Bool.and_eq_true] at h
    exact Target.readBack_index (Expr.readBack o h.1) (Expr.readBack k h.2)

theorem Field.readBack : (f : Field) → f.wellFormed = true → f.ReadBack lim
  | .keyed _ _ v, h => Field.readBack_keyed (Expr.readBack v h)
  | .shorthand k p, _ => Field.readBack_shorthand k p

theorem Expr.listReadBack : (es : List Expr) → Expr.allWellFormed es = true →
    Expr.ListReadBack lim es
  | [], _ => Expr.listReadBack_nil
  | [e], h => by
    simp only [Expr.allWellFormed, Bool.and_eq_true] at h
    exact Expr.listReadBack_single (Expr.readBack e h.1)
  | e :: e' :: es, h => by
    simp only [Expr.allWellFormed, Bool.and_eq_true] at h
    exact Expr.listReadBack_cons (Expr.readBack e h.1)
      (Expr.listReadBack (e' :: es) (by simpa [Expr.allWellFormed] using h.2))

theorem Field.listReadBack : (fs : List Field) → Field.allWellFormed fs = true →
    Field.ListReadBack lim fs
  | [], _ => Field.listReadBack_nil
  | [f], h => by
    simp only [Field.allWellFormed, Bool.and_eq_true] at h
    exact Field.listReadBack_single (Field.readBack f h.1)
  | f :: f' :: fs, h => by
    simp only [Field.allWellFormed, Bool.and_eq_true] at h
    exact Field.listReadBack_cons (Field.readBack f h.1)
      (Field.listReadBack (f' :: fs) (by simpa [Field.allWellFormed] using h.2))

end

end Treewalk
