import Mathlib
import Treewalk.Proofs.Syntax.ReadBack
/-!
# Reading printed statements and programs back

`Stmt.ReadBack lim s` says that `parseStatement` reads any tokens spelling `s`'s words back as
`s`, positions forgotten, at every depth that leaves room for `s`'s nesting, in front of any
token but `else` (which would extend an `if` printed without one). The lists of a block are
read by `parseBlockBody` up to the closing brace, a program by `parseProgramFrom` up to the end
of input.

Put together with the lexer reading the printed text back as the printed words
(`Lexer.tokenize_render`), this gives the round trip: every well-formed program that nests no
deeper than `maxNesting` is parsed from its printed text back to itself.
-/
open Treewalk.Parser Treewalk.Printer

namespace Treewalk

/-- Whether a statement may begin with a token of kind `k`: it closes no block, is no stray
`;`, continues no `if` and is not the end of input. -/
def startsStmt (k : TokenKind) : Bool :=
  k != .rbrace && k != .semicolon && k != .eof && k != .keyword .elseKw

def startsExpr (k : TokenKind) : Bool :=
  k == .number || k == .string || k == .ident || k == .lparen || k == .lbracket || k == .lbrace

theorem startsStmt_of_startsExpr {k : TokenKind} (h : startsExpr k = true) :
    startsStmt k = true ∧ ∀ kw, k ≠ .keyword kw := by
  cases k <;> simp_all [startsExpr, startsStmt]

theorem Expr.words_cons (e : Expr) : ∃ w ws, e.words = w :: ws ∧ startsExpr w.kind = true := by
  cases e with
  | assign t v =>
    obtain ⟨w, ws, hw, hk⟩ := t.words_cons
    refine ⟨w, ws ++ punct .assign :: paren v.words, by simp [Expr.words, hw], ?_⟩
    rcases hk with hk | hk <;> simp [startsExpr, hk]
  | _ => simp [Expr.words, paren, braced, name, punct, startsExpr]

theorem Stmt.words_cons (s : Stmt) : ∃ w ws, s.words = w :: ws ∧ startsStmt w.kind = true := by
  cases s with
  | expr e =>
    obtain ⟨w, ws, hw, hk⟩ := e.words_cons
    exact ⟨w, ws ++ [punct .semicolon], by simp [Stmt.words, hw], (startsStmt_of_startsExpr hk).1⟩
  | letDecl x init p => cases init <;> simp [Stmt.words, kw, startsStmt]
  | ret result p => cases result <;> simp [Stmt.words, kw, startsStmt]
  | ifElse c t b p => cases b <;> simp [Stmt.words, kw, startsStmt]
  | _ => simp [Stmt.words, kw, startsStmt]

theorem startsStmt_kindAt_listWords {s : Stmt} {ss : List Stmt} {ts rest : List Token}
    (hts : ts.map Token.word = Stmt.listWords (s :: ss)) : startsStmt (kindAt (ts ++ rest)) = true := by
  obtain ⟨w, ws, hw, hk⟩ := s.words_cons
  rw [Stmt.listWords, hw, List.cons_append] at hts
  rw [kindAt_append_of_map_word hts]
  exact hk

theorem ne_else_of_startsStmt {k : TokenKind} (h : startsStmt k = true) :
    k ≠ .keyword .elseKw := by
  simp only [startsStmt, Bool.and_eq_true, bne_iff_ne] at h
  exact h.2

theorem kindAt_listWords_ne_else {ss : List Stmt} {ts rest : List Token}
    (hts : ts.map Token.word = Stmt.listWords ss) (hr : kindAt rest ≠ .keyword .elseKw) :
    kindAt (ts ++ rest) ≠ .keyword .elseKw := by
  cases ss with
  | nil =>
    rw [Stmt.listWords, List.map_eq_nil_iff] at hts
    simpa [hts] using hr
  | cons s ss => exact ne_else_of_startsStmt (startsStmt_kindAt_listWords hts)

theorem map_word_cons₃ {ts : List Token} {w₁ w₂ w₃ : Word} {more : List Word}
    (h : ts.map Token.word = [w₁, w₂, w₃] ++ more) :
    ∃ t₁ t₂ t₃ ts', ts = t₁ :: t₂ :: t₃ :: ts' ∧ t₁.word = w₁ ∧ t₂.word = w₂ ∧ t₃.word = w₃ ∧
      ts'.map Token.word = more := by
  obtain ⟨t₁, r₁, rfl, h₁, hr₁⟩ := List.map_eq_cons_iff.mp h
  obtain ⟨t₂, r₂, rfl, h₂, hr₂⟩ := List.map_eq_cons_iff.mp hr₁
  obtain ⟨t₃, r₃, rfl, h₃, hr₃⟩ := List.map_eq_cons_iff.mp hr₂
  exact ⟨t₁, t₂, t₃, r₃, rfl, h₁, h₂, h₃, hr₃⟩

variable (lim : Nat)

/-- The parser reads the statement `s` back from tokens spelling its words. -/
def Stmt.ReadBack (s : Stmt) : Prop :=
  ∀ (d : Nat) (ts rest : List Token), ts.map Token.word = s.words → d + s.nesting ≤ lim →
    kindAt rest ≠ .keyword .elseKw →
      Yields (parseStatement (some lim) d (ts ++ rest)) Stmt.erase s.erase rest

def Stmt.ListReadBack (ss : List Stmt) : Prop :=
  ∀ (d : Nat) (T ts rest : List Token) (u : Token) (hr : (ts ++ u :: rest).length < T.length)
    (acc : Array Stmt),
    ts.map Token.word = Stmt.listWords ss → d + Stmt.listNesting ss ≤ lim → u.kind = .rbrace →
      Yields (parseBlockBody (some lim) d T (ts ++ u :: rest) hr acc) Stmt.eraseList
        (Stmt.eraseList acc.toList ++ Stmt.eraseList ss) rest

variable {lim}

/-! ### The parts of statements -/

variable (lim) in
theorem parseExpression_paren_words {e : Expr} {d : Nat} {ts : List Token} (rest : List Token)
    (he : e.ReadBack lim) (hts : ts.map Token.word = paren e.words) (hd : d + 1 + e.nesting ≤ lim)
    (hr : endsExpr (kindAt rest) = true) :
    Yields (parseExpression (some lim) d (ts ++ rest)) Expr.erase e.erase rest := by
  obtain ⟨lp, ts₁, rp, rfl, hlp, h₁, hrp⟩ := map_word_delimited_end hts
  rw [show (lp :: ts₁ ++ [rp]) ++ rest = lp :: (ts₁ ++ rp :: rest) by simp]
  exact parseExpression_paren (by omega) hlp hrp hr
    (he (d + 1) ts₁ (rp :: rest) h₁ hd (by rw [kindAt_cons, hrp]; decide))

theorem kindAt_braced {ss : List Stmt} {ts rest : List Token}
    (hts : ts.map Token.word = braced (Stmt.listWords ss)) : kindAt (ts ++ rest) = .lbrace :=
  kindAt_append_of_map_word (hts.trans List.cons_append)

theorem parseBlock_words {ss : List Stmt} (hss : Stmt.ListReadBack lim ss) {d : Nat}
    {ts : List Token} (rest : List Token) (hts : ts.map Token.word = braced (Stmt.listWords ss))
    (hd : d + 1 + Stmt.listNesting ss ≤ lim) :
    Yields (parseBlock (some lim) d (ts ++ rest)) Stmt.eraseList (Stmt.eraseList ss) rest := by
  obtain ⟨lb, ts₁, rb, rfl, hlb, h₁, hrb⟩ := map_word_delimited_end hts
  rw [show (lb :: ts₁ ++ [rb]) ++ rest = lb :: (ts₁ ++ rb :: rest) by simp,
    parseBlock_eq hlb (by omega)]
  exact (hss (d + 1) _ ts₁ rest rb _ #[] h₁ (by omega) hrb).image_eq (by simp)

theorem parseParams_names (rest : List Token) (acc : Array String) {ps : List String}
    {ts : List Token} {u : Token} (hts : ts.map Token.word = names ps) (hu : u.kind = .rparen) :
    ∃ h, parseParams (ts ++ u :: rest) acc = .ok (acc.toList ++ ps, ⟨u :: rest, h⟩) := by
  match ps, ts, hts with
  | [], ts, hts =>
    rw [names, List.map_eq_nil_iff] at hts
    subst hts
    exact ⟨_, by simpa using @parseParams_close (u :: rest) acc (by rw [kindAt_cons, hu])⟩
  | [x], ts, hts =>
    obtain ⟨t, rfl, ht⟩ := List.map_eq_singleton_iff.mp hts
    exact ⟨_, by simpa [Token.lexeme_eq_of_word ht, name] using
      @parseParams_last t u rest acc (Token.kind_eq_of_word ht) hu⟩
  | x :: y :: xs, ts, hts =>
    obtain ⟨t, r₁, rfl, ht, h₁⟩ := List.map_eq_cons_iff.mp hts
    obtain ⟨c, r₂, rfl, hc, h₂⟩ := List.map_eq_cons_iff.mp h₁
    obtain ⟨h, hps⟩ := parseParams_names rest (acc.push t.lexeme) h₂ hu
    exact ⟨_, by simpa [Token.lexeme_eq_of_word ht, name] using
      parseParams_comma (Token.kind_eq_of_word ht) (Token.kind_eq_of_word hc) hps⟩

/-! ### Statements -/

theorem Stmt.readBack_expr {e : Expr} (he : e.ReadBack lim) : (Stmt.expr e).ReadBack lim := by
  intro d ts rest hts hd _
  simp only [Stmt.words] at hts
  simp only [Stmt.nesting] at hd
  obtain ⟨ts₁, ts₂, rfl, h₁, h₂⟩ := List.map_eq_append_iff.mp hts
  obtain ⟨st, rfl, hst⟩ := List.map_eq_singleton_iff.mp h₂
  have hsk : st.kind = .semicolon := Token.kind_eq_of_word hst
  rw [show ts₁ ++ [st] ++ rest = ts₁ ++ st :: rest by simp]
  obtain ⟨w, ws, hw, hwk⟩ := e.words_cons
  have hk : kindAt (ts₁ ++ st :: rest) = w.kind := kindAt_append_of_map_word (h₁.trans hw)
  obtain ⟨a, _, ha, hea⟩ := he d ts₁ (st :: rest) h₁ hd (by rw [kindAt_cons, hsk]; decide)
  rw [parseStatement_expr (by rw [hk]; exact (startsStmt_of_startsExpr hwk).2)]
  exact ⟨.expr a, _, parseExprStmt_semicolon ha hsk, by simp [Stmt.erase, hea]⟩

theorem Stmt.readBack_letNone {x : String} {p : Pos} : (Stmt.letDecl x none p).ReadBack lim := by
  intro d ts rest hts _ _
  simp only [Stmt.words] at hts
  obtain ⟨lt, nt, st, ts', rfl, hlt, hnt, hst, h'⟩ := @map_word_cons₃ ts _ _ _ [] (hts.trans (List.append_nil _).symm)
  rw [List.map_eq_nil_iff] at h'
  subst h'
  have hnk : nt.kind = .ident := Token.kind_eq_of_word hnt
  show Yields (parseStatement (some lim) d (lt :: nt :: st :: rest)) _ _ _
  rw [parseStatement_let (Token.kind_eq_of_word hlt) (by rw [hnk]; decide)]
  exact ⟨_, _, parseVarTail_none hnk (Token.kind_eq_of_word hst),
    by simp [Stmt.erase, Token.lexeme_eq_of_word hnt, name]⟩

theorem parseVarTail_words (isConst : Bool) {x : String} {e : Expr} {d : Nat} {start : Pos}
    {T ts rest : List Token} {nt at' : Token} (he : e.ReadBack lim)
    (hts : ts.map Token.word = e.words ++ [punct .semicolon]) (hnt : nt.word = name x)
    (hat : at'.kind = .assign) (hd : d + e.nesting ≤ lim)
    (hr : (nt :: at' :: (ts ++ rest)).length < T.length) :
    Yields (parseVarTail (some lim) d T start isConst (nt :: at' :: (ts ++ rest)) hr) Stmt.erase
      (if isConst then .constDecl x e.erase default else .letDecl x (some e.erase) default) rest := by
  obtain ⟨ts₁, ts₂, rfl, h₁, h₂⟩ := List.map_eq_append_iff.mp hts
  obtain ⟨st, rfl, hst⟩ := List.map_eq_singleton_iff.mp h₂
  have hsk : st.kind = .semicolon := Token.kind_eq_of_word hst
  revert hr
  rw [show ts₁ ++ [st] ++ rest = ts₁ ++ st :: rest by simp]
  intro hr
  obtain ⟨a, _, ha, hea⟩ := he d ts₁ (st :: rest) h₁ hd (by rw [kindAt_cons, hsk]; decide)
  refine ⟨_, _, parseVarTail_some (Token.kind_eq_of_word hnt) hat ha hsk, ?_⟩
  cases isConst <;> simp [Stmt.erase, hea, Token.lexeme_eq_of_word hnt, name]

theorem Stmt.readBack_letSome {x : String} {e : Expr} {p : Pos} (he : e.ReadBack lim) :
    (Stmt.letDecl x (some e) p).ReadBack lim := by
  intro d ts rest hts hd _
  simp only [Stmt.words, List.append_assoc] at hts
  simp only [Stmt.nesting] at hd
  obtain ⟨lt, nt, at', ts', rfl, hlt, hnt, hat, h'⟩ := map_word_cons₃ hts
  show Yields (parseStatement (some lim) d (lt :: nt :: at' :: (ts' ++ rest))) _ _ _
  rw [parseStatement_let (Token.kind_eq_of_word hlt) (by rw [Token.kind_eq_of_word hnt]; simp [name])]
  simpa [Stmt.erase] using
    parseVarTail_words false he h' hnt (Token.kind_eq_of_word hat) hd _

theorem Stmt.readBack_const {x : String} {e : Expr} {p : Pos} (he : e.ReadBack lim) :
    (Stmt.constDecl x e p).ReadBack lim := by
  intro d ts rest hts hd _
  simp only [Stmt.words, List.append_assoc] at hts
  simp only [Stmt.nesting] at hd
  obtain ⟨ct, nt, at', ts', rfl, hct, hnt, hat, h'⟩ := map_word_cons₃ hts
  show Yields (parseStatement (some lim) d (ct :: nt :: at' :: (ts' ++ rest))) _ _ _
  rw [parseStatement_const (Token.kind_eq_of_word hct)]
  simpa [Stmt.erase] using
    parseVarTail_words true he h' hnt (Token.kind_eq_of_word hat) hd _

theorem Stmt.readBack_retNone {p : Pos} : (Stmt.ret none p).ReadBack lim := by
  intro d ts rest hts _ _
  simp only [Stmt.words] at hts
  obtain ⟨rt, r, rfl, hrt, h'⟩ := List.map_eq_cons_iff.mp hts
  obtain ⟨st, rfl, hst⟩ := List.map_eq_singleton_iff.mp h'
  show Yields (parseStatement (some lim) d (rt :: st :: rest)) _ _ _
  rw [parseStatement_ret (Token.kind_eq_of_word hrt)]
  exact ⟨_, _, parseRet_none (Token.kind_eq_of_word hst), by simp [Stmt.erase]⟩

theorem Stmt.readBack_retSome {e : Expr} {p : Pos} (he : e.ReadBack lim) :
    (Stmt.ret (some e) p).ReadBack lim := by
  intro d ts rest hts hd _
  simp only [Stmt.words, List.cons_append] at hts
  simp only [Stmt.nesting] at hd
  obtain ⟨rt, r, rfl, hrt, h'⟩ := List.map_eq_cons_iff.mp hts
  obtain ⟨ts₁, ts₂, rfl, h₁, h₂⟩ := List.map_eq_append_iff.mp h'
  obtain ⟨st, rfl, hst⟩ := List.map_eq_singleton_iff.mp h₂
  have hsk : st.kind = .semicolon := Token.kind_eq_of_word hst
  rw [show (rt :: (ts₁ ++ [st])) ++ rest = rt :: (ts₁ ++ st :: rest) by simp,
    parseStatement_ret (Token.kind_eq_of_word hrt)]
  obtain ⟨w, ws, hw, hwk⟩ := e.words_cons
  obtain ⟨a, _, ha, hea⟩ := he d ts₁ (st :: rest) h₁ hd (by rw [kindAt_cons, hsk]; decide)
  have hk : kindAt (ts₁ ++ st :: rest) ≠ .semicolon := by
    rw [kindAt_append_of_map_word (h₁.trans hw)]
    have := (startsStmt_of_startsExpr hwk).1
    simp only [startsStmt, Bool.and_eq_true, bne_iff_ne] at this
    exact this.1.1.2
  exact ⟨_, _, parseRet_some hk ha hsk, by simp [Stmt.erase, hea]⟩

theorem Stmt.readBack_func {f : String} {ps : List String} {body : List Stmt} {p : Pos}
    (hbody : Stmt.ListReadBack lim body) : (Stmt.funcDecl f ps body p).ReadBack lim := by
  intro d ts rest hts hd _
  simp only [Stmt.words, List.append_assoc] at hts
  simp only [Stmt.nesting] at hd
  obtain ⟨ft, nt, lp, ts', rfl, hft, hnt, hlp, h'⟩ := map_word_cons₃ hts
  obtain ⟨ts₁, ts₂, rfl, h₁, h₂⟩ := List.map_eq_append_iff.mp h'
  obtain ⟨rp, ts₃, rfl, hrp, h₃⟩ := List.map_eq_cons_iff.mp h₂
  have hrk : rp.kind = .rparen := Token.kind_eq_of_word hrp
  rw [show (ft :: nt :: lp :: (ts₁ ++ rp :: ts₃)) ++ rest =
    ft :: nt :: lp :: (ts₁ ++ rp :: (ts₃ ++ rest)) by simp,
    parseStatement_func (Token.kind_eq_of_word hft)]
  obtain ⟨_, hps⟩ := parseParams_names (ts₃ ++ rest) #[] h₁ hrk
  obtain ⟨b, _, hb, heb⟩ := parseBlock_words (d := d) hbody rest h₃ (by omega)
  exact ⟨_, _, parseFunc_eq (Token.kind_eq_of_word hnt) (Token.kind_eq_of_word hlp) hps hrk hb,
    by simp_all [Stmt.erase, Token.lexeme_eq_of_word hnt, name]⟩

theorem Stmt.readBack_if {c : Expr} {t : List Stmt} {p : Pos} (hc : c.ReadBack lim)
    (ht : Stmt.ListReadBack lim t) : (Stmt.ifElse c t none p).ReadBack lim := by
  intro d ts rest hts hd hel
  simp only [Stmt.words] at hts
  simp only [Stmt.nesting] at hd
  obtain ⟨ts₁, ts₂, rfl, h₁, h₂⟩ := List.map_eq_append_iff.mp hts
  obtain ⟨it, ts₃, rfl, hit, h₃⟩ := List.map_eq_cons_iff.mp h₁
  rw [show (it :: ts₃ ++ ts₂) ++ rest = it :: (ts₃ ++ (ts₂ ++ rest)) by simp,
    parseStatement_if (Token.kind_eq_of_word hit)]
  obtain ⟨cond, _, hcond, hec⟩ :=
    parseExpression_paren_words lim (d := d) (ts₂ ++ rest) hc h₃ (by omega)
      (by rw [kindAt_braced h₂]; decide)
  obtain ⟨tb, _, htb, hetb⟩ := parseBlock_words (d := d) ht rest h₂ (by omega)
  exact ⟨_, _, parseIf_none (Token.kind_eq_of_word hit) hcond htb hel,
    by simp_all [Stmt.erase]⟩

theorem Stmt.readBack_ifElse {c : Expr} {t b : List Stmt} {p : Pos} (hc : c.ReadBack lim)
    (ht : Stmt.ListReadBack lim t) (hb : Stmt.ListReadBack lim b) :
    (Stmt.ifElse c t (some b) p).ReadBack lim := by
  intro d ts rest hts hd _
  simp only [Stmt.words] at hts
  simp only [Stmt.nesting] at hd
  obtain ⟨ts₁, ts₂, rfl, h₁, h₂⟩ := List.map_eq_append_iff.mp hts
  obtain ⟨ts₃, ts₄, rfl, h₃, h₄⟩ := List.map_eq_append_iff.mp h₁
  obtain ⟨it, ts₅, rfl, hit, h₅⟩ := List.map_eq_cons_iff.mp h₃
  obtain ⟨et, ts₆, rfl, het, h₆⟩ := List.map_eq_cons_iff.mp h₂
  rw [show (it :: ts₅ ++ ts₄ ++ et :: ts₆) ++ rest = it :: (ts₅ ++ (ts₄ ++ et :: (ts₆ ++ rest)))
    by simp, parseStatement_if (Token.kind_eq_of_word hit)]
  obtain ⟨cond, _, hcond, hec⟩ :=
    parseExpression_paren_words lim (d := d) (ts₄ ++ et :: (ts₆ ++ rest)) hc h₅ (by omega)
    (by rw [kindAt_braced h₄]; decide)
  obtain ⟨tb, _, htb, hetb⟩ := parseBlock_words (d := d) ht (et :: (ts₆ ++ rest)) h₄ (by omega)
  obtain ⟨eb, _, heb, heeb⟩ := parseBlock_words (d := d) hb rest h₆ (by omega)
  exact ⟨_, _, parseIf_else (Token.kind_eq_of_word hit) hcond htb (Token.kind_eq_of_word het)
    (by rw [kindAt_braced h₆]; decide) heb, by simp_all [Stmt.erase]⟩

theorem Stmt.readBack_for {x : String} {it : Expr} {body : List Stmt} {p : Pos}
    (hit : it.ReadBack lim) (hbody : Stmt.ListReadBack lim body) :
    (Stmt.forIn x it body p).ReadBack lim := by
  intro d ts rest hts hd _
  simp only [Stmt.words, List.append_assoc] at hts
  simp only [Stmt.nesting] at hd
  obtain ⟨ft, nt, int, ts', rfl, hft, hnt, hint, h'⟩ := map_word_cons₃ hts
  obtain ⟨ts₁, ts₂, rfl, h₁, h₂⟩ := List.map_eq_append_iff.mp h'
  rw [show (ft :: nt :: int :: (ts₁ ++ ts₂)) ++ rest = ft :: nt :: int :: (ts₁ ++ (ts₂ ++ rest))
    by simp, parseStatement_for (Token.kind_eq_of_word hft)]
  obtain ⟨iter, _, hi, hei⟩ :=
    parseExpression_paren_words lim (d := d) (ts₂ ++ rest) hit h₁ (by omega)
      (by rw [kindAt_braced h₂]; decide)
  obtain ⟨bd, _, hbd, hebd⟩ := parseBlock_words (d := d) hbody rest h₂ (by omega)
  exact ⟨_, _, parseFor_eq (Token.kind_eq_of_word hnt) (Token.kind_eq_of_word hint) hi hbd,
    by simp_all [Stmt.erase, Token.lexeme_eq_of_word hnt, name]⟩

/-! ### Blocks -/

theorem Stmt.listReadBack_nil : Stmt.ListReadBack lim [] := by
  intro d T ts rest u hr acc hts hd hu
  rw [Stmt.listWords, List.map_eq_nil_iff] at hts
  subst hts
  exact ⟨_, _, parseBlockBody_close hu, by simp⟩

theorem startsStmt_facts {k : TokenKind} (h : startsStmt k = true) :
    k ≠ .rbrace ∧ k ≠ .eof ∧ k ≠ .semicolon := by
  simp only [startsStmt, Bool.and_eq_true, bne_iff_ne] at h
  exact ⟨h.1.1.1, h.1.2, h.1.1.2⟩

theorem Stmt.listReadBack_cons {s : Stmt} {ss : List Stmt} (hs : s.ReadBack lim)
    (hss : Stmt.ListReadBack lim ss) : Stmt.ListReadBack lim (s :: ss) := by
  intro d T ts rest u hr acc hts hd hu
  simp only [Stmt.listWords] at hts
  rw [Stmt.listNesting] at hd
  obtain ⟨ts₁, ts₂, rfl, h₁, h₂⟩ := List.map_eq_append_iff.mp hts
  obtain ⟨w, ws, hw, hwk⟩ := s.words_cons
  obtain ⟨t, ts₁', rfl, ht, -⟩ := List.map_eq_cons_iff.mp (h₁.trans hw)
  revert hr
  rw [show (t :: ts₁' ++ ts₂) ++ u :: rest = t :: (ts₁' ++ (ts₂ ++ u :: rest)) by simp]
  intro hr
  obtain ⟨s', _, hs', hes⟩ := hs d (t :: ts₁') (ts₂ ++ u :: rest) h₁ (by omega)
    (kindAt_listWords_ne_else h₂ (by rw [kindAt_cons, hu]; decide))
  rw [parseBlockBody_stmt (r := ts₁' ++ (ts₂ ++ u :: rest))
    (by rw [Token.kind_eq_of_word ht]; exact startsStmt_facts hwk) hs']
  exact (hss d T ts₂ rest u _ (acc.push s') h₂ (by omega) hu).image_eq (by simp [hes])

-- The induction follows the syntax of statements, as the one for expressions does.
mutual

theorem Stmt.readBack : (s : Stmt) → s.wellFormed = true → s.ReadBack lim
  | .expr e, h => Stmt.readBack_expr (Expr.readBack e h)
  | .letDecl _ none _, _ => Stmt.readBack_letNone
  | .letDecl _ (some e) _, h => by
    simp only [Stmt.wellFormed, Bool.and_eq_true] at h
    exact Stmt.readBack_letSome (Expr.readBack e h.2)
  | .constDecl _ e _, h => by
    simp only [Stmt.wellFormed, Bool.and_eq_true] at h
    exact Stmt.readBack_const (Expr.readBack e h.2)
  | .funcDecl _ _ body _, h => by
    simp only [Stmt.wellFormed, Bool.and_eq_true] at h
    exact Stmt.readBack_func (Stmt.listReadBack body h.2)
  | .ret none _, _ => Stmt.readBack_retNone
  | .ret (some e) _, h => Stmt.readBack_retSome (Expr.readBack e h)
  | .ifElse c t none _, h => by
    simp only [Stmt.wellFormed, Bool.and_eq_true] at h
    exact Stmt.readBack_if (Expr.readBack c h.1) (Stmt.listReadBack t h.2)
  | .ifElse c t (some b) _, h => by
    simp only [Stmt.wellFormed, Bool.and_eq_true] at h
    exact Stmt.readBack_ifElse (Expr.readBack c h.1.1) (Stmt.listReadBack t h.1.2)
      (Stmt.listReadBack b h.2)
  | .forIn _ it body _, h => by
    simp only [Stmt.wellFormed, Bool.and_eq_true] at h
    exact Stmt.readBack_for (Expr.readBack it h.1.2) (Stmt.listReadBack body h.2)

theorem Stmt.listReadBack : (ss : List Stmt) → Stmt.allWellFormed ss = true →
    Stmt.ListReadBack lim ss
  | [], _ => Stmt.listReadBack_nil
  | s :: ss, h => by
    simp only [Stmt.allWellFormed, Bool.and_eq_true] at h
    exact Stmt.listReadBack_cons (Stmt.readBack s h.1) (Stmt.listReadBack ss h.2)

end

/-! ### Programs -/

theorem parseProgramFrom_words {e : Token} (he : e.kind = .eof) :
    ∀ (p : Program) (ts : List Token) (acc : Array Stmt), p.wellFormed = true →
      ts.map Token.word = Stmt.listWords p → p.nesting ≤ lim →
        ∃ q, parseProgramFrom (some lim) (ts ++ [e]) acc = .ok q ∧
          q.erase = Program.erase (acc.toList ++ p)
  | [], ts, acc, _, hts, _ => by
    rw [Stmt.listWords, List.map_eq_nil_iff] at hts
    subst hts
    exact ⟨_, parseProgramFrom_eof he, by simp⟩
  | s :: p, ts, acc, hwf, hts, hd => by
    simp only [Program.wellFormed, Stmt.allWellFormed, Bool.and_eq_true] at hwf
    simp only [Stmt.listWords] at hts
    simp only [Program.nesting, Stmt.listNesting] at hd
    obtain ⟨ts₁, ts₂, rfl, h₁, h₂⟩ := List.map_eq_append_iff.mp hts
    obtain ⟨w, ws, hw, hwk⟩ := s.words_cons
    obtain ⟨t, ts₁', rfl, ht, -⟩ := List.map_eq_cons_iff.mp (h₁.trans hw)
    rw [show (t :: ts₁' ++ ts₂) ++ [e] = t :: (ts₁' ++ (ts₂ ++ [e])) by simp]
    obtain ⟨s', _, hs', hes⟩ := @Stmt.readBack lim s hwf.1 0 (t :: ts₁') (ts₂ ++ [e]) h₁ (by omega)
      (kindAt_listWords_ne_else h₂ (by rw [kindAt_cons, he]; decide))
    have hk := startsStmt_facts hwk
    rw [← Token.kind_eq_of_word ht] at hk
    obtain ⟨q, hq, heq⟩ := parseProgramFrom_words he p ts₂ (acc.push s') hwf.2 h₂
      (by simp only [Program.nesting]; omega)
    refine ⟨q, (parseProgramFrom_stmt ⟨hk.2.1, hk.2.2⟩ hs').trans hq, ?_⟩
    simp_all [Program.erase]

/-! ### The round trip -/

/-- The parser reads the words of a program back, under every limit the program nests within. -/
theorem parseTokensWith_words {p : Program} {ts : List Token} {pos : Pos}
    (hw : p.wellFormed = true) (hts : ts.map Token.word = Stmt.listWords p)
    (hd : p.nesting ≤ lim) :
    ∃ q, parseTokensWith (some lim) (ts ++ [⟨.eof, "", pos⟩]) = .ok q ∧ q.erase = p.erase := by
  obtain ⟨q, hq, heq⟩ := parseProgramFrom_words (e := ⟨.eof, "", pos⟩) rfl p ts #[] hw hts hd
  exact ⟨q, by rw [parseTokensWith, closeTokens_of_eof, hq], by simpa using heq⟩

/-- A well-formed program that nests at most `maxNesting` deep is parsed from its printed text
back to itself, positions apart. -/
theorem parse_print_of_nesting_le {p : Program} (hw : p.wellFormed = true)
    (hd : p.nesting ≤ maxNesting) : ∃ q, parse p.print = .ok q ∧ q.erase = p.erase := by
  obtain ⟨ts, pos, htok, hts⟩ := Lexer.tokenize_render (Lexer.Stmt.allReadable_listWords p hw)
  obtain ⟨q, hq, heq⟩ := parseTokensWith_words hw hts hd
  exact ⟨q, by rw [parse, Program.print, htok]; exact hq, heq⟩

end Treewalk
