import Mathlib
import Treewalk.Proofs.Syntax.ParseSteps
/-!
# How the parser passes failures up

The parser has no recovery: whenever a part it calls fails, it fails with the same error.
Each lemma here is one call site of that rule, for the parts a printed program consists of,
together with the two places where the nesting limit is checked (`enter` at an expression and
after the brace of a block). `Fails r P` says that `r` failed with an error satisfying `P`.
-/
namespace Treewalk.Parser

def Fails {γ : Type} (r : Except Error γ) (P : Error → Prop) : Prop :=
  ∃ e, r = .error e ∧ P e

def TooDeep (l : Nat) (e : Error) : Prop := e.fault = .nestingTooDeep l ∧ e.incomplete = false

variable {limit : Option Nat} {d : Nat} {P : Error → Prop}

theorem enter_tooDeep {l : Nat} (ts : List Token) (h : l < d + 1) :
    Fails (enter (some l) d ts) (TooDeep l) :=
  ⟨{ fault := .nestingTooDeep l, pos := some (current ts).pos }, by simp [enter, h], rfl, rfl⟩

/-! ### Expressions -/

theorem parseExpression_fails_enter {l : Nat} {ts : List Token} (h : l < d + 1) :
    Fails (parseExpression (some l) d ts) (TooDeep l) := by
  obtain ⟨e, he, hP⟩ := enter_tooDeep ts h
  exact ⟨e, by rw [parseExpression, he], hP⟩

theorem parseExpression_fails_of_assignment {l : Nat} {ts : List Token} (hd : d + 1 ≤ l)
    (h : Fails (parseAssignment (some l) (d + 1) ts) P) :
    Fails (parseExpression (some l) d ts) P := by
  rw [parseExpression, enter_some hd]
  exact h

theorem parseAssignment_fails_of_operand {ts : List Token}
    (h : Fails (parseOperand limit d ts) P) : Fails (parseAssignment limit d ts) P := by
  obtain ⟨e, he, hP⟩ := h
  exact ⟨e, by rw [parseAssignment, he], hP⟩

theorem parseAssignment_fails_value {ts r : List Token} {lhs : Expr} {tgt : Target} {u : Token}
    {hr : (u :: r).length < ts.length}
    (hl : parseOperand limit d ts = .ok (lhs, ⟨u :: r, hr⟩)) (hu : u.kind = .assign)
    (ht : lhs.toTarget? = some tgt) (h : Fails (parseExpression limit d r) P) :
    Fails (parseAssignment limit d ts) P := by
  obtain ⟨e, he, hP⟩ := h
  exact ⟨e, by rw [parseAssignment, hl]; simp [hu, ht, he], hP⟩

theorem parseAdditive_fails_of_multiplicative {ts : List Token}
    (h : Fails (parseMultiplicative limit d ts) P) : Fails (parseAdditive limit d ts) P := by
  obtain ⟨e, he, hP⟩ := h
  exact ⟨e, by rw [parseAdditive, he], hP⟩

theorem parseMultiplicative_fails_of_parsePostfix {ts : List Token}
    (h : Fails (parsePostfix limit d ts) P) : Fails (parseMultiplicative limit d ts) P := by
  obtain ⟨e, he, hP⟩ := h
  exact ⟨e, by rw [parseMultiplicative, he], hP⟩

theorem parsePostfix_fails_of_primary {ts : List Token}
    (h : Fails (parsePrimary limit d ts) P) : Fails (parsePostfix limit d ts) P := by
  obtain ⟨e, he, hP⟩ := h
  exact ⟨e, by rw [parsePostfix, he], hP⟩

theorem parseAssignment_fails_of_additive {ts : List Token} (hk : kindAt ts ≠ .lbrace)
    (h : Fails (parseAdditive limit d ts) P) : Fails (parseAssignment limit d ts) P :=
  parseAssignment_fails_of_operand ((parseOperand_other hk).symm ▸ h)

theorem parseExpression_fails_of_primary {l : Nat} {ts : List Token} (hd : d + 1 ≤ l)
    (hk : kindAt ts ≠ .lbrace) (h : Fails (parsePrimary (some l) (d + 1) ts) P) :
    Fails (parseExpression (some l) d ts) P :=
  parseExpression_fails_of_assignment hd <| parseAssignment_fails_of_additive hk <|
    parseAdditive_fails_of_multiplicative <| parseMultiplicative_fails_of_parsePostfix <|
      parsePostfix_fails_of_primary h

theorem additiveTail_fails {ts r : List Token} {e : Expr} {t : Token} {op : BinOp}
    {hr : (t :: r).length < ts.length} (ht : additiveOp t.kind = some op)
    (h : Fails (parseMultiplicative limit d r) P) :
    Fails (additiveTail limit d ts e (t :: r) hr) P := by
  obtain ⟨err, he, hP⟩ := h
  refine ⟨err, ?_, hP⟩
  rw [additiveTail.eq_def]
  simp [ht, he]

theorem multiplicativeTail_fails {ts r : List Token} {e : Expr} {t : Token} {op : BinOp}
    {hr : (t :: r).length < ts.length} (ht : multiplicativeOp t.kind = some op)
    (h : Fails (parsePostfix limit d r) P) :
    Fails (multiplicativeTail limit d ts e (t :: r) hr) P := by
  obtain ⟨err, he, hP⟩ := h
  refine ⟨err, ?_, hP⟩
  rw [multiplicativeTail.eq_def]
  simp [ht, he]

theorem postfixTail_fails_index {ts r : List Token} {e : Expr} {t : Token}
    {hr : (t :: r).length < ts.length} (ht : t.kind = .lbracket)
    (h : Fails (parseExpression limit d r) P) : Fails (postfixTail limit d ts e (t :: r) hr) P := by
  obtain ⟨err, he, hP⟩ := h
  refine ⟨err, ?_, hP⟩
  rw [postfixTail.eq_def]
  simp [ht, he]

theorem postfixTail_fails_call {ts r : List Token} {e : Expr} {t : Token}
    {hr : (t :: r).length < ts.length} (ht : t.kind = .lparen)
    (h : Fails (parseArgs limit d .rparen r r (Nat.le_refl _) #[]) P) :
    Fails (postfixTail limit d ts e (t :: r) hr) P := by
  obtain ⟨err, he, hP⟩ := h
  refine ⟨err, ?_, hP⟩
  rw [postfixTail.eq_def]
  simp [ht, he]

theorem parsePrimary_fails_paren {t : Token} {r : List Token} (ht : t.kind = .lparen)
    (h : Fails (parseExpression limit d r) P) : Fails (parsePrimary limit d (t :: r)) P := by
  obtain ⟨err, he, hP⟩ := h
  refine ⟨err, ?_, hP⟩
  rw [parsePrimary]
  simp [ht, he]

theorem parsePrimary_fails_array {t : Token} {r : List Token} (ht : t.kind = .lbracket)
    (h : Fails (parseArgs limit d .rbracket r r (Nat.le_refl _) #[]) P) :
    Fails (parsePrimary limit d (t :: r)) P := by
  obtain ⟨err, he, hP⟩ := h
  refine ⟨err, ?_, hP⟩
  rw [parsePrimary]
  simp [ht, he]

theorem parseArgs_fails {closer : TokenKind} {ts r : List Token} {hr : r.length ≤ ts.length}
    {acc : Array Expr} (hne : kindAt r ≠ closer) (h : Fails (parseExpression limit d r) P) :
    Fails (parseArgs limit d closer ts r hr acc) P := by
  obtain ⟨err, he, hP⟩ := h
  refine ⟨err, ?_, hP⟩
  rw [parseArgs, if_neg hne]
  simp [he]

theorem parseFields_fails_keyed {ts r : List Token} {bp : Pos} {t c : Token}
    {hr : (t :: c :: r).length < ts.length} {acc : Array Field}
    (ht : t.kind = .string) (hc : c.kind = .colon) (h : Fails (parseExpression limit d r) P) :
    Fails (parseFields limit d ts bp (t :: c :: r) hr acc) P := by
  obtain ⟨err, he, hP⟩ := h
  refine ⟨err, ?_, hP⟩
  rw [parseFields]
  simp [ht, hc, he]

/-! ### Statements and blocks -/

theorem parseExprStmt_fails {ts : List Token} (h : Fails (parseExpression limit d ts) P) :
    Fails (parseExprStmt limit d ts) P := by
  obtain ⟨err, he, hP⟩ := h
  exact ⟨err, by rw [parseExprStmt, he], hP⟩

theorem parseVarTail_fails {ts r : List Token} {start : Pos} {isConst : Bool} {n a : Token}
    {hr : (n :: a :: r).length < ts.length} (hn : n.kind = .ident) (ha : a.kind = .assign)
    (h : Fails (parseExpression limit d r) P) :
    Fails (parseVarTail limit d ts start isConst (n :: a :: r) hr) P := by
  obtain ⟨err, he, hP⟩ := h
  refine ⟨err, ?_, hP⟩
  rw [parseVarTail]
  simp [expect_cons hn, ha, he]

theorem parseRet_fails {ts r : List Token} {start : Pos} {hr : r.length < ts.length}
    (hk : kindAt r ≠ .semicolon) (h : Fails (parseExpression limit d r) P) :
    Fails (parseRet limit d ts start r hr) P := by
  obtain ⟨err, he, hP⟩ := h
  refine ⟨err, ?_, hP⟩
  rw [parseRet, if_neg hk]
  simp [he]

theorem parseFunc_fails {ts r r' : List Token} {start : Pos} {n lp rp : Token}
    {ps : List String} {hr : (n :: lp :: r).length < ts.length}
    {h : (rp :: r').length ≤ r.length} (hn : n.kind = .ident) (hl : lp.kind = .lparen)
    (hp : parseParams r #[] = .ok (ps, ⟨rp :: r', h⟩)) (hrp : rp.kind = .rparen)
    (hb : Fails (parseBlock limit d r') P) :
    Fails (parseFunc limit d ts start (n :: lp :: r) hr) P := by
  obtain ⟨err, he, hP⟩ := hb
  refine ⟨err, ?_, hP⟩
  rw [parseFunc]
  simp [expect_cons hn, expect_cons hl, hp, expect_cons hrp, he]

theorem parseIf_fails_cond {t : Token} {r : List Token} (hi : t.kind = .keyword .ifKw)
    (h : Fails (parseExpression limit d r) P) : Fails (parseIf limit d (t :: r)) P := by
  obtain ⟨err, he, hP⟩ := h
  refine ⟨err, ?_, hP⟩
  rw [parseIf]
  simp [expect_cons hi, he]

theorem parseIf_fails_then {t : Token} {r r2 : List Token} {c : Expr} {h2 : r2.length < r.length}
    (hi : t.kind = .keyword .ifKw) (hc : parseExpression limit d r = .ok (c, ⟨r2, h2⟩))
    (h : Fails (parseBlock limit d r2) P) : Fails (parseIf limit d (t :: r)) P := by
  obtain ⟨err, he, hP⟩ := h
  refine ⟨err, ?_, hP⟩
  rw [parseIf]
  simp [expect_cons hi, hc, he]

theorem parseIf_fails_else {t e : Token} {r r2 r3 : List Token} {c : Expr} {tb : List Stmt}
    {h2 : r2.length < r.length} {h3 : (e :: r3).length < r2.length}
    (hi : t.kind = .keyword .ifKw) (hc : parseExpression limit d r = .ok (c, ⟨r2, h2⟩))
    (hb : parseBlock limit d r2 = .ok (tb, ⟨e :: r3, h3⟩)) (he : e.kind = .keyword .elseKw)
    (hk : kindAt r3 ≠ .keyword .ifKw) (h : Fails (parseBlock limit d r3) P) :
    Fails (parseIf limit d (t :: r)) P := by
  obtain ⟨err, herr, hP⟩ := h
  refine ⟨err, ?_, hP⟩
  rw [parseIf]
  simp [expect_cons hi, hc, hb, he, hk, herr]

theorem parseFor_fails_iter {ts r : List Token} {start : Pos} {n i : Token}
    {hr : (n :: i :: r).length < ts.length} (hn : n.kind = .ident) (hi : i.kind = .keyword .inKw)
    (h : Fails (parseExpression limit d r) P) :
    Fails (parseFor limit d ts start (n :: i :: r) hr) P := by
  have hp : kindAt (n :: i :: r) ≠ .lparen := by simp [kindAt_cons, hn]
  obtain ⟨err, he, hP⟩ := h
  obtain ⟨h', hname⟩ := expect_of_eq (if_neg hp) hn
  refine ⟨err, ?_, hP⟩
  rw [parseFor]
  split
  · rename_i heq
    rw [hname] at heq
    cases heq
  · rename_i heq
    rw [hname] at heq
    simp only [Except.ok.injEq, Prod.mk.injEq, Subtype.mk.injEq] at heq
    obtain ⟨rfl, rfl⟩ := heq
    simp [expect_cons hi, he]

theorem parseFor_fails_body {ts r r3 : List Token} {start : Pos} {n i : Token} {it : Expr}
    {hr : (n :: i :: r).length < ts.length} {h3 : r3.length < r.length} (hn : n.kind = .ident)
    (hi : i.kind = .keyword .inKw) (he : parseExpression limit d r = .ok (it, ⟨r3, h3⟩))
    (h : Fails (parseBlock limit d r3) P) :
    Fails (parseFor limit d ts start (n :: i :: r) hr) P := by
  have hp : kindAt (n :: i :: r) ≠ .lparen := by simp [kindAt_cons, hn]
  obtain ⟨err, hb, hP⟩ := h
  obtain ⟨h', hname⟩ := expect_of_eq (if_neg hp) hn
  refine ⟨err, ?_, hP⟩
  rw [parseFor]
  split
  · rename_i heq
    rw [hname] at heq
    cases heq
  · rename_i heq
    rw [hname] at heq
    simp only [Except.ok.injEq, Prod.mk.injEq, Subtype.mk.injEq] at heq
    obtain ⟨rfl, rfl⟩ := heq
    simp [expect_cons hi, he, hb, hp]

theorem parseBlock_fails_enter {l : Nat} {t : Token} {r : List Token} (ht : t.kind = .lbrace)
    (h : l < d + 1) : Fails (parseBlock (some l) d (t :: r)) (TooDeep l) := by
  obtain ⟨e, he, hP⟩ := enter_tooDeep r h
  exact ⟨e, by rw [parseBlock]; simp [expect_cons ht, he], hP⟩

theorem parseBlockBody_fails_stmt {ts r : List Token} {t : Token}
    {hr : (t :: r).length < ts.length} {acc : Array Stmt}
    (hk : t.kind ≠ .rbrace ∧ t.kind ≠ .eof ∧ t.kind ≠ .semicolon)
    (h : Fails (parseStatement limit d (t :: r)) P) :
    Fails (parseBlockBody limit d ts (t :: r) hr acc) P := by
  obtain ⟨err, he, hP⟩ := h
  refine ⟨err, ?_, hP⟩
  rw [parseBlockBody]
  simp [hk.1, hk.2.1, hk.2.2, he]

theorem parseProgramFrom_fails {t : Token} {r : List Token} {acc : Array Stmt}
    (hk : t.kind ≠ .eof ∧ t.kind ≠ .semicolon) (h : Fails (parseStatement limit 0 (t :: r)) P) :
    Fails (parseProgramFrom limit (t :: r) acc) P := by
  obtain ⟨err, he, hP⟩ := h
  refine ⟨err, ?_, hP⟩
  rw [parseProgramFrom]
  simp [hk.1, hk.2, he]

end Treewalk.Parser
