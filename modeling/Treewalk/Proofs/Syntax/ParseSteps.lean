import Mathlib
import Treewalk.Proofs.Syntax.Print
/-!
# The parser one step at a time

Each lemma here says what one parsing function does when the tokens in front of it are known:
which function it hands over to, and what it returns once the parts it called have returned.
`Yields r f b rest` says that a parse `r` succeeded with a value whose view under `f` is `b`
(for the round trip, the value with positions forgotten) and left exactly `rest`.

Later proofs put these steps together along the words the printer writes, and never unfold a
parsing function themselves.
-/
namespace Treewalk.Parser

def Yields {ts : List Token} {α β : Type} (r : Parsed ts α) (f : α → β) (b : β)
    (rest : List Token) : Prop :=
  ∃ a h, r = .ok (a, ⟨rest, h⟩) ∧ f a = b

def stopsPostfix (k : TokenKind) : Bool := k != .dot && k != .lbracket && k != .lparen

/-- Whether a token may follow a complete expression: it continues no operator, assignment,
member, index or call. -/
def endsExpr (k : TokenKind) : Bool :=
  stopsPostfix k && k != .assign && (additiveOp k).isNone && (multiplicativeOp k).isNone

theorem endsExpr_stopsPostfix {k : TokenKind} (h : endsExpr k = true) : stopsPostfix k = true := by
  simp only [endsExpr, Bool.and_eq_true] at h
  exact h.1.1.1

theorem endsExpr_ne_assign {k : TokenKind} (h : endsExpr k = true) : k ≠ .assign := by
  simp only [endsExpr, Bool.and_eq_true, bne_iff_ne] at h
  exact h.1.1.2

theorem endsExpr_additiveOp {k : TokenKind} (h : endsExpr k = true) : additiveOp k = none := by
  simp only [endsExpr, Bool.and_eq_true, Option.isNone_iff_eq_none] at h
  exact h.1.2

theorem endsExpr_multiplicativeOp {k : TokenKind} (h : endsExpr k = true) :
    multiplicativeOp k = none := by
  simp only [endsExpr, Bool.and_eq_true, Option.isNone_iff_eq_none] at h
  exact h.2

theorem Yields.image_eq {ts : List Token} {α β : Type} {r : Parsed ts α} {f : α → β} {b b' : β}
    {rest : List Token} (hy : Yields r f b rest) (h : b = b') : Yields r f b' rest :=
  h ▸ hy

variable {limit : Option Nat} {d : Nat} {α β : Type} {f : Expr → β} {b : β}

theorem kindAt_cons (t : Token) (ts : List Token) : kindAt (t :: ts) = t.kind := rfl

theorem expect_cons {k : TokenKind} {t : Token} {rest : List Token} (h : t.kind = k) :
    expect k (t :: rest) = .ok (t, ⟨rest, by simp⟩) := by
  simp [expect, h]

theorem enter_some {l : Nat} {ts : List Token} (h : d + 1 ≤ l) :
    enter (some l) d ts = .ok (d + 1) := by
  simp only [enter, gt_iff_lt, ite_eq_right_iff, reduceCtorEq, imp_false, not_lt]
  exact h

/-! ### The expression levels, from the loosest to the tightest -/

theorem parseExpression_of_assignment {l : Nat} {ts rest : List Token} (h : d + 1 ≤ l)
    (hy : Yields (parseAssignment (some l) (d + 1) ts) f b rest) :
    Yields (parseExpression (some l) d ts) f b rest := by
  rw [parseExpression, enter_some h]
  exact hy

theorem parseAssignment_of_operand {ts rest : List Token} (hk : kindAt rest ≠ .assign)
    (hy : Yields (parseOperand limit d ts) f b rest) :
    Yields (parseAssignment limit d ts) f b rest := by
  obtain ⟨a, h, hr, hf⟩ := hy
  refine ⟨a, h, ?_, hf⟩
  rw [parseAssignment, hr]
  cases rest with
  | nil => rfl
  | cons t rest =>
    rw [kindAt_cons] at hk
    simp [hk]

theorem parseOperand_of_additive {ts rest : List Token} (hk : kindAt ts ≠ .lbrace)
    (hy : Yields (parseAdditive limit d ts) f b rest) :
    Yields (parseOperand limit d ts) f b rest := by
  cases ts with
  | nil => rw [parseOperand]; exact hy
  | cons t ts =>
    rw [kindAt_cons] at hk
    rw [parseOperand, if_neg hk]
    exact hy

theorem parseAdditive_of_multiplicative {ts rest : List Token}
    (hk : additiveOp (kindAt rest) = none)
    (hy : Yields (parseMultiplicative limit d ts) f b rest) :
    Yields (parseAdditive limit d ts) f b rest := by
  obtain ⟨a, h, hr, hf⟩ := hy
  refine ⟨a, h, ?_, hf⟩
  rw [parseAdditive, hr]
  dsimp only
  cases rest with
  | nil => rw [additiveTail.eq_def]
  | cons t rest =>
    rw [kindAt_cons] at hk
    rw [additiveTail.eq_def]
    simp only [hk]

theorem parseMultiplicative_of_parsePostfix {ts rest : List Token}
    (hk : multiplicativeOp (kindAt rest) = none)
    (hy : Yields (parsePostfix limit d ts) f b rest) :
    Yields (parseMultiplicative limit d ts) f b rest := by
  obtain ⟨a, h, hr, hf⟩ := hy
  refine ⟨a, h, ?_, hf⟩
  rw [parseMultiplicative, hr]
  dsimp only
  cases rest with
  | nil => rw [multiplicativeTail.eq_def]
  | cons t rest =>
    rw [kindAt_cons] at hk
    rw [multiplicativeTail.eq_def]
    simp only [hk]

/-! ### Operators, members, calls and primaries -/

theorem parsePostfix_eq {ts r : List Token} {e : Expr} {hr : r.length < ts.length}
    (h : parsePrimary limit d ts = .ok (e, ⟨r, hr⟩)) :
    parsePostfix limit d ts = postfixTail limit d ts e r hr := by
  rw [parsePostfix, h]

theorem postfixTail_stop {ts r : List Token} {e : Expr} {hr : r.length < ts.length}
    (hk : stopsPostfix (kindAt r) = true) :
    postfixTail limit d ts e r hr = .ok (e, ⟨r, hr⟩) := by
  cases r with
  | nil => rw [postfixTail.eq_def]
  | cons t r =>
    simp only [kindAt_cons, stopsPostfix, Bool.and_eq_true, bne_iff_ne] at hk
    rw [postfixTail.eq_def]
    simp [hk.1.1, hk.1.2, hk.2]

theorem postfixTail_member {ts r : List Token} {e : Expr} {t u : Token}
    {hr : (t :: u :: r).length < ts.length} (ht : t.kind = .dot) (hu : u.kind = .ident) :
    postfixTail limit d ts e (t :: u :: r) hr =
      postfixTail limit d ts (.member e u.lexeme u.pos t.pos) r (by simp at hr ⊢; omega) := by
  rw [postfixTail.eq_def]
  simp [ht, expect_cons hu]

theorem postfixTail_index {ts r r' : List Token} {e k : Expr} {t u : Token}
    {hr : (t :: r).length < ts.length} {hk : (u :: r').length < r.length}
    (ht : t.kind = .lbracket) (hkey : parseExpression limit d r = .ok (k, ⟨u :: r', hk⟩))
    (hu : u.kind = .rbracket) :
    postfixTail limit d ts e (t :: r) hr =
      postfixTail limit d ts (.index e k t.pos) r' (by simp at hr hk ⊢; omega) := by
  rw [postfixTail.eq_def]
  simp [ht, hkey, expect_cons hu]

theorem postfixTail_call {ts r r' : List Token} {e : Expr} {args : List Expr} {t : Token}
    {hr : (t :: r).length < ts.length} {ha : r'.length < r.length}
    (ht : t.kind = .lparen)
    (hargs : parseArgs limit d .rparen r r (Nat.le_refl _) #[] = .ok (args, ⟨r', ha⟩)) :
    postfixTail limit d ts e (t :: r) hr =
      postfixTail limit d ts (.call e args t.pos) r' (by simp at hr ⊢; omega) := by
  rw [postfixTail.eq_def]
  simp [ht, hargs]

theorem parsePrimary_ident {t : Token} {r : List Token} (ht : t.kind = .ident) :
    parsePrimary limit d (t :: r) = .ok (.ident t.lexeme t.pos, ⟨r, by simp⟩) := by
  rw [parsePrimary]
  simp [ht]

theorem parsePrimary_number {t : Token} {r : List Token} (ht : t.kind = .number) :
    parsePrimary limit d (t :: r) =
      .ok (.num (Numeral.ofLexeme t.lexeme).toFloat t.pos, ⟨r, by simp⟩) := by
  rw [parsePrimary]
  simp [ht]

theorem parsePrimary_string {t : Token} {r : List Token} (ht : t.kind = .string) :
    parsePrimary limit d (t :: r) = .ok (.str t.lexeme t.pos, ⟨r, by simp⟩) := by
  rw [parsePrimary]
  simp [ht]

theorem parsePrimary_paren {t u : Token} {r r' : List Token} {e : Expr}
    {h : (u :: r').length < r.length} (ht : t.kind = .lparen)
    (he : parseExpression limit d r = .ok (e, ⟨u :: r', h⟩)) (hu : u.kind = .rparen) :
    parsePrimary limit d (t :: r) = .ok (e, ⟨r', by simp at h ⊢; omega⟩) := by
  rw [parsePrimary]
  simp [ht, he, expect_cons hu]

theorem parsePrimary_array {t : Token} {r r' : List Token} {es : List Expr}
    {h : r'.length < r.length} (ht : t.kind = .lbracket)
    (hes : parseArgs limit d .rbracket r r (Nat.le_refl _) #[] = .ok (es, ⟨r', h⟩)) :
    parsePrimary limit d (t :: r) =
      .ok (.array es t.pos, ⟨r', by simp only [List.length_cons]; omega⟩) := by
  rw [parsePrimary]
  simp [ht, hes]

theorem parseArgs_close {closer : TokenKind} {ts r : List Token} {u : Token}
    {hr : (u :: r).length ≤ ts.length} {acc : Array Expr} (hu : u.kind = closer) :
    parseArgs limit d closer ts (u :: r) hr acc = .ok (acc.toList, ⟨r, by simp at hr; omega⟩) := by
  rw [parseArgs, if_pos (by simpa [kindAt_cons] using hu)]
  simp [expect_cons hu]

theorem parseArgs_last {closer : TokenKind} {ts r r' : List Token} {u : Token} {a : Expr}
    {hr : r.length ≤ ts.length} {h : (u :: r').length < r.length} {acc : Array Expr}
    (hne : kindAt r ≠ closer) (ha : parseExpression limit d r = .ok (a, ⟨u :: r', h⟩))
    (hu : u.kind = closer) (hc : closer ≠ .comma) :
    parseArgs limit d closer ts r hr acc =
      .ok ((acc.push a).toList, ⟨r', by simp at h; omega⟩) := by
  rw [parseArgs, if_neg hne]
  simp [ha, hu, hc, expect_cons hu]

theorem parseArgs_comma {closer : TokenKind} {ts r r' : List Token} {u : Token} {a : Expr}
    {hr : r.length ≤ ts.length} {h : (u :: r').length < r.length} {acc : Array Expr}
    (hne : kindAt r ≠ closer) (ha : parseExpression limit d r = .ok (a, ⟨u :: r', h⟩))
    (hu : u.kind = .comma) :
    parseArgs limit d closer ts r hr acc =
      parseArgs limit d closer ts r' (by simp at h; omega) (acc.push a) := by
  rw [parseArgs, if_neg hne]
  simp [ha, hu]

theorem parseMultiplicative_eq {ts r : List Token} {e : Expr} {hr : r.length < ts.length}
    (h : parsePostfix limit d ts = .ok (e, ⟨r, hr⟩)) :
    parseMultiplicative limit d ts = multiplicativeTail limit d ts e r hr := by
  rw [parseMultiplicative, h]

theorem multiplicativeTail_op {ts r r' : List Token} {e x : Expr} {t : Token} {op : BinOp}
    {hr : (t :: r).length < ts.length} {h : r'.length < r.length}
    (ht : multiplicativeOp t.kind = some op) (hx : parsePostfix limit d r = .ok (x, ⟨r', h⟩)) :
    multiplicativeTail limit d ts e (t :: r) hr =
      multiplicativeTail limit d ts (.binary op e x t.pos) r' (by simp at hr ⊢; omega) := by
  rw [multiplicativeTail.eq_def]
  simp [ht, hx]

theorem multiplicativeTail_stop {ts r : List Token} {e : Expr} {hr : r.length < ts.length}
    (hk : multiplicativeOp (kindAt r) = none) :
    multiplicativeTail limit d ts e r hr = .ok (e, ⟨r, hr⟩) := by
  cases r with
  | nil => rw [multiplicativeTail.eq_def]
  | cons t r =>
    rw [kindAt_cons] at hk
    rw [multiplicativeTail.eq_def]
    simp only [hk]

theorem parseAdditive_eq {ts r : List Token} {e : Expr} {hr : r.length < ts.length}
    (h : parseMultiplicative limit d ts = .ok (e, ⟨r, hr⟩)) :
    parseAdditive limit d ts = additiveTail limit d ts e r hr := by
  rw [parseAdditive, h]

theorem additiveTail_op {ts r r' : List Token} {e x : Expr} {t : Token} {op : BinOp}
    {hr : (t :: r).length < ts.length} {h : r'.length < r.length}
    (ht : additiveOp t.kind = some op) (hx : parseMultiplicative limit d r = .ok (x, ⟨r', h⟩)) :
    additiveTail limit d ts e (t :: r) hr =
      additiveTail limit d ts (.binary op e x t.pos) r' (by simp at hr ⊢; omega) := by
  rw [additiveTail.eq_def]
  simp [ht, hx]

theorem additiveTail_stop {ts r : List Token} {e : Expr} {hr : r.length < ts.length}
    (hk : additiveOp (kindAt r) = none) :
    additiveTail limit d ts e r hr = .ok (e, ⟨r, hr⟩) := by
  cases r with
  | nil => rw [additiveTail.eq_def]
  | cons t r =>
    rw [kindAt_cons] at hk
    rw [additiveTail.eq_def]
    simp only [hk]

theorem parseExpression_of_parsePostfix {l : Nat} {ts rest : List Token} (hd : d + 1 ≤ l)
    (hk : kindAt ts ≠ .lbrace) (hr : endsExpr (kindAt rest) = true)
    (hy : Yields (parsePostfix (some l) (d + 1) ts) f b rest) :
    Yields (parseExpression (some l) d ts) f b rest :=
  parseExpression_of_assignment hd <| parseAssignment_of_operand (endsExpr_ne_assign hr) <|
    parseOperand_of_additive hk <| parseAdditive_of_multiplicative (endsExpr_additiveOp hr) <|
      parseMultiplicative_of_parsePostfix (endsExpr_multiplicativeOp hr) hy

theorem parsePostfix_paren {ts rest : List Token} {t u : Token} (ht : t.kind = .lparen)
    (hu : u.kind = .rparen) (hk : stopsPostfix (kindAt rest) = true)
    (hy : Yields (parseExpression limit d (ts ++ u :: rest)) f b (u :: rest)) :
    Yields (parsePostfix limit d (t :: (ts ++ u :: rest))) f b rest := by
  obtain ⟨a, h, he, hf⟩ := hy
  exact ⟨a, _, by rw [parsePostfix_eq (parsePrimary_paren ht he hu), postfixTail_stop hk], hf⟩

theorem parseExpression_paren {l : Nat} {ts rest : List Token} {t u : Token} (hd : d + 1 ≤ l)
    (ht : t.kind = .lparen) (hu : u.kind = .rparen) (hr : endsExpr (kindAt rest) = true)
    (hy : Yields (parseExpression (some l) (d + 1) (ts ++ u :: rest)) f b (u :: rest)) :
    Yields (parseExpression (some l) d (t :: (ts ++ u :: rest))) f b rest :=
  parseExpression_of_parsePostfix hd (by rw [kindAt_cons, ht]; decide) hr
    (parsePostfix_paren ht hu (endsExpr_stopsPostfix hr) hy)

theorem token_stopsPostfix (op : BinOp) : stopsPostfix op.token = true := by
  cases op <;> rfl

theorem token_level (op : BinOp) :
    (additiveOp op.token = some op ∧ multiplicativeOp op.token = none) ∨
      (additiveOp op.token = none ∧ multiplicativeOp op.token = some op) := by
  cases op <;> simp [BinOp.token, additiveOp, multiplicativeOp]

/-- What is left after a token the parser steps over is shorter still. The statements below
name this lemma rather than prove the fact in place: Lean turns a proof written in place into
an auxiliary lemma, which it may share with an earlier declaration of the same fact. -/
theorem length_lt_of_cons {u : Token} {r ts : List Token} (h : (u :: r).length < ts.length) :
    r.length < ts.length := by
  simp only [List.length_cons] at h
  omega

/-! ### Assignments and object literals -/

theorem parseAssignment_assign {ts r r' : List Token} {lhs v : Expr} {tgt : Target} {u : Token}
    {hr : (u :: r).length < ts.length} {h : r'.length < r.length}
    (hl : parseOperand limit d ts = .ok (lhs, ⟨u :: r, hr⟩)) (hu : u.kind = .assign)
    (ht : lhs.toTarget? = some tgt) (hv : parseExpression limit d r = .ok (v, ⟨r', h⟩)) :
    parseAssignment limit d ts = .ok (.assign tgt v, ⟨r', by simp at hr; omega⟩) := by
  rw [parseAssignment, hl]
  simp [hu, ht, hv]

theorem parseOperand_brace {t : Token} {r : List Token} (ht : t.kind = .lbrace) :
    parseOperand limit d (t :: r) = parseFields limit d (t :: r) t.pos r (by simp) #[] := by
  rw [parseOperand, if_pos ht]

theorem parseOperand_other {ts : List Token} (hk : kindAt ts ≠ .lbrace) :
    parseOperand limit d ts = parseAdditive limit d ts := by
  cases ts with
  | nil => rw [parseOperand]
  | cons t ts =>
    rw [kindAt_cons] at hk
    rw [parseOperand, if_neg hk]

theorem parseFields_close {ts r : List Token} {bp : Pos} {u : Token}
    {hr : (u :: r).length < ts.length} {acc : Array Field} (hu : u.kind = .rbrace) :
    parseFields limit d ts bp (u :: r) hr acc =
      .ok (.object acc.toList bp, ⟨r, length_lt_of_cons hr⟩) := by
  rw [parseFields.eq_def]
  simp [hu]

theorem parseFields_keyed {ts r r' : List Token} {bp : Pos} {t c : Token} {v : Expr}
    {hr : (t :: c :: r).length < ts.length} {h : r'.length < r.length} {acc : Array Field}
    (ht : t.kind = .string) (hc : c.kind = .colon)
    (hv : parseExpression limit d r = .ok (v, ⟨r', h⟩)) :
    parseFields limit d ts bp (t :: c :: r) hr acc =
      parseFieldsNext limit d ts bp r' (by simp at hr; omega) (acc.push (.keyed t.lexeme t.pos v)) := by
  rw [parseFields]
  simp [ht, hc, hv]

theorem parseFields_shorthand {ts r : List Token} {bp : Pos} {t : Token}
    {hr : (t :: r).length < ts.length} {acc : Array Field}
    (ht : t.kind = .ident) (hc : kindAt r ≠ .colon) :
    parseFields limit d ts bp (t :: r) hr acc =
      parseFieldsNext limit d ts bp r (length_lt_of_cons hr)
        (acc.push (.shorthand t.lexeme t.pos)) := by
  cases r with
  | nil => rw [parseFields]; simp [ht]
  | cons c r =>
    rw [kindAt_cons] at hc
    rw [parseFields]
    simp [ht, hc]

theorem parseFieldsNext_comma {ts r : List Token} {bp : Pos} {u : Token}
    {hr : (u :: r).length < ts.length} {acc : Array Field} (hu : u.kind = .comma) :
    parseFieldsNext limit d ts bp (u :: r) hr acc =
      parseFields limit d ts bp r (length_lt_of_cons hr) acc := by
  rw [parseFieldsNext]
  simp [hu]

theorem parseFieldsNext_close {ts r : List Token} {bp : Pos} {u : Token}
    {hr : (u :: r).length < ts.length} {acc : Array Field} (hu : u.kind = .rbrace) :
    parseFieldsNext limit d ts bp (u :: r) hr acc =
      .ok (.object acc.toList bp, ⟨r, length_lt_of_cons hr⟩) := by
  rw [parseFieldsNext]
  simp [hu, expect_cons hu]

/-! ### Statements, blocks and programs -/

theorem parseStatement_expr {ts : List Token} (hk : ∀ k, kindAt ts ≠ .keyword k) :
    parseStatement limit d ts = parseExprStmt limit d ts := by
  rw [parseStatement.eq_def]
  cases ts with
  | nil => rfl
  | cons t r =>
    rw [kindAt_cons] at hk
    dsimp only
    split <;> first | rfl | exact absurd (by assumption) (hk _)

theorem parseExprStmt_semicolon {ts r : List Token} {e : Expr} {u : Token}
    {h : (u :: r).length < ts.length}
    (he : parseExpression limit d ts = .ok (e, ⟨u :: r, h⟩)) (hu : u.kind = .semicolon) :
    parseExprStmt limit d ts =
      .ok (.expr e, ⟨r, length_lt_of_cons h⟩) := by
  rw [parseExprStmt, he]
  simp [hu]

theorem parseStatement_let {t m : Token} {r : List Token} (ht : t.kind = .keyword .letKw)
    (hm : m.kind ≠ .keyword .mutKw) :
    parseStatement limit d (t :: m :: r) =
      parseVarTail limit d (t :: m :: r) t.pos false (m :: r) (by simp) := by
  rw [parseStatement.eq_def]
  simp [ht, hm]

theorem parseStatement_const {t : Token} {r : List Token} (ht : t.kind = .keyword .constKw) :
    parseStatement limit d (t :: r) = parseVarTail limit d (t :: r) t.pos true r (by simp) := by
  rw [parseStatement.eq_def]
  simp [ht]

theorem parseStatement_func {t : Token} {r : List Token} (ht : t.kind = .keyword .funcKw) :
    parseStatement limit d (t :: r) = parseFunc limit d (t :: r) t.pos r (by simp) := by
  rw [parseStatement.eq_def]
  simp [ht]

theorem parseStatement_ret {t : Token} {r : List Token} (ht : t.kind = .keyword .retKw) :
    parseStatement limit d (t :: r) = parseRet limit d (t :: r) t.pos r (by simp) := by
  rw [parseStatement.eq_def]
  simp [ht]

theorem parseStatement_if {t : Token} {r : List Token} (ht : t.kind = .keyword .ifKw) :
    parseStatement limit d (t :: r) = parseIf limit d (t :: r) := by
  rw [parseStatement.eq_def]
  simp [ht]

theorem parseStatement_for {t : Token} {r : List Token} (ht : t.kind = .keyword .forKw) :
    parseStatement limit d (t :: r) = parseFor limit d (t :: r) t.pos r (by simp) := by
  rw [parseStatement.eq_def]
  simp [ht]

theorem parseVarTail_none {ts r : List Token} {start : Pos} {n s : Token}
    {hr : (n :: s :: r).length < ts.length} (hn : n.kind = .ident) (hs : s.kind = .semicolon) :
    parseVarTail limit d ts start false (n :: s :: r) hr =
      .ok (.letDecl n.lexeme none start, ⟨r, by simp at hr; omega⟩) := by
  rw [parseVarTail]
  simp [expect_cons hn, hs, expect_cons hs]

theorem parseVarTail_some {ts r r' : List Token} {start : Pos} {isConst : Bool} {n a s : Token}
    {e : Expr} {hr : (n :: a :: r).length < ts.length} {h : (s :: r').length < r.length}
    (hn : n.kind = .ident) (ha : a.kind = .assign)
    (he : parseExpression limit d r = .ok (e, ⟨s :: r', h⟩)) (hs : s.kind = .semicolon) :
    parseVarTail limit d ts start isConst (n :: a :: r) hr =
      .ok (if isConst then .constDecl n.lexeme e start else .letDecl n.lexeme (some e) start,
        ⟨r', by simp at hr h; omega⟩) := by
  rw [parseVarTail]
  simp [expect_cons hn, ha, he, expect_cons hs]

theorem parseRet_none {ts r : List Token} {start : Pos} {s : Token}
    {hr : (s :: r).length < ts.length} (hs : s.kind = .semicolon) :
    parseRet limit d ts start (s :: r) hr =
      .ok (.ret none start, ⟨r, length_lt_of_cons hr⟩) := by
  rw [parseRet, if_pos (by simpa [kindAt_cons] using hs)]
  simp [expect_cons hs]

theorem parseRet_some {ts r r' : List Token} {start : Pos} {s : Token} {e : Expr}
    {hr : r.length < ts.length} {h : (s :: r').length < r.length}
    (hk : kindAt r ≠ .semicolon) (he : parseExpression limit d r = .ok (e, ⟨s :: r', h⟩))
    (hs : s.kind = .semicolon) :
    parseRet limit d ts start r hr = .ok (.ret (some e) start, ⟨r', by simp at h; omega⟩) := by
  rw [parseRet, if_neg hk]
  simp [he, expect_cons hs]

theorem parseParams_close {ts : List Token} {acc : Array String} (hk : kindAt ts = .rparen) :
    parseParams ts acc = .ok (acc.toList, ⟨ts, Nat.le_refl _⟩) := by
  rw [parseParams, if_pos hk]

theorem parseParams_last {n u : Token} {r : List Token} {acc : Array String}
    (hn : n.kind = .ident) (hu : u.kind = .rparen) :
    parseParams (n :: u :: r) acc = .ok ((acc.push n.lexeme).toList, ⟨u :: r, by simp⟩) := by
  rw [parseParams, if_neg (by rw [kindAt_cons, hn]; decide)]
  simp [expect_cons hn, hu]

theorem parseParams_comma {n c : Token} {r r' : List Token} {acc : Array String}
    {ps : List String} {h : r'.length ≤ r.length} (hn : n.kind = .ident) (hc : c.kind = .comma)
    (hps : parseParams r (acc.push n.lexeme) = .ok (ps, ⟨r', h⟩)) :
    parseParams (n :: c :: r) acc = .ok (ps, ⟨r', by simp; omega⟩) := by
  rw [parseParams, if_neg (by rw [kindAt_cons, hn]; decide)]
  simp [expect_cons hn, hc, hps]

theorem parseFunc_eq {ts r r' r'' : List Token} {start : Pos} {n lp rp : Token}
    {ps : List String} {body : List Stmt} {hr : (n :: lp :: r).length < ts.length}
    {h : (rp :: r').length ≤ r.length} {h' : r''.length < r'.length}
    (hn : n.kind = .ident) (hl : lp.kind = .lparen)
    (hp : parseParams r #[] = .ok (ps, ⟨rp :: r', h⟩)) (hrp : rp.kind = .rparen)
    (hb : parseBlock limit d r' = .ok (body, ⟨r'', h'⟩)) :
    parseFunc limit d ts start (n :: lp :: r) hr =
      .ok (.funcDecl n.lexeme ps body start, ⟨r'', by simp at hr h; omega⟩) := by
  rw [parseFunc]
  simp [expect_cons hn, expect_cons hl, hp, expect_cons hrp, hb]

theorem parseIf_none {t : Token} {r r2 r3 : List Token} {c : Expr} {tb : List Stmt}
    {h2 : r2.length < r.length} {h3 : r3.length < r2.length} (hi : t.kind = .keyword .ifKw)
    (hc : parseExpression limit d r = .ok (c, ⟨r2, h2⟩))
    (hb : parseBlock limit d r2 = .ok (tb, ⟨r3, h3⟩)) (hk : kindAt r3 ≠ .keyword .elseKw) :
    parseIf limit d (t :: r) = .ok (.ifElse c tb none t.pos, ⟨r3, by simp; omega⟩) := by
  rw [parseIf]
  cases r3 with
  | nil => simp [expect_cons hi, hc, hb]
  | cons e r3 =>
    rw [kindAt_cons] at hk
    simp [expect_cons hi, hc, hb, hk]

theorem parseIf_else {t e : Token} {r r2 r3 r4 : List Token} {c : Expr} {tb eb : List Stmt}
    {h2 : r2.length < r.length} {h3 : (e :: r3).length < r2.length} {h4 : r4.length < r3.length}
    (hi : t.kind = .keyword .ifKw) (hc : parseExpression limit d r = .ok (c, ⟨r2, h2⟩))
    (hb : parseBlock limit d r2 = .ok (tb, ⟨e :: r3, h3⟩)) (he : e.kind = .keyword .elseKw)
    (hk : kindAt r3 ≠ .keyword .ifKw) (hb' : parseBlock limit d r3 = .ok (eb, ⟨r4, h4⟩)) :
    parseIf limit d (t :: r) =
      .ok (.ifElse c tb (some eb) t.pos, ⟨r4, by simp at h3 ⊢; omega⟩) := by
  rw [parseIf]
  simp [expect_cons hi, hc, hb, he, hk, hb']

/-- `expect` on a list known to equal a cons of the right kind, for a list that the parser
computes (the optional parenthesis of a `for`), where the list cannot be rewritten in place. -/
theorem expect_of_eq {k : TokenKind} {ts r : List Token} {t : Token} (hts : ts = t :: r)
    (h : t.kind = k) : ∃ h', expect k ts = .ok (t, ⟨r, h'⟩) := by
  subst hts
  exact ⟨_, expect_cons h⟩

theorem parseFor_eq {ts r r3 r5 : List Token} {start : Pos} {n i : Token} {it : Expr}
    {body : List Stmt} {hr : (n :: i :: r).length < ts.length} {h3 : r3.length < r.length}
    {h5 : r5.length < r3.length} (hn : n.kind = .ident) (hi : i.kind = .keyword .inKw)
    (he : parseExpression limit d r = .ok (it, ⟨r3, h3⟩))
    (hb : parseBlock limit d r3 = .ok (body, ⟨r5, h5⟩)) :
    parseFor limit d ts start (n :: i :: r) hr =
      .ok (.forIn n.lexeme it body start, ⟨r5, by simp at hr; omega⟩) := by
  have hp : kindAt (n :: i :: r) ≠ .lparen := by simp [kindAt_cons, hn]
  -- no parenthesis opens the loop head, so the binding is read from the list itself
  obtain ⟨h', hname⟩ := expect_of_eq (if_neg hp) hn
  rw [parseFor]
  split
  · rename_i heq
    rw [hname] at heq
    cases heq
  · rename_i heq
    rw [hname] at heq
    simp only [Except.ok.injEq, Prod.mk.injEq, Subtype.mk.injEq] at heq
    obtain ⟨rfl, rfl⟩ := heq
    simp [expect_cons hi, he, hb, hp]

theorem parseBlock_eq {t : Token} {r : List Token} {l : Nat} (ht : t.kind = .lbrace)
    (hd : d + 1 ≤ l) :
    parseBlock (some l) d (t :: r) = parseBlockBody (some l) (d + 1) (t :: r) r (by simp) #[] := by
  rw [parseBlock]
  simp [expect_cons ht, enter_some hd]

theorem parseBlockBody_close {ts r : List Token} {u : Token} {hr : (u :: r).length < ts.length}
    {acc : Array Stmt} (hu : u.kind = .rbrace) :
    parseBlockBody limit d ts (u :: r) hr acc =
      .ok (acc.toList, ⟨r, length_lt_of_cons hr⟩) := by
  rw [parseBlockBody]
  simp [hu]

theorem parseBlockBody_stmt {ts r r' : List Token} {t : Token} {s : Stmt}
    {hr : (t :: r).length < ts.length} {h : r'.length < (t :: r).length} {acc : Array Stmt}
    (hk : t.kind ≠ .rbrace ∧ t.kind ≠ .eof ∧ t.kind ≠ .semicolon)
    (hs : parseStatement limit d (t :: r) = .ok (s, ⟨r', h⟩)) :
    parseBlockBody limit d ts (t :: r) hr acc =
      parseBlockBody limit d ts r' (by omega) (acc.push s) := by
  rw [parseBlockBody]
  simp [hk.1, hk.2.1, hk.2.2, hs]

theorem parseProgramFrom_eof {t : Token} {r : List Token} {acc : Array Stmt}
    (ht : t.kind = .eof) : parseProgramFrom limit (t :: r) acc = .ok acc.toList := by
  rw [parseProgramFrom]
  simp [ht]

theorem parseProgramFrom_stmt {t : Token} {r r' : List Token} {s : Stmt} {acc : Array Stmt}
    {h : r'.length < (t :: r).length} (hk : t.kind ≠ .eof ∧ t.kind ≠ .semicolon)
    (hs : parseStatement limit 0 (t :: r) = .ok (s, ⟨r', h⟩)) :
    parseProgramFrom limit (t :: r) acc = parseProgramFrom limit r' (acc.push s) := by
  rw [parseProgramFrom]
  simp [hk.1, hk.2, hs]

theorem closeTokens_of_eof {ts : List Token} {p : Pos} :
    closeTokens (ts ++ [⟨.eof, "", p⟩]) = ts ++ [⟨.eof, "", p⟩] := by
  simp [closeTokens]

end Treewalk.Parser
