import Mathlib
import Treewalk.Proofs.Syntax.LexPrinted
/-!
# The parser keeps the lexer's names

Every name in a parsed program is the lexeme of an identifier token, and the lexer only makes
identifier tokens whose text reads back as a name; every number in it is the rounding of a
numeral, which is a literal. So every program that `parse` returns is well formed in the sense
of `Program.wellFormed`: no printed name or number of it could be misread.

The proof follows the parser's own recursion. Each parsing function has one lemma saying that
when its tokens hold only readable names, so does the rest it leaves, and its result is well
formed; the lemmas call each other at the same calls, under the same measure, as the functions
they are about.
-/
namespace Treewalk.Parser

theorem expect_ok {k : TokenKind} {ts : List Token} {t : Token} {r : List Token}
    {h : r.length < ts.length} (he : expect k ts = .ok (t, ⟨r, h⟩)) :
    ts = t :: r ∧ t.kind = k := by
  unfold expect at he
  split at he
  · split at he
    · simp only [Except.ok.injEq, Prod.mk.injEq, Subtype.mk.injEq] at he
      obtain ⟨rfl, rfl⟩ := he
      exact ⟨rfl, by assumption⟩
    · cases he
  · cases he

end Treewalk.Parser

namespace Treewalk.Lexer

open Treewalk.Parser

theorem NamesRead.tail {t : Token} {ts : List Token} (h : NamesRead (t :: ts)) : NamesRead ts :=
  fun u hu => h u (List.mem_cons_of_mem t hu)

theorem NamesRead.head {t : Token} {ts : List Token} (h : NamesRead (t :: ts))
    (hk : t.kind = .ident) : isName t.lexeme = true :=
  h t List.mem_cons_self hk

theorem NamesRead.of_expect {k : TokenKind} {ts : List Token} {t : Token} {r : List Token}
    {h : r.length < ts.length} (hN : NamesRead ts) (he : expect k ts = .ok (t, ⟨r, h⟩)) :
    NamesRead r := by
  obtain ⟨rfl, -⟩ := expect_ok he
  exact hN.tail

theorem NamesRead.expect_ident {ts : List Token} {t : Token} {r : List Token}
    {h : r.length < ts.length} (hN : NamesRead ts) (he : expect .ident ts = .ok (t, ⟨r, h⟩)) :
    isName t.lexeme = true := by
  obtain ⟨rfl, hk⟩ := expect_ok he
  exact hN.head hk

end Treewalk.Lexer

namespace Treewalk.Parser

open Lexer

variable {limit : Option Nat}

@[simp] theorem Expr.allWellFormed_append (es es' : List Expr) :
    Expr.allWellFormed (es ++ es') = (Expr.allWellFormed es && Expr.allWellFormed es') := by
  induction es with
  | nil => simp [Expr.allWellFormed]
  | cons e es ih => simp [Expr.allWellFormed, ih, Bool.and_assoc]

@[simp] theorem Field.allWellFormed_append (fs fs' : List Field) :
    Field.allWellFormed (fs ++ fs') = (Field.allWellFormed fs && Field.allWellFormed fs') := by
  induction fs with
  | nil => simp [Field.allWellFormed]
  | cons f fs ih => simp [Field.allWellFormed, ih, Bool.and_assoc]

@[simp] theorem Stmt.allWellFormed_append (ss ss' : List Stmt) :
    Stmt.allWellFormed (ss ++ ss') = (Stmt.allWellFormed ss && Stmt.allWellFormed ss') := by
  induction ss with
  | nil => simp [Stmt.allWellFormed]
  | cons s ss ih => simp [Stmt.allWellFormed, ih, Bool.and_assoc]

theorem Expr.wellFormed_of_toTarget? {e : Expr} {t : Target} (h : e.toTarget? = some t) :
    t.wellFormed = e.wellFormed := by
  cases e <;> simp only [Expr.toTarget?, Option.some.injEq, reduceCtorEq] at h <;> subst h <;>
    simp [Target.wellFormed, Expr.wellFormed]

/-- A parse step is sound when its result satisfies `P` and the rest it leaves still holds
only readable names. -/
def Sound {ts : List Token} {α : Type} (P : α → Prop) (x : Parsed ts α) : Prop :=
  ∀ a r h, x = .ok (a, ⟨r, h⟩) → P a ∧ NamesRead r

abbrev ExprOk (e : Expr) : Prop := e.wellFormed = true

theorem Sound.error {ts : List Token} {α : Type} {P : α → Prop} {e : Error} :
    Sound P (.error e : Parsed ts α) := by
  intro _ _ _ h
  cases h

theorem Sound.ok {ts : List Token} {α : Type} {P : α → Prop} {a : α} {r : List Token}
    {h : r.length < ts.length} (ha : P a) (hN : NamesRead r) :
    Sound P (.ok (a, ⟨r, h⟩) : Parsed ts α) := by
  intro _ _ _ heq
  cases heq
  exact ⟨ha, hN⟩

-- Each lemma below mirrors one parsing function: it splits where the function branches and calls
-- the lemma of every function that it calls, so the recursion is the parser's own. A list that
-- the function matches on is split with `cases` first, so that the measure sees its shape.
mutual

theorem parseExpression_sound (d : Nat) (ts : List Token) (hN : NamesRead ts) :
    Sound ExprOk (parseExpression limit d ts) := by
  rw [parseExpression.eq_def]
  split
  · exact Sound.error
  · exact parseAssignment_sound _ ts hN
termination_by (ts.length, 15)
decreasing_by all_goals (apply lex_of_lt_or; omega)

theorem parseAssignment_sound (d : Nat) (ts : List Token) (hN : NamesRead ts) :
    Sound ExprOk (parseAssignment limit d ts) := by
  rw [parseAssignment.eq_def]
  split
  · exact Sound.error
  · next lhs r₁ h₁ hop =>
    obtain ⟨hl, hN₁⟩ := parseOperand_sound d ts hN lhs r₁ h₁ hop
    cases r₁ with
    | nil => exact Sound.ok hl hN₁
    | cons t rest =>
      have hlt : rest.length < ts.length := Nat.lt_of_succ_lt h₁
      dsimp only
      split
      · split
        · exact Sound.error
        · next target ht =>
          split
          · exact Sound.error
          · next v r₂ h₂ hv =>
            obtain ⟨hv', hN₂⟩ := parseExpression_sound d rest hN₁.tail v r₂ h₂ hv
            refine Sound.ok ?_ hN₂
            simp [ExprOk, Expr.wellFormed, Expr.wellFormed_of_toTarget? ht, hl, hv']
      · exact Sound.ok hl hN₁
termination_by (ts.length, 14)
decreasing_by all_goals (apply lex_of_lt_or; omega)

theorem parseOperand_sound (d : Nat) (ts : List Token) (hN : NamesRead ts) :
    Sound ExprOk (parseOperand limit d ts) := by
  match ts, hN with
  | [], hN =>
    rw [parseOperand.eq_def]
    exact parseAdditive_sound d [] hN
  | t :: rest, hN =>
    rw [parseOperand.eq_def]
    dsimp only
    split
    · exact parseFields_sound d _ _ _ _ #[] rfl hN.tail
    · exact parseAdditive_sound d _ hN
termination_by (ts.length, 13)
decreasing_by all_goals ((try simp only [List.length_cons]); apply lex_of_lt_or; omega)

theorem parseFields_sound (d : Nat) (ts : List Token) (bp : Pos) (r : List Token)
    (hr : r.length < ts.length) (acc : Array Field) (hacc : Field.allWellFormed acc.toList = true)
    (hN : NamesRead r) : Sound ExprOk (parseFields limit d ts bp r hr acc) := by
  match r, hr, hN with
  | [], _, _ =>
    rw [parseFields.eq_def]
    exact Sound.error
  | t :: rest, hr, hN =>
    rw [parseFields.eq_def]
    dsimp only
    split
    · exact Sound.ok hacc hN.tail
    · split
      · next hk =>
        match rest, hr, hN with
        | [], _, hN =>
          dsimp only
          split
          · exact Sound.error
          · next hs =>
            have hi : isName t.lexeme = true := hN.head (hk.resolve_right hs)
            exact parseFieldsNext_sound d ts bp _ _ _
              (by simp [hacc, hi, Field.wellFormed, Field.allWellFormed]) hN.tail
        | c :: rest', _, hN =>
          dsimp only
          split
          · split
            · exact Sound.error
            · next v r₂ h₂ hv =>
              obtain ⟨hv', hN₂⟩ := parseExpression_sound d rest' hN.tail.tail v r₂ h₂ hv
              exact parseFieldsNext_sound d ts bp r₂ _ _
                (by simp [hacc, hv', Field.wellFormed, Field.allWellFormed]) hN₂
          · split
            · exact Sound.error
            · next hs =>
              have hi : isName t.lexeme = true := hN.head (hk.resolve_right hs)
              exact parseFieldsNext_sound d ts bp _ _ _
                (by simp [hacc, hi, Field.wellFormed, Field.allWellFormed]) hN.tail
      · exact Sound.error
termination_by (r.length, 0)
decreasing_by all_goals ((try simp only [List.length_cons]); apply lex_of_lt_or; omega)

theorem parseFieldsNext_sound (d : Nat) (ts : List Token) (bp : Pos) (r : List Token)
    (hr : r.length < ts.length) (acc : Array Field) (hacc : Field.allWellFormed acc.toList = true)
    (hN : NamesRead r) : Sound ExprOk (parseFieldsNext limit d ts bp r hr acc) := by
  match r, hr, hN with
  | [], _, _ =>
    rw [parseFieldsNext.eq_def]
    exact Sound.error
  | t :: rest, hr, hN =>
    rw [parseFieldsNext.eq_def]
    dsimp only
    split
    · exact parseFields_sound d ts bp rest _ acc hacc hN.tail
    · split
      · exact Sound.error
      · next hx => exact Sound.ok hacc (hN.of_expect hx)
termination_by (r.length, 0)
decreasing_by all_goals ((try simp only [List.length_cons]); apply lex_of_lt_or; omega)

theorem parseAdditive_sound (d : Nat) (ts : List Token) (hN : NamesRead ts) :
    Sound ExprOk (parseAdditive limit d ts) := by
  rw [parseAdditive.eq_def]
  split
  · exact Sound.error
  · next lhs r₁ h₁ hl =>
    obtain ⟨hl', hN₁⟩ := parseMultiplicative_sound d ts hN lhs r₁ h₁ hl
    exact additiveTail_sound d ts lhs r₁ h₁ hl' hN₁
termination_by (ts.length, 12)
decreasing_by all_goals (apply lex_of_lt_or; omega)

theorem additiveTail_sound (d : Nat) (ts : List Token) (lhs : Expr) (r : List Token)
    (hr : r.length < ts.length) (hl : ExprOk lhs) (hN : NamesRead r) :
    Sound ExprOk (additiveTail limit d ts lhs r hr) := by
  match r, hr, hN with
  | [], _, hN =>
    rw [additiveTail.eq_def]
    exact Sound.ok hl hN
  | t :: rest, hr, hN =>
    rw [additiveTail.eq_def]
    dsimp only
    split
    · split
      · exact Sound.error
      · next rhs r₂ h₂ hrhs =>
        obtain ⟨hrhs', hN₂⟩ := parseMultiplicative_sound d rest hN.tail rhs r₂ h₂ hrhs
        exact additiveTail_sound d ts _ r₂ _ (by simp [ExprOk, Expr.wellFormed, hl, hrhs']) hN₂
    · exact Sound.ok hl hN
termination_by (r.length, 0)
decreasing_by all_goals ((try simp only [List.length_cons]); apply lex_of_lt_or; omega)

theorem parseMultiplicative_sound (d : Nat) (ts : List Token) (hN : NamesRead ts) :
    Sound ExprOk (parseMultiplicative limit d ts) := by
  rw [parseMultiplicative.eq_def]
  split
  · exact Sound.error
  · next lhs r₁ h₁ hl =>
    obtain ⟨hl', hN₁⟩ := parsePostfix_sound d ts hN lhs r₁ h₁ hl
    exact multiplicativeTail_sound d ts lhs r₁ h₁ hl' hN₁
termination_by (ts.length, 11)
decreasing_by all_goals (apply lex_of_lt_or; omega)

theorem multiplicativeTail_sound (d : Nat) (ts : List Token) (lhs : Expr) (r : List Token)
    (hr : r.length < ts.length) (hl : ExprOk lhs) (hN : NamesRead r) :
    Sound ExprOk (multiplicativeTail limit d ts lhs r hr) := by
  match r, hr, hN with
  | [], _, hN =>
    rw [multiplicativeTail.eq_def]
    exact Sound.ok hl hN
  | t :: rest, hr, hN =>
    rw [multiplicativeTail.eq_def]
    dsimp only
    split
    · split
      · exact Sound.error
      · next rhs r₂ h₂ hrhs =>
        obtain ⟨hrhs', hN₂⟩ := parsePostfix_sound d rest hN.tail rhs r₂ h₂ hrhs
        exact multiplicativeTail_sound d ts _ r₂ _
          (by simp [ExprOk, Expr.wellFormed, hl, hrhs']) hN₂
    · exact Sound.ok hl hN
termination_by (r.length, 0)
decreasing_by all_goals ((try simp only [List.length_cons]); apply lex_of_lt_or; omega)

theorem parsePostfix_sound (d : Nat) (ts : List Token) (hN : NamesRead ts) :
    Sound ExprOk (parsePostfix limit d ts) := by
  rw [parsePostfix.eq_def]
  split
  · exact Sound.error
  · next a r₁ h₁ ha =>
    obtain ⟨ha', hN₁⟩ := parsePrimary_sound d ts hN a r₁ h₁ ha
    exact postfixTail_sound d ts a r₁ h₁ ha' hN₁
termination_by (ts.length, 10)
decreasing_by all_goals (apply lex_of_lt_or; omega)

theorem postfixTail_sound (d : Nat) (ts : List Token) (a : Expr) (r : List Token)
    (hr : r.length < ts.length) (ha : ExprOk a) (hN : NamesRead r) :
    Sound ExprOk (postfixTail limit d ts a r hr) := by
  match r, hr, hN with
  | [], _, hN =>
    rw [postfixTail.eq_def]
    exact Sound.ok ha hN
  | t :: rest, hr, hN =>
    rw [postfixTail.eq_def]
    dsimp only
    split
    · -- a member `.name`
      split
      · exact Sound.error
      · next name r₂ h₂ hname =>
        exact postfixTail_sound d ts _ r₂ _
          (by simp [ExprOk, Expr.wellFormed, ha, hN.tail.expect_ident hname])
          (hN.tail.of_expect hname)
    · split
      · -- an index `[key]`
        split
        · exact Sound.error
        · next key r₂ h₂ hkey =>
          obtain ⟨hkey', hN₂⟩ := parseExpression_sound d rest hN.tail key r₂ h₂ hkey
          split
          · exact Sound.error
          · next r₃ h₃ hclose =>
            exact postfixTail_sound d ts _ r₃ _
              (by simp [ExprOk, Expr.wellFormed, ha, hkey']) (hN₂.of_expect hclose)
      · split
        · -- a call `(args)`
          split
          · exact Sound.error
          · next args r₂ h₂ hargs =>
            obtain ⟨hargs', hN₂⟩ :=
              parseArgs_sound d .rparen rest rest _ #[] rfl hN.tail args r₂ h₂ hargs
            exact postfixTail_sound d ts _ r₂ _
              (by simp [ExprOk, Expr.wellFormed, ha, hargs']) hN₂
        · exact Sound.ok ha hN
termination_by (r.length, 0)
decreasing_by all_goals ((try simp only [List.length_cons]); apply lex_of_lt_or; omega)

theorem parseArgs_sound (d : Nat) (closer : TokenKind) (ts r : List Token)
    (hr : r.length ≤ ts.length) (acc : Array Expr) (hacc : Expr.allWellFormed acc.toList = true)
    (hN : NamesRead r) :
    Sound (fun es => Expr.allWellFormed es = true) (parseArgs limit d closer ts r hr acc) := by
  rw [parseArgs.eq_def]
  split
  · split
    · exact Sound.error
    · next hclose => exact Sound.ok hacc (hN.of_expect hclose)
  · split
    · exact Sound.error
    · next arg r₁ h₁ harg =>
      obtain ⟨harg', hN₁⟩ := parseExpression_sound d r hN arg r₁ h₁ harg
      have hpush : Expr.allWellFormed (acc.push arg).toList = true := by
        simp [hacc, harg', Expr.allWellFormed]
      cases r₁ with
      | nil => exact Sound.error
      | cons t rest =>
        have hlt : rest.length < r.length := Nat.lt_of_succ_lt h₁
        dsimp only
        split
        · exact parseArgs_sound d closer ts rest _ _ hpush hN₁.tail
        · split
          · exact Sound.error
          · next hclose => exact Sound.ok hpush (hN₁.of_expect hclose)
termination_by (r.length, 16)
decreasing_by all_goals (apply lex_of_lt_or; omega)

theorem parsePrimary_sound (d : Nat) (ts : List Token) (hN : NamesRead ts) :
    Sound ExprOk (parsePrimary limit d ts) := by
  match ts, hN with
  | [], _ =>
    rw [parsePrimary.eq_def]
    exact Sound.error
  | t :: rest, hN =>
    rw [parsePrimary.eq_def]
    dsimp only
    split
    · next hk => exact Sound.ok (by simp [ExprOk, Expr.wellFormed, hN.head hk]) hN.tail
    · exact Sound.ok (by simp [ExprOk, Expr.wellFormed, Numeral.isLiteral_toFloat]) hN.tail
    · exact Sound.ok (by simp [ExprOk, Expr.wellFormed]) hN.tail
    · split
      · exact Sound.error
      · next a r₁ h₁ ha =>
        obtain ⟨ha', hN₁⟩ := parseExpression_sound d rest hN.tail a r₁ h₁ ha
        split
        · exact Sound.error
        · next hclose => exact Sound.ok ha' (hN₁.of_expect hclose)
    · split
      · exact Sound.error
      · next es r₁ h₁ hes =>
        obtain ⟨hes', hN₁⟩ := parseArgs_sound d .rbracket rest rest _ #[] rfl hN.tail es r₁ h₁ hes
        exact Sound.ok (by simp [ExprOk, Expr.wellFormed, hes']) hN₁
    · exact Sound.error
termination_by (ts.length, 9)
decreasing_by all_goals ((try simp only [List.length_cons]); apply lex_of_lt_or; omega)

end

/-! ### Statements -/

abbrev StmtOk (s : Stmt) : Prop := s.wellFormed = true

abbrev StmtsOk (ss : List Stmt) : Prop := Stmt.allWellFormed ss = true

theorem parseParams_sound (ts : List Token) (acc : Array String) :
    NamesRead ts → acc.toList.all isName = true →
    ∀ ps r h, parseParams ts acc = .ok (ps, ⟨r, h⟩) → ps.all isName = true ∧ NamesRead r := by
  fun_induction parseParams ts acc with
  | case1 ts acc hk =>
    intro hN hacc ps r h heq
    cases heq
    exact ⟨hacc, hN⟩
  | case2 => intro _ _ _ _ _ heq; cases heq
  | case3 => intro _ _ _ _ _ heq; cases heq
  | case4 ts acc _ name t rest _ _ ps' r' hr' hps _ hname ih =>
    intro hN hacc ps r h heq
    cases heq
    exact ih (hN.of_expect hname).tail
      (by simp [hacc, hN.expect_ident hname]) ps' r' hr' hps
  | case5 ts acc _ name t rest _ _ _ hname =>
    intro hN hacc ps r h heq
    cases heq
    exact ⟨by simp [hacc, hN.expect_ident hname], hN.of_expect hname⟩
  | case6 ts acc _ name _ _ hname =>
    intro hN hacc ps r h heq
    cases heq
    exact ⟨by simp [hacc, hN.expect_ident hname], fun _ h => absurd h List.not_mem_nil⟩

theorem parseExprStmt_sound (d : Nat) (ts : List Token) (hN : NamesRead ts) :
    Sound StmtOk (parseExprStmt limit d ts) := by
  rw [parseExprStmt.eq_def]
  split
  · exact Sound.error
  · next e r₁ h₁ he =>
    obtain ⟨he', hN₁⟩ := parseExpression_sound d ts hN e r₁ h₁ he
    cases r₁ with
    | nil => exact Sound.ok he' hN₁
    | cons t rest =>
      dsimp only
      split
      · exact Sound.ok he' hN₁.tail
      · exact Sound.ok he' hN₁

theorem parseVarTail_sound (d : Nat) (ts : List Token) (start : Pos) (isConst : Bool)
    (r : List Token) (hr : r.length < ts.length) (hN : NamesRead r) :
    Sound StmtOk (parseVarTail limit d ts start isConst r hr) := by
  rw [parseVarTail.eq_def]
  split
  · exact Sound.error
  · next name r₁ h₁ hname =>
    have hx := hN.expect_ident hname
    have hN₁ := hN.of_expect hname
    cases r₁ with
    | nil =>
      dsimp only
      split <;> exact Sound.error
    | cons t rest =>
      dsimp only
      split
      · split
        · exact Sound.error
        · next e r₂ h₂ he =>
          obtain ⟨he', hN₂⟩ := parseExpression_sound d rest hN₁.tail e r₂ h₂ he
          split
          · exact Sound.error
          · next hsemi =>
            refine Sound.ok ?_ (hN₂.of_expect hsemi)
            cases isConst <;> simp [StmtOk, Stmt.wellFormed, hx, he']
      · split
        · exact Sound.error
        · split
          · exact Sound.error
          · next hsemi => exact Sound.ok (by simp [StmtOk, Stmt.wellFormed, hx]) (hN₁.of_expect hsemi)

theorem parseRet_sound (d : Nat) (ts : List Token) (start : Pos) (r : List Token)
    (hr : r.length < ts.length) (hN : NamesRead r) :
    Sound StmtOk (parseRet limit d ts start r hr) := by
  rw [parseRet.eq_def]
  split
  · split
    · exact Sound.error
    · next hsemi => exact Sound.ok (by simp [StmtOk, Stmt.wellFormed]) (hN.of_expect hsemi)
  · split
    · exact Sound.error
    · next e r₁ h₁ he =>
      obtain ⟨he', hN₁⟩ := parseExpression_sound d r hN e r₁ h₁ he
      split
      · exact Sound.error
      · next hsemi => exact Sound.ok (by simp [StmtOk, Stmt.wellFormed, he']) (hN₁.of_expect hsemi)

theorem NamesRead.drop {ts : List Token} (h : NamesRead ts) (n : Nat) : NamesRead (ts.drop n) :=
  fun u hu => h u (List.mem_of_mem_drop hu)

mutual

theorem parseStatement_sound (d : Nat) (ts : List Token) (hN : NamesRead ts) :
    Sound StmtOk (parseStatement limit d ts) := by
  match ts, hN with
  | [], hN =>
    rw [parseStatement.eq_def]
    exact parseExprStmt_sound d [] hN
  | t :: rest, hN =>
    rw [parseStatement.eq_def]
    dsimp only
    split
    · -- `let`, with or without `mut`
      cases rest with
      | nil => exact parseVarTail_sound d _ _ _ [] _ hN.tail
      | cons m rest' =>
        dsimp only
        split
        · exact parseVarTail_sound d _ _ _ rest' _ hN.tail.tail
        · exact parseVarTail_sound d _ _ _ _ _ hN.tail
    · exact parseVarTail_sound d _ _ true rest _ hN.tail
    · exact parseFunc_sound d _ _ rest _ hN.tail
    · exact parseRet_sound d _ _ rest _ hN.tail
    · exact parseIf_sound d _ hN
    · exact parseFor_sound d _ _ rest _ hN.tail
    · exact parseExprStmt_sound d _ hN
termination_by (ts.length, 20)
decreasing_by all_goals ((try simp only [List.length_cons]); apply lex_of_lt_or; omega)

theorem parseFunc_sound (d : Nat) (ts : List Token) (start : Pos) (r : List Token)
    (hr : r.length < ts.length) (hN : NamesRead r) :
    Sound StmtOk (parseFunc limit d ts start r hr) := by
  rw [parseFunc.eq_def]
  split
  · exact Sound.error
  · next name r₁ h₁ hname =>
    split
    · exact Sound.error
    · next r₂ h₂ hl =>
      split
      · exact Sound.error
      · next ps r₃ h₃ hps =>
        obtain ⟨hps', hN₃⟩ := parseParams_sound r₂ #[] ((hN.of_expect hname).of_expect hl) rfl
          ps r₃ h₃ hps
        split
        · exact Sound.error
        · next r₄ h₄ hrp =>
          split
          · exact Sound.error
          · next body r₅ h₅ hbody =>
            obtain ⟨hbody', hN₅⟩ := parseBlock_sound d r₄ (hN₃.of_expect hrp) body r₅ h₅ hbody
            refine Sound.ok ?_ hN₅
            simp [StmtOk, Stmt.wellFormed, hN.expect_ident hname, hps', hbody']
termination_by (r.length, 0)
decreasing_by all_goals (apply lex_of_lt_or; omega)

theorem parseIf_sound (d : Nat) (ts : List Token) (hN : NamesRead ts) :
    Sound StmtOk (parseIf limit d ts) := by
  rw [parseIf.eq_def]
  split
  · exact Sound.error
  · next ifTok r₁ h₁ hif =>
    split
    · exact Sound.error
    · next c r₂ h₂ hc =>
      obtain ⟨hc', hN₂⟩ := parseExpression_sound d r₁ (hN.of_expect hif) c r₂ h₂ hc
      split
      · exact Sound.error
      · next th r₃ h₃ hth =>
        obtain ⟨hth', hN₃⟩ := parseBlock_sound d r₂ hN₂ th r₃ h₃ hth
        cases r₃ with
        | nil =>
          exact Sound.ok (by simp [StmtOk, Stmt.wellFormed, hc', hth']) hN₃
        | cons t rest =>
          have hlt : rest.length < r₂.length := Nat.lt_of_succ_lt h₃
          dsimp only
          split
          · split
            · -- `else if`: one level deeper
              split
              · exact Sound.error
              · next d' _ =>
                split
                · exact Sound.error
                · next nested r₄ h₄ hn =>
                  obtain ⟨hn', hN₄⟩ := parseIf_sound d' rest hN₃.tail nested r₄ h₄ hn
                  refine Sound.ok ?_ hN₄
                  simp [StmtOk, Stmt.wellFormed, Stmt.allWellFormed, hc', hth', hn']
            · split
              · exact Sound.error
              · next eb r₄ h₄ heb =>
                obtain ⟨heb', hN₄⟩ := parseBlock_sound d rest hN₃.tail eb r₄ h₄ heb
                exact Sound.ok (by simp [StmtOk, Stmt.wellFormed, hc', hth', heb']) hN₄
          · exact Sound.ok (by simp [StmtOk, Stmt.wellFormed, hc', hth']) hN₃
termination_by (ts.length, 19)
decreasing_by all_goals (apply lex_of_lt_or; omega)

theorem parseFor_sound (d : Nat) (ts : List Token) (start : Pos) (r : List Token)
    (hr : r.length < ts.length) (hN : NamesRead r) :
    Sound StmtOk (parseFor limit d ts start r hr) := by
  rw [parseFor.eq_def]
  dsimp only
  have hN₀ : NamesRead (if kindAt r = .lparen then r.drop 1 else r) := by
    split
    · exact NamesRead.drop hN 1
    · exact hN
  have h₀ : (if kindAt r = .lparen then r.drop 1 else r).length ≤ r.length := by
    split <;> simp
  split
  · exact Sound.error
  · next name r₁ h₁ hname =>
    split
    · exact Sound.error
    · next r₂ h₂ hin =>
      split
      · exact Sound.error
      · next it r₃ h₃ hit =>
        obtain ⟨hit', hN₃⟩ :=
          parseExpression_sound d r₂ ((hN₀.of_expect hname).of_expect hin) it r₃ h₃ hit
        split
        · exact Sound.error
        · next r₄ h₄ hcl =>
          have hN₄ : NamesRead r₄ := by
            split at hcl
            · split at hcl
              · cases hcl
              · next hx =>
                cases hcl
                exact hN₃.of_expect hx
            · cases hcl
          split
          · exact Sound.error
          · next body r₅ h₅ hbody =>
            obtain ⟨hbody', hN₅⟩ := parseBlock_sound d r₄ hN₄ body r₅ h₅ hbody
            refine Sound.ok ?_ hN₅
            simp [StmtOk, Stmt.wellFormed, hN₀.expect_ident hname, hit', hbody']
        · split
          · exact Sound.error
          · next body r₅ h₅ hbody =>
            obtain ⟨hbody', hN₅⟩ := parseBlock_sound d r₃ hN₃ body r₅ h₅ hbody
            refine Sound.ok ?_ hN₅
            simp [StmtOk, Stmt.wellFormed, hN₀.expect_ident hname, hit', hbody']
termination_by (r.length, 0)
decreasing_by all_goals (apply lex_of_lt_or; omega)

theorem parseBlock_sound (d : Nat) (ts : List Token) (hN : NamesRead ts) :
    Sound StmtsOk (parseBlock limit d ts) := by
  rw [parseBlock.eq_def]
  split
  · exact Sound.error
  · next r₁ h₁ hl =>
    split
    · exact Sound.error
    · next d' _ => exact parseBlockBody_sound d' ts r₁ h₁ #[] rfl (hN.of_expect hl)
termination_by (ts.length, 0)
decreasing_by all_goals (apply lex_of_lt_or; omega)

theorem parseBlockBody_sound (d : Nat) (ts r : List Token) (hr : r.length < ts.length)
    (acc : Array Stmt) (hacc : Stmt.allWellFormed acc.toList = true) (hN : NamesRead r) :
    Sound StmtsOk (parseBlockBody limit d ts r hr acc) := by
  match r, hr, hN with
  | [], _, _ =>
    rw [parseBlockBody.eq_def]
    exact Sound.error
  | t :: rest, hr, hN =>
    rw [parseBlockBody.eq_def]
    dsimp only
    split
    · exact Sound.ok hacc hN.tail
    · split
      · exact Sound.error
      · split
        · exact parseBlockBody_sound d ts rest _ acc hacc hN.tail
        · split
          · exact Sound.error
          · next s r₁ h₁ hs =>
            obtain ⟨hs', hN₁⟩ := parseStatement_sound d (t :: rest) hN s r₁ h₁ hs
            have hlt : r₁.length < rest.length + 1 := h₁
            exact parseBlockBody_sound d ts r₁ _ (acc.push s)
              (by simp [hacc, hs', Stmt.allWellFormed]) hN₁
termination_by (r.length, 21)
decreasing_by all_goals ((try simp only [List.length_cons]); apply lex_of_lt_or; omega)

end

/-! ### Programs -/

theorem parseProgramFrom_wellFormed (ts : List Token) (acc : Array Stmt) :
    NamesRead ts → Stmt.allWellFormed acc.toList = true →
    ∀ p, parseProgramFrom limit ts acc = .ok p → p.wellFormed = true := by
  fun_induction parseProgramFrom limit ts acc with
  | case1 acc t tail hk =>
    intro _ hacc p h
    cases h
    exact hacc
  | case2 acc t tail hk hsemi ih =>
    intro hN hacc p h
    exact ih hN.tail hacc p h
  | case3 => intro _ _ _ h; cases h
  | case4 acc t tail hk hsemi s r' hr' hs ih =>
    intro hN hacc p h
    obtain ⟨hs', hN'⟩ := parseStatement_sound 0 (t :: tail) hN s r' hr' hs
    exact ih hN' (by simp [hacc, hs', Stmt.allWellFormed]) p h
  | case5 acc =>
    intro _ hacc p h
    cases h
    exact hacc

theorem namesRead_closeTokens {ts : List Token} (hN : NamesRead ts) :
    NamesRead (closeTokens ts) := by
  unfold Parser.closeTokens
  split
  · split
    · exact hN
    · exact hN.push (namesRead_of_ne (by simp))
  · exact namesRead_of_ne (by simp)

theorem parseTokensWith_wellFormed {ts : List Token} {p : Program} (hN : NamesRead ts)
    (h : parseTokensWith limit ts = .ok p) : p.wellFormed = true :=
  parseProgramFrom_wellFormed _ #[] (namesRead_closeTokens hN) rfl p h

/-- Every program that `parse` returns is well formed: its names all read back as names. -/
theorem parse_wellFormed {src : String} {p : Program} (h : parse src = .ok p) :
    p.wellFormed = true := by
  unfold parse at h
  split at h
  · cases h
  · next ts hts => exact parseTokensWith_wellFormed (tokenize_names hts) h

end Treewalk.Parser
