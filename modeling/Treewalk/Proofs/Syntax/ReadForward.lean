import Mathlib
import Treewalk.Proofs.Syntax.ParsedPositions
/-!
# The parser reads forward

The parser is defined by well-founded recursion on the tokens it has left, and, where one
function calls another on the same tokens, on the order of the functions. The types of its
results carry that the tokens left are fewer. Here it is shown what they are: what is left of the
input once tokens are read off its front, none of them an end of input. The end of input is a
sentinel that the parser looks at and never takes, so a token list without one at the back is
read as if one were there.

`Reads ts rest` says that `rest` is left of `ts` after such a read, and `ReadsOn ts x` says it of
the rest of every success of the parse step `x`. Every parsing function has a lemma saying so,
proved by the parser's own recursion; a loop (the statements of a block, parameters, properties,
arguments, operators, members and calls) is stated from the token it stands at. With the bound
the types carry, an expression, a statement, a block and an `if` read at least one token
(`Consumes`).
-/
namespace Treewalk.Parser

/-- `rest` is what is left of `ts` once tokens are read off its front, none an end of input. -/
def Reads (ts rest : List Token) : Prop :=
  ∃ pre, ts = pre ++ rest ∧ ∀ t ∈ pre, t.kind ≠ .eof

namespace Reads

variable {ts r r' rest : List Token} {t : Token}

theorem refl (ts : List Token) : Reads ts ts :=
  ⟨[], rfl, by simp⟩

theorem trans (h₁ : Reads ts r) (h₂ : Reads r r') : Reads ts r' := by
  obtain ⟨p₁, rfl, hp₁⟩ := h₁
  obtain ⟨p₂, rfl, hp₂⟩ := h₂
  refine ⟨p₁ ++ p₂, (List.append_assoc _ _ _).symm, fun u hu => ?_⟩
  rcases List.mem_append.1 hu with h | h
  · exact hp₁ u h
  · exact hp₂ u h

theorem tail (hk : t.kind ≠ .eof) : Reads (t :: rest) rest := by
  refine ⟨[t], rfl, fun u hu => ?_⟩
  rw [List.mem_singleton.1 hu]
  exact hk

theorem tail_of_eq {k : TokenKind} (hk : t.kind = k) (hne : k ≠ .eof) : Reads (t :: rest) rest :=
  tail (hk ▸ hne)

theorem of_expect {k : TokenKind} {hr : r.length < ts.length} (hk : k ≠ .eof)
    (he : expect k ts = .ok (t, ⟨r, hr⟩)) : Reads ts r := by
  obtain ⟨rfl, hkt⟩ := expect_ok he
  exact tail_of_eq hkt hk

theorem length_le (h : Reads ts r) : r.length ≤ ts.length := by
  obtain ⟨pre, rfl, -⟩ := h
  simp

theorem optional_lparen (r : List Token) :
    Reads r (if kindAt r = .lparen then r.drop 1 else r) := by
  split
  · next hk =>
    cases r with
    | nil => exact refl []
    | cons t rest => exact tail_of_eq hk (by decide)
  · exact refl r

end Reads

section ReadsOn

variable {α : Type} {P : List Token → Prop} {ts r₀ : List Token}

def ReadsOn (ts : List Token) (x : Except Error (α × Subtype P)) : Prop :=
  ∀ a r h, x = .ok (a, ⟨r, h⟩) → Reads ts r

theorem ReadsOn.error {e : Error} : ReadsOn ts (.error e : Except Error (α × Subtype P)) :=
  fun _ _ _ h => by cases h

theorem ReadsOn.ok {a : α} {r : List Token} {h : P r} (hr : Reads ts r) :
    ReadsOn ts (.ok (a, ⟨r, h⟩) : Except Error (α × Subtype P)) :=
  fun _ _ _ heq => by cases heq; exact hr

theorem ReadsOn.trans {x : Except Error (α × Subtype P)} (h : Reads ts r₀) (hx : ReadsOn r₀ x) :
    ReadsOn ts x :=
  fun a r hr heq => h.trans (hx a r hr heq)

end ReadsOn

variable {limit : Option Nat}

/-! ### Expressions -/

-- Each lemma below mirrors one parsing function: it takes the lemma of a called function
-- before splitting on its result, and chains the reads with `Reads.trans`.
mutual

theorem parseExpression_reads (d : Nat) (ts : List Token) :
    ReadsOn ts (parseExpression limit d ts) := by
  rw [parseExpression.eq_def]
  split
  · exact ReadsOn.error
  · exact parseAssignment_reads _ ts
termination_by (ts.length, 15)
decreasing_by all_goals (apply lex_of_lt_or; omega)

theorem parseAssignment_reads (d : Nat) (ts : List Token) :
    ReadsOn ts (parseAssignment limit d ts) := by
  rw [parseAssignment.eq_def]
  have h₁ := parseOperand_reads d ts
  split
  · exact ReadsOn.error
  · next lhs r₁ hr₁ hop =>
    have hR₁ := h₁ lhs r₁ hr₁ hop
    cases r₁ with
    | nil => exact ReadsOn.ok hR₁
    | cons t rest =>
      have hlt : rest.length < ts.length := Nat.lt_of_succ_lt hr₁
      dsimp only
      split
      · next hk =>
        have hR₂ := hR₁.trans (Reads.tail_of_eq hk (by decide))
        split
        · exact ReadsOn.error
        · have h₂ := parseExpression_reads d rest
          split
          · exact ReadsOn.error
          · next v r₂ hr₂ hv => exact ReadsOn.ok (hR₂.trans (h₂ v r₂ hr₂ hv))
      · exact ReadsOn.ok hR₁
termination_by (ts.length, 14)
decreasing_by all_goals (apply lex_of_lt_or; omega)

theorem parseOperand_reads (d : Nat) (ts : List Token) :
    ReadsOn ts (parseOperand limit d ts) := by
  cases ts with
  | nil =>
    rw [parseOperand.eq_def]
    exact parseAdditive_reads d []
  | cons t rest =>
    rw [parseOperand.eq_def]
    dsimp only
    split
    · next hk =>
      exact ReadsOn.trans (Reads.tail_of_eq hk (by decide)) (parseFields_reads d _ t.pos rest _ #[])
    · exact parseAdditive_reads d _
termination_by (ts.length, 13)
decreasing_by all_goals ((try simp only [List.length_cons]); apply lex_of_lt_or; omega)

theorem parseFields_reads (d : Nat) (ts : List Token) (bp : Pos) (r : List Token)
    (hr : r.length < ts.length) (acc : Array Field) :
    ReadsOn r (parseFields limit d ts bp r hr acc) := by
  match r, hr with
  | [], _ =>
    rw [parseFields.eq_def]
    exact ReadsOn.error
  | t :: rest, hr =>
    rw [parseFields.eq_def]
    dsimp only
    split
    · next hk => exact ReadsOn.ok (Reads.tail_of_eq hk (by decide))
    · split
      · next hk =>
        have ht : t.kind ≠ .eof := by rcases hk with hk | hk <;> rw [hk] <;> decide
        match rest, hr with
        | [], _ =>
          dsimp only
          split
          · exact ReadsOn.error
          · exact ReadsOn.trans (Reads.tail ht) (parseFieldsNext_reads d ts bp [] _ _)
        | c :: rest', hr =>
          have hR : Reads (t :: c :: rest') (c :: rest') := Reads.tail ht
          dsimp only
          split
          · next hc =>
            have hR' := hR.trans (Reads.tail_of_eq hc (by decide))
            have h₂ := parseExpression_reads d rest'
            split
            · exact ReadsOn.error
            · next v r₂ hr₂ hv =>
              exact ReadsOn.trans (hR'.trans (h₂ v r₂ hr₂ hv))
                (parseFieldsNext_reads d ts bp r₂ _ _)
          · split
            · exact ReadsOn.error
            · exact ReadsOn.trans hR (parseFieldsNext_reads d ts bp _ _ _)
      · exact ReadsOn.error
termination_by (r.length, 0)
decreasing_by all_goals ((try simp only [List.length_cons] at *); apply lex_of_lt_or; omega)

theorem parseFieldsNext_reads (d : Nat) (ts : List Token) (bp : Pos) (r : List Token)
    (hr : r.length < ts.length) (acc : Array Field) :
    ReadsOn r (parseFieldsNext limit d ts bp r hr acc) := by
  match r, hr with
  | [], _ =>
    rw [parseFieldsNext.eq_def]
    exact ReadsOn.error
  | t :: rest, hr =>
    rw [parseFieldsNext.eq_def]
    dsimp only
    split
    · next hk =>
      exact ReadsOn.trans (Reads.tail_of_eq hk (by decide)) (parseFields_reads d ts bp rest _ acc)
    · split
      · exact ReadsOn.error
      · next hx => exact ReadsOn.ok (Reads.of_expect (by decide) hx)
termination_by (r.length, 0)
decreasing_by all_goals ((try simp only [List.length_cons]); apply lex_of_lt_or; omega)

theorem parseAdditive_reads (d : Nat) (ts : List Token) :
    ReadsOn ts (parseAdditive limit d ts) := by
  rw [parseAdditive.eq_def]
  have h₁ := parseMultiplicative_reads d ts
  split
  · exact ReadsOn.error
  · next lhs r₁ hr₁ hl =>
    exact ReadsOn.trans (h₁ lhs r₁ hr₁ hl) (additiveTail_reads d ts lhs r₁ hr₁)
termination_by (ts.length, 12)
decreasing_by all_goals (apply lex_of_lt_or; omega)

theorem additiveTail_reads (d : Nat) (ts : List Token) (lhs : Expr) (r : List Token)
    (hr : r.length < ts.length) : ReadsOn r (additiveTail limit d ts lhs r hr) := by
  match r, hr with
  | [], _ =>
    rw [additiveTail.eq_def]
    exact ReadsOn.ok (Reads.refl [])
  | t :: rest, hr =>
    rw [additiveTail.eq_def]
    dsimp only
    split
    · next op hop =>
      have h₂ := parseMultiplicative_reads d rest
      split
      · exact ReadsOn.error
      · next rhs r₂ hr₂ hrhs =>
        exact ReadsOn.trans ((Reads.tail (additiveOp_ne_eof hop)).trans (h₂ rhs r₂ hr₂ hrhs))
          (additiveTail_reads d ts _ r₂ _)
    · exact ReadsOn.ok (Reads.refl _)
termination_by (r.length, 0)
decreasing_by all_goals ((try simp only [List.length_cons] at *); apply lex_of_lt_or; omega)

theorem parseMultiplicative_reads (d : Nat) (ts : List Token) :
    ReadsOn ts (parseMultiplicative limit d ts) := by
  rw [parseMultiplicative.eq_def]
  have h₁ := parsePostfix_reads d ts
  split
  · exact ReadsOn.error
  · next lhs r₁ hr₁ hl =>
    exact ReadsOn.trans (h₁ lhs r₁ hr₁ hl) (multiplicativeTail_reads d ts lhs r₁ hr₁)
termination_by (ts.length, 11)
decreasing_by all_goals (apply lex_of_lt_or; omega)

theorem multiplicativeTail_reads (d : Nat) (ts : List Token) (lhs : Expr) (r : List Token)
    (hr : r.length < ts.length) : ReadsOn r (multiplicativeTail limit d ts lhs r hr) := by
  match r, hr with
  | [], _ =>
    rw [multiplicativeTail.eq_def]
    exact ReadsOn.ok (Reads.refl [])
  | t :: rest, hr =>
    rw [multiplicativeTail.eq_def]
    dsimp only
    split
    · next op hop =>
      have h₂ := parsePostfix_reads d rest
      split
      · exact ReadsOn.error
      · next rhs r₂ hr₂ hrhs =>
        exact ReadsOn.trans ((Reads.tail (multiplicativeOp_ne_eof hop)).trans (h₂ rhs r₂ hr₂ hrhs))
          (multiplicativeTail_reads d ts _ r₂ _)
    · exact ReadsOn.ok (Reads.refl _)
termination_by (r.length, 0)
decreasing_by all_goals ((try simp only [List.length_cons] at *); apply lex_of_lt_or; omega)

theorem parsePostfix_reads (d : Nat) (ts : List Token) :
    ReadsOn ts (parsePostfix limit d ts) := by
  rw [parsePostfix.eq_def]
  have h₁ := parsePrimary_reads d ts
  split
  · exact ReadsOn.error
  · next a r₁ hr₁ ha => exact ReadsOn.trans (h₁ a r₁ hr₁ ha) (postfixTail_reads d ts a r₁ hr₁)
termination_by (ts.length, 10)
decreasing_by all_goals (apply lex_of_lt_or; omega)

theorem postfixTail_reads (d : Nat) (ts : List Token) (a : Expr) (r : List Token)
    (hr : r.length < ts.length) : ReadsOn r (postfixTail limit d ts a r hr) := by
  match r, hr with
  | [], _ =>
    rw [postfixTail.eq_def]
    exact ReadsOn.ok (Reads.refl [])
  | t :: rest, hr =>
    rw [postfixTail.eq_def]
    dsimp only
    split
    · -- a member `.name`
      next hk =>
      have hR : Reads (t :: rest) rest := Reads.tail_of_eq hk (by decide)
      split
      · exact ReadsOn.error
      · next name r₂ hr₂ hname =>
        exact ReadsOn.trans (hR.trans (Reads.of_expect (by decide) hname))
          (postfixTail_reads d ts _ r₂ _)
    · split
      · -- an index `[key]`
        next hk =>
        have hR : Reads (t :: rest) rest := Reads.tail_of_eq hk (by decide)
        have h₂ := parseExpression_reads d rest
        split
        · exact ReadsOn.error
        · next key r₂ hr₂ hkey =>
          have hR₂ := hR.trans (h₂ key r₂ hr₂ hkey)
          split
          · exact ReadsOn.error
          · next r₃ hr₃ hclose =>
            exact ReadsOn.trans (hR₂.trans (Reads.of_expect (by decide) hclose))
              (postfixTail_reads d ts _ r₃ _)
      · split
        · -- a call `(args)`
          next hk =>
          have hR : Reads (t :: rest) rest := Reads.tail_of_eq hk (by decide)
          have h₂ := parseArgs_reads d .rparen (by decide) rest rest (Nat.le_refl _) #[]
          split
          · exact ReadsOn.error
          · next args r₂ hr₂ hargs =>
            exact ReadsOn.trans (hR.trans (h₂ args r₂ hr₂ hargs)) (postfixTail_reads d ts _ r₂ _)
        · exact ReadsOn.ok (Reads.refl _)
termination_by (r.length, 0)
decreasing_by all_goals ((try simp only [List.length_cons] at *); apply lex_of_lt_or; omega)

theorem parseArgs_reads (d : Nat) (closer : TokenKind) (hc : closer ≠ .eof) (ts r : List Token)
    (hr : r.length ≤ ts.length) (acc : Array Expr) :
    ReadsOn r (parseArgs limit d closer ts r hr acc) := by
  rw [parseArgs.eq_def]
  split
  · split
    · exact ReadsOn.error
    · next hclose => exact ReadsOn.ok (Reads.of_expect hc hclose)
  · have h₁ := parseExpression_reads d r
    split
    · exact ReadsOn.error
    · next arg r₁ hr₁ harg =>
      have hR₁ := h₁ arg r₁ hr₁ harg
      cases r₁ with
      | nil => exact ReadsOn.error
      | cons t rest =>
        have hlt : rest.length < r.length := Nat.lt_of_succ_lt hr₁
        dsimp only
        split
        · next hk =>
          exact ReadsOn.trans (hR₁.trans (Reads.tail_of_eq hk (by decide)))
            (parseArgs_reads d closer hc ts rest _ _)
        · split
          · exact ReadsOn.error
          · next hclose => exact ReadsOn.ok (hR₁.trans (Reads.of_expect hc hclose))
termination_by (r.length, 16)
decreasing_by all_goals (apply lex_of_lt_or; omega)

theorem parsePrimary_reads (d : Nat) (ts : List Token) :
    ReadsOn ts (parsePrimary limit d ts) := by
  cases ts with
  | nil =>
    rw [parsePrimary.eq_def]
    exact ReadsOn.error
  | cons t rest =>
    rw [parsePrimary.eq_def]
    dsimp only
    split
    · next hk => exact ReadsOn.ok (Reads.tail_of_eq hk (by decide))
    · next hk => exact ReadsOn.ok (Reads.tail_of_eq hk (by decide))
    · next hk => exact ReadsOn.ok (Reads.tail_of_eq hk (by decide))
    · next hk =>
      have hR : Reads (t :: rest) rest := Reads.tail_of_eq hk (by decide)
      have h₁ := parseExpression_reads d rest
      split
      · exact ReadsOn.error
      · next a r₁ hr₁ ha =>
        have hR₁ := hR.trans (h₁ a r₁ hr₁ ha)
        split
        · exact ReadsOn.error
        · next hclose => exact ReadsOn.ok (hR₁.trans (Reads.of_expect (by decide) hclose))
    · next hk =>
      have hR : Reads (t :: rest) rest := Reads.tail_of_eq hk (by decide)
      have h₁ := parseArgs_reads d .rbracket (by decide) rest rest (Nat.le_refl _) #[]
      split
      · exact ReadsOn.error
      · next es r₁ hr₁ hes => exact ReadsOn.ok (hR.trans (h₁ es r₁ hr₁ hes))
    · exact ReadsOn.error
termination_by (ts.length, 9)
decreasing_by all_goals ((try simp only [List.length_cons]); apply lex_of_lt_or; omega)

end

/-! ### Statements -/

theorem parseParams_reads (ts : List Token) (acc : Array String) :
    ReadsOn ts (parseParams ts acc) := by
  rw [parseParams.eq_def]
  split
  · exact ReadsOn.ok (Reads.refl ts)
  · split
    · exact ReadsOn.error
    · next name r hr hname =>
      have hR := Reads.of_expect (by decide) hname
      cases r with
      | nil => exact ReadsOn.ok hR
      | cons t rest =>
        have hlt : rest.length < ts.length := Nat.lt_of_succ_lt hr
        dsimp only
        split
        · next hk =>
          have h₂ := parseParams_reads rest (acc.push name.lexeme)
          split
          · exact ReadsOn.error
          · next ps r' hr' hps =>
            exact ReadsOn.ok ((hR.trans (Reads.tail_of_eq hk (by decide))).trans (h₂ ps r' hr' hps))
        · exact ReadsOn.ok hR
termination_by ts.length

theorem parseExprStmt_reads (d : Nat) (ts : List Token) :
    ReadsOn ts (parseExprStmt limit d ts) := by
  rw [parseExprStmt.eq_def]
  have h₁ : ReadsOn ts (parseExpression limit d ts) :=
    parseExpression_reads d ts
  split
  · exact ReadsOn.error
  · next e r₁ hr₁ he =>
    have hR₁ := h₁ e r₁ hr₁ he
    cases r₁ with
    | nil => exact ReadsOn.ok hR₁
    | cons t rest =>
      dsimp only
      split
      · next hk => exact ReadsOn.ok (hR₁.trans (Reads.tail_of_eq hk (by decide)))
      · exact ReadsOn.ok hR₁

theorem parseVarTail_reads (d : Nat) (ts : List Token) (start : Pos) (isConst : Bool)
    (r : List Token) (hr : r.length < ts.length) :
    ReadsOn r (parseVarTail limit d ts start isConst r hr) := by
  rw [parseVarTail.eq_def]
  split
  · exact ReadsOn.error
  · next name r₁ h₁ hname =>
    have hR₁ := Reads.of_expect (by decide) hname
    cases r₁ with
    | nil =>
      dsimp only
      split <;> exact ReadsOn.error
    | cons t rest =>
      dsimp only
      split
      · next hk =>
        have hR₂ := hR₁.trans (Reads.tail_of_eq hk (by decide))
        have h₂ : ReadsOn rest (parseExpression limit d rest) :=
          parseExpression_reads d rest
        split
        · exact ReadsOn.error
        · next e r₂ hr₂ he =>
          have hR₃ := hR₂.trans (h₂ e r₂ hr₂ he)
          split
          · exact ReadsOn.error
          · next hsemi => exact ReadsOn.ok (hR₃.trans (Reads.of_expect (by decide) hsemi))
      · split
        · exact ReadsOn.error
        · split
          · exact ReadsOn.error
          · next hsemi => exact ReadsOn.ok (hR₁.trans (Reads.of_expect (by decide) hsemi))

theorem parseRet_reads (d : Nat) (ts : List Token) (start : Pos) (r : List Token)
    (hr : r.length < ts.length) : ReadsOn r (parseRet limit d ts start r hr) := by
  rw [parseRet.eq_def]
  split
  · split
    · exact ReadsOn.error
    · next hsemi => exact ReadsOn.ok (Reads.of_expect (by decide) hsemi)
  · have h₁ : ReadsOn r (parseExpression limit d r) :=
      parseExpression_reads d r
    split
    · exact ReadsOn.error
    · next e r₁ hr₁ he =>
      have hR₁ := h₁ e r₁ hr₁ he
      split
      · exact ReadsOn.error
      · next hsemi => exact ReadsOn.ok (hR₁.trans (Reads.of_expect (by decide) hsemi))

mutual

theorem parseStatement_reads (d : Nat) (ts : List Token) :
    ReadsOn ts (parseStatement limit d ts) := by
  cases ts with
  | nil =>
    rw [parseStatement.eq_def]
    exact parseExprStmt_reads d []
  | cons t rest =>
    rw [parseStatement.eq_def]
    dsimp only
    split
    · -- `let`, with or without `mut`
      next hk =>
      have hR : Reads (t :: rest) rest := Reads.tail_of_eq hk (by decide)
      cases rest with
      | nil => exact ReadsOn.trans hR (parseVarTail_reads d _ _ _ [] _)
      | cons m rest' =>
        dsimp only
        split
        · next hm =>
          exact ReadsOn.trans (hR.trans (Reads.tail_of_eq hm (by decide)))
            (parseVarTail_reads d _ _ _ rest' _)
        · exact ReadsOn.trans hR (parseVarTail_reads d _ _ _ _ _)
    · next hk =>
      exact ReadsOn.trans (Reads.tail_of_eq hk (by decide)) (parseVarTail_reads d _ _ true rest _)
    · next hk =>
      exact ReadsOn.trans (Reads.tail_of_eq hk (by decide)) (parseFunc_reads d _ _ rest _)
    · next hk => exact ReadsOn.trans (Reads.tail_of_eq hk (by decide)) (parseRet_reads d _ _ rest _)
    · exact parseIf_reads d _
    · next hk => exact ReadsOn.trans (Reads.tail_of_eq hk (by decide)) (parseFor_reads d _ _ rest _)
    · exact parseExprStmt_reads d _
termination_by (ts.length, 20)
decreasing_by all_goals ((try simp only [List.length_cons]); apply lex_of_lt_or; omega)

theorem parseFunc_reads (d : Nat) (ts : List Token) (start : Pos) (r : List Token)
    (hr : r.length < ts.length) : ReadsOn r (parseFunc limit d ts start r hr) := by
  rw [parseFunc.eq_def]
  split
  · exact ReadsOn.error
  · next name r₁ h₁ hname =>
    have hR₁ := Reads.of_expect (by decide) hname
    split
    · exact ReadsOn.error
    · next r₂ h₂ hl =>
      have hR₂ := hR₁.trans (Reads.of_expect (by decide) hl)
      have h₃ := parseParams_reads r₂ #[]
      split
      · exact ReadsOn.error
      · next ps r₃ hr₃ hps =>
        have hR₃ := hR₂.trans (h₃ ps r₃ hr₃ hps)
        split
        · exact ReadsOn.error
        · next r₄ h₄ hrp =>
          have hR₄ := hR₃.trans (Reads.of_expect (by decide) hrp)
          have h₅ := parseBlock_reads d r₄
          split
          · exact ReadsOn.error
          · next body r₅ hr₅ hbody => exact ReadsOn.ok (hR₄.trans (h₅ body r₅ hr₅ hbody))
termination_by (r.length, 0)
decreasing_by all_goals (apply lex_of_lt_or; omega)

theorem parseIf_reads (d : Nat) (ts : List Token) : ReadsOn ts (parseIf limit d ts) := by
  rw [parseIf.eq_def]
  split
  · exact ReadsOn.error
  · next ifTok r₁ h₁ hif =>
    have hR₁ := Reads.of_expect (by decide) hif
    have h₂ : ReadsOn r₁ (parseExpression limit d r₁) :=
      parseExpression_reads d r₁
    split
    · exact ReadsOn.error
    · next c r₂ hr₂ hc =>
      have hR₂ := hR₁.trans (h₂ c r₂ hr₂ hc)
      have h₃ := parseBlock_reads d r₂
      split
      · exact ReadsOn.error
      · next th r₃ hr₃ hth =>
        have hR₃ := hR₂.trans (h₃ th r₃ hr₃ hth)
        cases r₃ with
        | nil => exact ReadsOn.ok hR₃
        | cons t rest =>
          have hlt : rest.length < r₂.length := Nat.lt_of_succ_lt hr₃
          dsimp only
          split
          · next hk =>
            have hR₄ := hR₃.trans (Reads.tail_of_eq hk (by decide))
            split
            · -- `else if`: one level deeper
              split
              · exact ReadsOn.error
              · next d' _ =>
                have h₄ := parseIf_reads d' rest
                split
                · exact ReadsOn.error
                · next nested r₄ hr₄ hn => exact ReadsOn.ok (hR₄.trans (h₄ nested r₄ hr₄ hn))
            · have h₄ := parseBlock_reads d rest
              split
              · exact ReadsOn.error
              · next eb r₄ hr₄ heb => exact ReadsOn.ok (hR₄.trans (h₄ eb r₄ hr₄ heb))
          · exact ReadsOn.ok hR₃
termination_by (ts.length, 19)
decreasing_by all_goals (apply lex_of_lt_or; omega)

theorem parseFor_reads (d : Nat) (ts : List Token) (start : Pos) (r : List Token)
    (hr : r.length < ts.length) : ReadsOn r (parseFor limit d ts start r hr) := by
  rw [parseFor.eq_def]
  dsimp only
  have hR₀ := Reads.optional_lparen r
  have h₀ := hR₀.length_le
  split
  · exact ReadsOn.error
  · next name r₁ h₁ hname =>
    have hR₁ := hR₀.trans (Reads.of_expect (by decide) hname)
    split
    · exact ReadsOn.error
    · next r₂ h₂ hin =>
      have hR₂ := hR₁.trans (Reads.of_expect (by decide) hin)
      have h₃ : ReadsOn r₂ (parseExpression limit d r₂) :=
        parseExpression_reads d r₂
      split
      · exact ReadsOn.error
      · next it r₃ hr₃ hit =>
        have hR₃ := hR₂.trans (h₃ it r₃ hr₃ hit)
        split
        · exact ReadsOn.error
        · -- with parentheses, the `)` after the iterable
          next r₄ h₄ hcl =>
          have hR₄ : Reads r₃ r₄ := by
            split at hcl
            · split at hcl
              · cases hcl
              · next hx =>
                cases hcl
                exact Reads.of_expect (by decide) hx
            · cases hcl
          have h₅ := parseBlock_reads d r₄
          split
          · exact ReadsOn.error
          · next body r₅ hr₅ hbody =>
            exact ReadsOn.ok ((hR₃.trans hR₄).trans (h₅ body r₅ hr₅ hbody))
        · have h₅ := parseBlock_reads d r₃
          split
          · exact ReadsOn.error
          · next body r₅ hr₅ hbody => exact ReadsOn.ok (hR₃.trans (h₅ body r₅ hr₅ hbody))
termination_by (r.length, 0)
decreasing_by all_goals (apply lex_of_lt_or; omega)

theorem parseBlock_reads (d : Nat) (ts : List Token) :
    ReadsOn ts (parseBlock limit d ts) := by
  rw [parseBlock.eq_def]
  split
  · exact ReadsOn.error
  · next r₁ h₁ hl =>
    have hR₁ := Reads.of_expect (by decide) hl
    split
    · exact ReadsOn.error
    · next d' _ => exact ReadsOn.trans hR₁ (parseBlockBody_reads d' ts r₁ h₁ #[])
termination_by (ts.length, 0)
decreasing_by all_goals (apply lex_of_lt_or; omega)

theorem parseBlockBody_reads (d : Nat) (ts r : List Token) (hr : r.length < ts.length)
    (acc : Array Stmt) : ReadsOn r (parseBlockBody limit d ts r hr acc) := by
  match r, hr with
  | [], _ =>
    rw [parseBlockBody.eq_def]
    exact ReadsOn.error
  | t :: rest, hr =>
    rw [parseBlockBody.eq_def]
    dsimp only
    split
    · next hk => exact ReadsOn.ok (Reads.tail_of_eq hk (by decide))
    · split
      · exact ReadsOn.error
      · split
        · next hk =>
          exact ReadsOn.trans (Reads.tail_of_eq hk (by decide))
            (parseBlockBody_reads d ts rest _ acc)
        · have h₁ := parseStatement_reads d (t :: rest)
          split
          · exact ReadsOn.error
          · next s r₁ hr₁ hs =>
            have hlt : r₁.length < rest.length + 1 := hr₁
            exact ReadsOn.trans (h₁ s r₁ hr₁ hs) (parseBlockBody_reads d ts r₁ _ (acc.push s))
termination_by (r.length, 21)
decreasing_by all_goals ((try simp only [List.length_cons]); apply lex_of_lt_or; omega)

end

/-! ### At least one token -/

/-- Where the parse step `x` succeeds, it has read at least one token off the front of `ts`,
none of them an end of input. -/
def Consumes {α : Type} (ts : List Token) (x : Parsed ts α) : Prop :=
  ∀ a (r : Rest ts), x = .ok (a, r) → ∃ pre, pre ≠ [] ∧ ts = pre ++ r.1 ∧ ∀ t ∈ pre, t.kind ≠ .eof

theorem ReadsOn.consumes {α : Type} {ts : List Token} {x : Parsed ts α} (h : ReadsOn ts x) :
    Consumes ts x := by
  rintro a ⟨r, hr⟩ hx
  obtain ⟨pre, hts, hpre⟩ := h a r hr hx
  refine ⟨pre, ?_, hts, hpre⟩
  rintro rfl
  rw [hts, List.nil_append] at hr
  exact absurd hr (Nat.lt_irrefl _)

end Treewalk.Parser
