import Mathlib
import Treewalk.Proofs.Syntax.ReadForward
import Treewalk.Proofs.Syntax.NestingLimit
/-!
# The parser terminates

The parser is a recursive descent whose loops and re-entries are recursion on the tokens left:
every loop of it goes round again only after reading a token, and it enters an expression, a
block or an `if` again only after reading one, so it terminates on every token list, with or
without an end of input at the back. What it returns bears this out (`ReadsForward`): every
expression, statement, block and `if` it reads takes at least one token off the front of its
input, and every loop reads on from where it stands.

The levels it enters are paid for by tokens too. Along any run with no limit the nesting counter
rises at most one level above where the run starts, plus one level for each token in front of
the first end of input (`peakExpression_le` and its companions, for `nestingPeak`). So a nesting
limit above the number of tokens never stops a parse.
-/
namespace Treewalk.Parser

/-! ### Tokens in front of the end of input -/

def tokensBeforeEnd : List Token → Nat
  | [] => 0
  | t :: rest => if t.kind = .eof then 0 else tokensBeforeEnd rest + 1

section TokensBeforeEnd

variable {ts r rest : List Token} {t : Token}

theorem tokensBeforeEnd_cons (hk : t.kind ≠ .eof) :
    tokensBeforeEnd (t :: rest) = tokensBeforeEnd rest + 1 := by
  simp [tokensBeforeEnd, hk]

theorem tokensBeforeEnd_cons_of_eq {k : TokenKind} (hk : t.kind = k) (hne : k ≠ .eof) :
    tokensBeforeEnd (t :: rest) = tokensBeforeEnd rest + 1 :=
  tokensBeforeEnd_cons (hk ▸ hne)

theorem tokensBeforeEnd_le_length (ts : List Token) : tokensBeforeEnd ts ≤ ts.length := by
  induction ts with
  | nil => exact Nat.le_refl 0
  | cons t rest ih =>
    by_cases hk : t.kind = .eof
    · simp [tokensBeforeEnd, hk]
    · rw [tokensBeforeEnd_cons hk, List.length_cons]
      omega

theorem tokensBeforeEnd_append_eof {e : Token} (he : e.kind = .eof) (ts : List Token) :
    tokensBeforeEnd (ts ++ [e]) = tokensBeforeEnd ts := by
  induction ts with
  | nil => simp [tokensBeforeEnd, he]
  | cons t rest ih =>
    by_cases hk : t.kind = .eof
    · simp [tokensBeforeEnd, hk]
    · rw [List.cons_append, tokensBeforeEnd_cons hk, tokensBeforeEnd_cons hk, ih]

theorem tokensBeforeEnd_closeTokens (ts : List Token) :
    tokensBeforeEnd (closeTokens ts) = tokensBeforeEnd ts := by
  unfold closeTokens
  split
  · split
    · rfl
    · exact tokensBeforeEnd_append_eof rfl ts
  · next h =>
    rw [List.getLast?_eq_none_iff.1 h]
    simp [tokensBeforeEnd]

theorem Reads.tokensBeforeEnd_add (h : Reads ts r) :
    tokensBeforeEnd r + ts.length = tokensBeforeEnd ts + r.length := by
  obtain ⟨pre, rfl, hpre⟩ := h
  induction pre with
  | nil => simp
  | cons u pre ih =>
    have hu := hpre u List.mem_cons_self
    have ih' := ih (fun v hv => hpre v (List.mem_cons_of_mem u hv))
    rw [List.cons_append, tokensBeforeEnd_cons hu, List.length_cons]
    omega

theorem Reads.tokensBeforeEnd_le (h : Reads ts r) : tokensBeforeEnd r ≤ tokensBeforeEnd ts := by
  have h₁ := h.tokensBeforeEnd_add
  have h₂ := h.length_le
  omega

theorem Reads.tokensBeforeEnd_lt (h : Reads ts r) (hr : r.length < ts.length) :
    tokensBeforeEnd r < tokensBeforeEnd ts := by
  have h₁ := h.tokensBeforeEnd_add
  omega

theorem ReadsOn.tokensBeforeEnd_lt {α : Type} {x : Parsed ts α} {a : α}
    {hr : r.length < ts.length} (h : ReadsOn ts x) (hx : x = .ok (a, ⟨r, hr⟩)) :
    tokensBeforeEnd r < tokensBeforeEnd ts :=
  (h a r hr hx).tokensBeforeEnd_lt hr

end TokensBeforeEnd

/-! ### Levels are paid for by tokens -/

-- Each lemma below mirrors one `peak` function. A function that enters its level before it
-- reads (an expression, the arguments, the properties, a statement, a block) may rise one level
-- above its start with nothing read; one that runs at the level already entered (assignment,
-- operators, members, primaries) rises only past a token it reads first.
mutual

theorem peakExpression_le (d : Nat) (ts : List Token) :
    peakExpression d ts ≤ d + 1 + tokensBeforeEnd ts := by
  rw [peakExpression]
  exact max_le (by omega) (peakAssignment_le (d + 1) ts)
termination_by (ts.length, 15)
decreasing_by all_goals (apply lex_of_lt_or; omega)

theorem peakAssignment_le (d : Nat) (ts : List Token) :
    peakAssignment d ts ≤ d + tokensBeforeEnd ts := by
  rw [peakAssignment]
  refine max_le (peakOperand_le d ts) ?_
  split
  · exact Nat.zero_le _
  · next lhs r₁ hr₁ hop =>
    have hR₁ := parseOperand_reads d ts lhs r₁ hr₁ hop
    cases r₁ with
    | nil => exact Nat.zero_le _
    | cons t rest =>
      have hlt : rest.length < ts.length := Nat.lt_of_succ_lt hr₁
      dsimp only
      split
      · next hk =>
        split
        · exact Nat.zero_le _
        · -- the value is read after the operand and the `=`
          have h₁ := (hR₁.trans (Reads.tail_of_eq hk (by decide))).tokensBeforeEnd_lt hlt
          have h₂ := peakExpression_le d rest
          omega
      · exact Nat.zero_le _
termination_by (ts.length, 14)
decreasing_by all_goals (apply lex_of_lt_or; omega)

theorem peakOperand_le (d : Nat) (ts : List Token) :
    peakOperand d ts ≤ d + tokensBeforeEnd ts := by
  match ts with
  | [] =>
    rw [peakOperand.eq_def]
    exact peakAdditive_le d []
  | t :: rest =>
    rw [peakOperand.eq_def]
    dsimp only
    split
    · next hk =>
      have h₁ := peakFields_le d rest
      rw [tokensBeforeEnd_cons_of_eq hk (by decide)]
      omega
    · exact peakAdditive_le d _
termination_by (ts.length, 13)
decreasing_by all_goals ((try simp only [List.length_cons]); apply lex_of_lt_or; omega)

theorem peakFields_le (d : Nat) (r : List Token) :
    peakFields d r ≤ d + 1 + tokensBeforeEnd r := by
  match r with
  | [] =>
    rw [peakFields.eq_def]
    exact Nat.zero_le _
  | t :: rest =>
    rw [peakFields.eq_def]
    dsimp only
    split
    · exact Nat.zero_le _
    · split
      · next hk =>
        have ht : t.kind ≠ .eof := by rcases hk with hk | hk <;> rw [hk] <;> decide
        rw [tokensBeforeEnd_cons ht]
        match rest with
        | [] =>
          dsimp only
          split
          · exact Nat.zero_le _
          · have h₁ := peakFieldsNext_le d []
            omega
        | c :: rest' =>
          dsimp only
          split
          · next hc =>
            rw [tokensBeforeEnd_cons_of_eq hc (by decide)]
            refine max_le (by have h₁ := peakExpression_le d rest'; omega) ?_
            split
            · exact Nat.zero_le _
            · next v r₂ hr₂ hv =>
              have h₁ := (parseExpression_reads d rest').tokensBeforeEnd_lt hv
              have h₂ := peakFieldsNext_le d r₂
              omega
          · split
            · exact Nat.zero_le _
            · have h₁ := peakFieldsNext_le d (c :: rest')
              omega
      · exact Nat.zero_le _
termination_by (r.length, 1)
decreasing_by all_goals ((try simp only [List.length_cons] at *); apply lex_of_lt_or; omega)

theorem peakFieldsNext_le (d : Nat) (r : List Token) :
    peakFieldsNext d r ≤ d + 1 + tokensBeforeEnd r := by
  match r with
  | [] =>
    rw [peakFieldsNext.eq_def]
    exact Nat.zero_le _
  | t :: rest =>
    rw [peakFieldsNext.eq_def]
    dsimp only
    split
    · next hk =>
      have h₁ := peakFields_le d rest
      rw [tokensBeforeEnd_cons_of_eq hk (by decide)]
      omega
    · exact Nat.zero_le _
termination_by (r.length, 0)
decreasing_by all_goals ((try simp only [List.length_cons]); apply lex_of_lt_or; omega)

theorem peakAdditive_le (d : Nat) (ts : List Token) :
    peakAdditive d ts ≤ d + tokensBeforeEnd ts := by
  rw [peakAdditive]
  refine max_le (peakMultiplicative_le d ts) ?_
  split
  · exact Nat.zero_le _
  · next lhs r₁ hr₁ hl =>
    have h₁ := (parseMultiplicative_reads d ts).tokensBeforeEnd_lt hl
    have h₂ := peakAdditiveTail_le d r₁
    omega
termination_by (ts.length, 12)
decreasing_by all_goals (apply lex_of_lt_or; omega)

theorem peakAdditiveTail_le (d : Nat) (r : List Token) :
    peakAdditiveTail d r ≤ d + tokensBeforeEnd r := by
  match r with
  | [] =>
    rw [peakAdditiveTail.eq_def]
    exact Nat.zero_le _
  | t :: rest =>
    rw [peakAdditiveTail.eq_def]
    dsimp only
    split
    · next op hop =>
      rw [tokensBeforeEnd_cons (additiveOp_ne_eof hop)]
      refine max_le (by have h₁ := peakMultiplicative_le d rest; omega) ?_
      split
      · exact Nat.zero_le _
      · next rhs r₂ hr₂ hrhs =>
        have h₁ := (parseMultiplicative_reads d rest).tokensBeforeEnd_lt hrhs
        have h₂ := peakAdditiveTail_le d r₂
        omega
    · exact Nat.zero_le _
termination_by (r.length, 0)
decreasing_by all_goals ((try simp only [List.length_cons] at *); apply lex_of_lt_or; omega)

theorem peakMultiplicative_le (d : Nat) (ts : List Token) :
    peakMultiplicative d ts ≤ d + tokensBeforeEnd ts := by
  rw [peakMultiplicative]
  refine max_le (peakPostfix_le d ts) ?_
  split
  · exact Nat.zero_le _
  · next lhs r₁ hr₁ hl =>
    have h₁ := (parsePostfix_reads d ts).tokensBeforeEnd_lt hl
    have h₂ := peakMultiplicativeTail_le d r₁
    omega
termination_by (ts.length, 11)
decreasing_by all_goals (apply lex_of_lt_or; omega)

theorem peakMultiplicativeTail_le (d : Nat) (r : List Token) :
    peakMultiplicativeTail d r ≤ d + tokensBeforeEnd r := by
  match r with
  | [] =>
    rw [peakMultiplicativeTail.eq_def]
    exact Nat.zero_le _
  | t :: rest =>
    rw [peakMultiplicativeTail.eq_def]
    dsimp only
    split
    · next op hop =>
      rw [tokensBeforeEnd_cons (multiplicativeOp_ne_eof hop)]
      refine max_le (by have h₁ := peakPostfix_le d rest; omega) ?_
      split
      · exact Nat.zero_le _
      · next rhs r₂ hr₂ hrhs =>
        have h₁ := (parsePostfix_reads d rest).tokensBeforeEnd_lt hrhs
        have h₂ := peakMultiplicativeTail_le d r₂
        omega
    · exact Nat.zero_le _
termination_by (r.length, 0)
decreasing_by all_goals ((try simp only [List.length_cons] at *); apply lex_of_lt_or; omega)

theorem peakPostfix_le (d : Nat) (ts : List Token) :
    peakPostfix d ts ≤ d + tokensBeforeEnd ts := by
  rw [peakPostfix]
  refine max_le (peakPrimary_le d ts) ?_
  split
  · exact Nat.zero_le _
  · next a r₁ hr₁ ha =>
    have h₁ := (parsePrimary_reads d ts).tokensBeforeEnd_lt ha
    have h₂ := peakPostfixTail_le d r₁
    omega
termination_by (ts.length, 10)
decreasing_by all_goals (apply lex_of_lt_or; omega)

theorem peakPostfixTail_le (d : Nat) (r : List Token) :
    peakPostfixTail d r ≤ d + tokensBeforeEnd r := by
  match r with
  | [] =>
    rw [peakPostfixTail.eq_def]
    exact Nat.zero_le _
  | t :: rest =>
    rw [peakPostfixTail.eq_def]
    dsimp only
    split
    · -- a member `.name`
      next hk =>
      rw [tokensBeforeEnd_cons_of_eq hk (by decide)]
      split
      · exact Nat.zero_le _
      · next name r₂ hr₂ hname =>
        have h₁ := (Reads.of_expect (by decide) hname).tokensBeforeEnd_le
        have h₂ := peakPostfixTail_le d r₂
        omega
    · split
      · -- an index `[key]`
        next hk =>
        rw [tokensBeforeEnd_cons_of_eq hk (by decide)]
        refine max_le (by have h₁ := peakExpression_le d rest; omega) ?_
        split
        · exact Nat.zero_le _
        · next key r₂ hr₂ hkey =>
          have h₁ := (parseExpression_reads d rest).tokensBeforeEnd_lt hkey
          split
          · exact Nat.zero_le _
          · next r₃ hr₃ hclose =>
            have h₂ := (Reads.of_expect (by decide) hclose).tokensBeforeEnd_le
            have h₃ := peakPostfixTail_le d r₃
            omega
      · split
        · -- a call `(args)`
          next hk =>
          rw [tokensBeforeEnd_cons_of_eq hk (by decide)]
          refine max_le (by have h₁ := peakArgs_le d .rparen rest; omega) ?_
          split
          · exact Nat.zero_le _
          · next args r₂ hr₂ hargs =>
            have h₁ := (parseArgs_reads d .rparen (by decide) rest rest (Nat.le_refl _)
              #[]).tokensBeforeEnd_lt hargs
            have h₂ := peakPostfixTail_le d r₂
            omega
        · exact Nat.zero_le _
termination_by (r.length, 0)
decreasing_by all_goals ((try simp only [List.length_cons] at *); apply lex_of_lt_or; omega)

theorem peakArgs_le (d : Nat) (closer : TokenKind) (r : List Token) :
    peakArgs d closer r ≤ d + 1 + tokensBeforeEnd r := by
  rw [peakArgs.eq_def]
  split
  · exact Nat.zero_le _
  · refine max_le (peakExpression_le d r) ?_
    split
    · exact Nat.zero_le _
    · next a r₁ hr₁ ha =>
      have hR₁ := parseExpression_reads d r a r₁ hr₁ ha
      cases r₁ with
      | nil => exact Nat.zero_le _
      | cons t rest =>
        have hlt : rest.length < r.length := Nat.lt_of_succ_lt hr₁
        dsimp only
        split
        · next hk =>
          have h₁ := (hR₁.trans (Reads.tail_of_eq hk (by decide))).tokensBeforeEnd_le
          have h₂ := peakArgs_le d closer rest
          omega
        · exact Nat.zero_le _
termination_by (r.length, 16)
decreasing_by all_goals (apply lex_of_lt_or; omega)

theorem peakPrimary_le (d : Nat) (ts : List Token) :
    peakPrimary d ts ≤ d + tokensBeforeEnd ts := by
  match ts with
  | [] =>
    rw [peakPrimary.eq_def]
    exact Nat.zero_le _
  | t :: rest =>
    rw [peakPrimary.eq_def]
    dsimp only
    split
    · exact Nat.zero_le _
    · exact Nat.zero_le _
    · exact Nat.zero_le _
    · next hk =>
      have h₁ := peakExpression_le d rest
      rw [tokensBeforeEnd_cons_of_eq hk (by decide)]
      omega
    · next hk =>
      have h₁ := peakArgs_le d .rbracket rest
      rw [tokensBeforeEnd_cons_of_eq hk (by decide)]
      omega
    · exact Nat.zero_le _
termination_by (ts.length, 9)
decreasing_by all_goals ((try simp only [List.length_cons]); apply lex_of_lt_or; omega)

end

theorem peakVarTail_le (d : Nat) (r : List Token) :
    peakVarTail d r ≤ d + 1 + tokensBeforeEnd r := by
  unfold peakVarTail
  split
  · exact Nat.zero_le _
  · next name r₁ h₁ hname =>
    have hR₁ := Reads.of_expect (by decide) hname
    cases r₁ with
    | nil => exact Nat.zero_le _
    | cons t rest =>
      dsimp only
      split
      · next hk =>
        have h₂ := (hR₁.trans (Reads.tail_of_eq hk (by decide))).tokensBeforeEnd_le
        have h₃ := peakExpression_le d rest
        omega
      · exact Nat.zero_le _

theorem peakRet_le (d : Nat) (r : List Token) : peakRet d r ≤ d + 1 + tokensBeforeEnd r := by
  unfold peakRet
  split
  · exact Nat.zero_le _
  · exact peakExpression_le d r

mutual

theorem peakStatement_le (d : Nat) (ts : List Token) :
    peakStatement d ts ≤ d + 1 + tokensBeforeEnd ts := by
  match ts with
  | [] =>
    rw [peakStatement.eq_def]
    exact peakExpression_le d []
  | t :: rest =>
    rw [peakStatement.eq_def]
    dsimp only
    split
    · -- `let`, with or without `mut`
      next hk =>
      rw [tokensBeforeEnd_cons_of_eq hk (by decide)]
      match rest with
      | [] =>
        have h₁ := peakVarTail_le d []
        dsimp only
        omega
      | m :: rest' =>
        dsimp only
        split
        · next hm =>
          have h₁ := peakVarTail_le d rest'
          rw [tokensBeforeEnd_cons_of_eq hm (by decide)]
          omega
        · have h₁ := peakVarTail_le d (m :: rest')
          omega
    · next hk =>
      have h₁ := peakVarTail_le d rest
      rw [tokensBeforeEnd_cons_of_eq hk (by decide)]
      omega
    · next hk =>
      have h₁ := peakFunc_le d rest
      rw [tokensBeforeEnd_cons_of_eq hk (by decide)]
      omega
    · next hk =>
      have h₁ := peakRet_le d rest
      rw [tokensBeforeEnd_cons_of_eq hk (by decide)]
      omega
    · exact peakIf_le d _
    · next hk =>
      have h₁ := peakFor_le d rest
      rw [tokensBeforeEnd_cons_of_eq hk (by decide)]
      omega
    · exact peakExpression_le d _
termination_by (ts.length, 20)
decreasing_by all_goals ((try simp only [List.length_cons]); apply lex_of_lt_or; omega)

theorem peakFunc_le (d : Nat) (r : List Token) : peakFunc d r ≤ d + 1 + tokensBeforeEnd r := by
  rw [peakFunc.eq_def]
  split
  · exact Nat.zero_le _
  · next name r₁ h₁ hname =>
    have hR₁ := Reads.of_expect (by decide) hname
    split
    · exact Nat.zero_le _
    · next r₂ h₂ hl =>
      have hR₂ := hR₁.trans (Reads.of_expect (by decide) hl)
      split
      · exact Nat.zero_le _
      · next ps r₃ hr₃ hps =>
        have hR₃ := hR₂.trans (parseParams_reads r₂ #[] ps r₃ hr₃ hps)
        split
        · exact Nat.zero_le _
        · next r₄ h₄ hrp =>
          have h₅ := (hR₃.trans (Reads.of_expect (by decide) hrp)).tokensBeforeEnd_le
          have h₆ := peakBlock_le d r₄
          omega
termination_by (r.length, 1)
decreasing_by all_goals (apply lex_of_lt_or; omega)

theorem peakIf_le (d : Nat) (ts : List Token) : peakIf d ts ≤ d + 1 + tokensBeforeEnd ts := by
  rw [peakIf.eq_def]
  split
  · exact Nat.zero_le _
  · next ifTok r₁ h₁ hif =>
    have e₁ := (Reads.of_expect (by decide) hif).tokensBeforeEnd_lt h₁
    refine max_le (by have h₂ := peakExpression_le d r₁; omega) ?_
    split
    · exact Nat.zero_le _
    · next c r₂ hr₂ hc =>
      have e₂ := (parseExpression_reads d r₁).tokensBeforeEnd_lt hc
      refine max_le (by have h₃ := peakBlock_le d r₂; omega) ?_
      split
      · exact Nat.zero_le _
      · next th r₃ hr₃ hth =>
        have e₃ := (parseBlock_reads d r₂).tokensBeforeEnd_lt hth
        cases r₃ with
        | nil => exact Nat.zero_le _
        | cons t rest =>
          have hlt : rest.length < r₂.length := Nat.lt_of_succ_lt hr₃
          dsimp only
          split
          · next hk =>
            rw [tokensBeforeEnd_cons_of_eq hk (by decide)] at e₃
            split
            · -- `else if`: one level deeper, entered after the `else`
              exact max_le (by omega) (by have h₄ := peakIf_le (d + 1) rest; omega)
            · have h₄ := peakBlock_le d rest
              omega
          · exact Nat.zero_le _
termination_by (ts.length, 19)
decreasing_by all_goals (apply lex_of_lt_or; omega)

theorem peakFor_le (d : Nat) (r : List Token) : peakFor d r ≤ d + 1 + tokensBeforeEnd r := by
  rw [peakFor.eq_def]
  dsimp only
  have hR₀ := Reads.optional_lparen r
  have h₀ := hR₀.length_le
  split
  · exact Nat.zero_le _
  · next name r₁ h₁ hname =>
    have hR₁ := hR₀.trans (Reads.of_expect (by decide) hname)
    split
    · exact Nat.zero_le _
    · next r₂ h₂ hin =>
      have hR₂ := hR₁.trans (Reads.of_expect (by decide) hin)
      have e₂ := hR₂.tokensBeforeEnd_le
      refine max_le (by have h₃ := peakExpression_le d r₂; omega) ?_
      split
      · exact Nat.zero_le _
      · next it r₃ hr₃ hit =>
        have hR₃ := hR₂.trans (parseExpression_reads d r₂ it r₃ hr₃ hit)
        split
        · -- with parentheses, the `)` after the iterable
          split
          · exact Nat.zero_le _
          · next r₄ h₄ hcl =>
            have e₄ := (hR₃.trans (Reads.of_expect (by decide) hcl)).tokensBeforeEnd_le
            have h₅ := peakBlock_le d r₄
            omega
        · have e₃ := hR₃.tokensBeforeEnd_le
          have h₅ := peakBlock_le d r₃
          omega
termination_by (r.length, 1)
decreasing_by all_goals (apply lex_of_lt_or; omega)

theorem peakBlock_le (d : Nat) (ts : List Token) :
    peakBlock d ts ≤ d + 1 + tokensBeforeEnd ts := by
  rw [peakBlock.eq_def]
  split
  · exact Nat.zero_le _
  · next r₁ h₁ hl =>
    -- the block's own level is entered after its `{`
    have e₁ := (Reads.of_expect (by decide) hl).tokensBeforeEnd_lt h₁
    exact max_le (by omega) (by have h₂ := peakBlockBody_le (d + 1) r₁; omega)
termination_by (ts.length, 0)
decreasing_by all_goals (apply lex_of_lt_or; omega)

theorem peakBlockBody_le (d : Nat) (r : List Token) :
    peakBlockBody d r ≤ d + 1 + tokensBeforeEnd r := by
  match r with
  | [] =>
    rw [peakBlockBody.eq_def]
    exact Nat.zero_le _
  | t :: rest =>
    rw [peakBlockBody.eq_def]
    dsimp only
    split
    · exact Nat.zero_le _
    · split
      · exact Nat.zero_le _
      · split
        · next hk =>
          have h₁ := peakBlockBody_le d rest
          rw [tokensBeforeEnd_cons_of_eq hk (by decide)]
          omega
        · refine max_le (peakStatement_le d _) ?_
          split
          · exact Nat.zero_le _
          · next s r₁ hr₁ hs =>
            have hlt : r₁.length < rest.length + 1 := hr₁
            have h₁ := (parseStatement_reads d (t :: rest)).tokensBeforeEnd_lt hs
            have h₂ := peakBlockBody_le d r₁
            omega
termination_by (r.length, 21)
decreasing_by all_goals ((try simp only [List.length_cons]); apply lex_of_lt_or; omega)

end

theorem peakProgramFrom_le (ts : List Token) : peakProgramFrom ts ≤ tokensBeforeEnd ts + 1 := by
  match ts with
  | [] =>
    rw [peakProgramFrom.eq_def]
    exact Nat.zero_le _
  | t :: rest =>
    rw [peakProgramFrom.eq_def]
    dsimp only
    split
    · exact Nat.zero_le _
    · next hk =>
      split
      · next hs =>
        have h₁ := peakProgramFrom_le rest
        rw [tokensBeforeEnd_cons hk]
        omega
      · refine max_le (by have h₁ := peakStatement_le 0 (t :: rest); omega) ?_
        split
        · exact Nat.zero_le _
        · next s r₁ hr₁ hs =>
          have hlt : r₁.length < rest.length + 1 := hr₁
          have h₁ := (parseStatement_reads 0 (t :: rest)).tokensBeforeEnd_lt hs
          have h₂ := peakProgramFrom_le r₁
          omega
termination_by ts.length
decreasing_by all_goals (simp only [List.length_cons]; omega)

/-- The parser with no limit nests at most one level deeper than there are tokens in front of
the first end of input. -/
theorem nestingPeak_le (ts : List Token) : nestingPeak ts ≤ tokensBeforeEnd ts + 1 := by
  have h := peakProgramFrom_le (closeTokens ts)
  rwa [tokensBeforeEnd_closeTokens] at h

/-- A nesting limit above the number of tokens in front of the end of input never stops a
parse: the parse is the one with no limit. -/
theorem parseTokensWith_of_tokensBeforeEnd_lt {l : Nat} {ts : List Token}
    (h : tokensBeforeEnd ts < l) : parseTokensWith (some l) ts = parseTokensWith none ts := by
  have hp := nestingPeak_le ts
  exact parseTokensWith_of_peak_le (by omega)

/-! ### What termination rests on -/

/-- What the parser's termination rests on, at a nesting limit and a level: every expression,
statement, block and `if` reads at least one token off the front of its input, and every loop
(the statements of a block, parameters, properties, arguments, operators, members and calls)
reads on from the token it stands at; no token read is an end of input. -/
structure ReadsForward (limit : Option Nat) (d : Nat) : Prop where
  expression : ∀ ts, Consumes ts (parseExpression limit d ts)
  statement : ∀ ts, Consumes ts (parseStatement limit d ts)
  block : ∀ ts, Consumes ts (parseBlock limit d ts)
  ifElse : ∀ ts, Consumes ts (parseIf limit d ts)
  blockBody : ∀ ts r hr acc, ReadsOn r (parseBlockBody limit d ts r hr acc)
  params : ∀ ts acc, ReadsOn ts (parseParams ts acc)
  fields : ∀ ts bp r hr acc, ReadsOn r (parseFields limit d ts bp r hr acc)
  args : ∀ ts r hr acc, ReadsOn r (parseArgs limit d .rparen ts r hr acc) ∧
    ReadsOn r (parseArgs limit d .rbracket ts r hr acc)
  additive : ∀ ts lhs r hr, ReadsOn r (additiveTail limit d ts lhs r hr)
  multiplicative : ∀ ts lhs r hr, ReadsOn r (multiplicativeTail limit d ts lhs r hr)
  callMember : ∀ ts e r hr, ReadsOn r (postfixTail limit d ts e r hr)

/-- The parser terminates on every token list, with or without an end of input at the back,
because it reads forward: every expression, statement, block and `if` reads at least one token,
every loop reads on from where it stands, and every level of nesting past the first is entered
after a token is read, so that a nesting limit above the number of tokens never stops a parse. -/
theorem parser_reads_forward :
    (∀ limit d, ReadsForward limit d) ∧
    ∀ l (ts : List Token), ts.length < l →
      parseTokensWith (some l) ts = parseTokensWith none ts := by
  refine ⟨fun limit d => ?_, fun l ts h => ?_⟩
  · exact
      { expression := fun ts => (parseExpression_reads d ts).consumes
        statement := fun ts => (parseStatement_reads d ts).consumes
        block := fun ts => (parseBlock_reads d ts).consumes
        ifElse := fun ts => (parseIf_reads d ts).consumes
        blockBody := fun ts r hr acc => parseBlockBody_reads d ts r hr acc
        params := fun ts acc => parseParams_reads ts acc
        fields := fun ts bp r hr acc => parseFields_reads d ts bp r hr acc
        args := fun ts r hr acc =>
          ⟨parseArgs_reads d .rparen (by decide) ts r hr acc,
            parseArgs_reads d .rbracket (by decide) ts r hr acc⟩
        additive := fun ts lhs r hr => additiveTail_reads d ts lhs r hr
        multiplicative := fun ts lhs r hr => multiplicativeTail_reads d ts lhs r hr
        callMember := fun ts e r hr => postfixTail_reads d ts e r hr }
  · have hb := tokensBeforeEnd_le_length ts
    exact parseTokensWith_of_tokensBeforeEnd_lt (by omega)

/-- `((x))`, five tokens three levels deep, under the limit six. -/
theorem parser_reads_forward_nested :
    let ts : List Token := [⟨.lparen, "", Pos.start⟩, ⟨.lparen, "", Pos.start⟩,
      ⟨.ident, "x", Pos.start⟩, ⟨.rparen, "", Pos.start⟩, ⟨.rparen, "", Pos.start⟩]
    ts.length < 6 ∧ parseTokensWith (some 6) ts = parseTokensWith none ts := by
  intro ts
  exact ⟨by decide, parser_reads_forward.2 6 ts (by decide)⟩

end Treewalk.Parser
