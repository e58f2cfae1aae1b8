import Mathlib
import Treewalk.Proofs.Syntax.ReadProgram
import Treewalk.Proofs.Syntax.ParseErrors
/-!
# Printed programs nested too deep

`nesting` counts exactly the levels the parser enters to read a printed construct back, so a
construct that nests deeper than the limit leaves is rejected, with the depth error and not as
incomplete input. `Expr.FailsDeep lim e` says so for the tokens of `e`'s words, whatever follows
them. Each constructor's lemma finds the first part, from left to right, that does not fit:
the parts before it read back (`ReadBack`), and its failure is passed up (`ParseErrors`).

With the round trip this decides the printed text of every well-formed program: it parses back
exactly when the program nests at most `maxNesting` deep.
-/
open Treewalk.Parser Treewalk.Printer

namespace Treewalk

variable (lim : Nat)

/-- Tokens spelling `e`'s words fail with the depth error wherever `e`'s nesting does not fit. -/
def Expr.FailsDeep (e : Expr) : Prop :=
  ∀ (d : Nat) (ts rest : List Token), ts.map Token.word = e.words → lim < d + e.nesting →
    Fails (parseExpression (some lim) d (ts ++ rest)) (TooDeep lim)

def Target.FailsDeep (t : Target) : Prop :=
  ∀ (d : Nat) (ts rest : List Token), ts.map Token.word = t.words → d ≤ lim →
    lim < d + t.nesting → Fails (parsePostfix (some lim) d (ts ++ rest)) (TooDeep lim)

def Expr.ListFailsDeep (es : List Expr) : Prop :=
  ∀ (d : Nat) (closer : TokenKind) (T ts rest : List Token)
    (hr : (ts ++ rest).length ≤ T.length) (acc : Array Expr),
    ts.map Token.word = Expr.listWords es → d ≤ lim → lim < d + Expr.listNesting es →
    (closer = .rparen ∨ closer = .rbracket) →
      Fails (parseArgs (some lim) d closer T (ts ++ rest) hr acc) (TooDeep lim)

def Field.FailsDeep (f : Field) : Prop :=
  ∀ (d : Nat) (T ts rest : List Token) (bp : Pos) (hr : (ts ++ rest).length < T.length)
    (acc : Array Field), ts.map Token.word = f.words → d ≤ lim → lim < d + f.nesting →
      Fails (parseFields (some lim) d T bp (ts ++ rest) hr acc) (TooDeep lim)

def Field.ListFailsDeep (fs : List Field) : Prop :=
  ∀ (d : Nat) (T ts rest : List Token) (bp : Pos) (hr : (ts ++ rest).length < T.length)
    (acc : Array Field), ts.map Token.word = Field.listWords fs → d ≤ lim →
      lim < d + Field.listNesting fs →
        Fails (parseFields (some lim) d T bp (ts ++ rest) hr acc) (TooDeep lim)

variable {lim}

/-! ### Levels and parentheses -/

theorem parseExpression_fails_of_parsePostfix {d : Nat} {ts : List Token} {P : Error → Prop}
    (hd : d + 1 ≤ lim) (hk : kindAt ts ≠ .lbrace)
    (h : Fails (parsePostfix (some lim) (d + 1) ts) P) : Fails (parseExpression (some lim) d ts) P :=
  parseExpression_fails_of_assignment hd <| parseAssignment_fails_of_additive hk <|
    parseAdditive_fails_of_multiplicative <| parseMultiplicative_fails_of_parsePostfix h

theorem parseExpression_fails_paren {d : Nat} {t : Token} {r : List Token}
    (ht : t.kind = .lparen) (h : Fails (parseExpression (some lim) (d + 1) r) (TooDeep lim)) :
    Fails (parseExpression (some lim) d (t :: r)) (TooDeep lim) := by
  by_cases hd : d + 1 ≤ lim
  · exact parseExpression_fails_of_primary hd (by rw [kindAt_cons, ht]; decide)
      (parsePrimary_fails_paren ht h)
  · exact parseExpression_fails_enter (by omega)

theorem Expr.failsDeep_of_nesting_one {e : Expr} (he : e.nesting = 1) : e.FailsDeep lim := by
  intro d ts rest _ hd
  exact parseExpression_fails_enter (by omega)

/-! ### Members, indexes and calls -/

theorem parsePostfix_fails_member {o : Expr} {x : String} (ho : o.FailsDeep lim) {d : Nat}
    {ts rest : List Token} (hts : ts.map Token.word = paren o.words ++ [punct .dot, name x])
    (h : lim < d + o.nesting) : Fails (parsePostfix (some lim) d (ts ++ rest)) (TooDeep lim) := by
  obtain ⟨t, ts₁, u, ts₂, rfl, ht, h₁, -, -⟩ := map_word_delimited hts
  rw [show (t :: ts₁ ++ u :: ts₂) ++ rest = t :: (ts₁ ++ (u :: ts₂ ++ rest)) by simp]
  exact parsePostfix_fails_of_primary (parsePrimary_fails_paren ht (ho d ts₁ _ h₁ h))

theorem parsePostfix_fails_index {o k : Expr} (ho : o.FailsDeep lim) (ro : o.ReadBack lim)
    (hk : k.FailsDeep lim) {d : Nat} {ts rest : List Token}
    (hts : ts.map Token.word = paren o.words ++ punct .lbracket :: k.words ++ [punct .rbracket])
    (h : lim < d + max o.nesting k.nesting) :
    Fails (parsePostfix (some lim) d (ts ++ rest)) (TooDeep lim) := by
  rw [List.append_assoc] at hts
  obtain ⟨t, ts₁, u, ts₂, rfl, ht, h₁, hu, h₂⟩ := map_word_delimited hts
  obtain ⟨lb, ts₃, rb, rfl, hlb, h₃, hrb⟩ := map_word_delimited_end h₂
  rw [show (t :: ts₁ ++ u :: (lb :: ts₃ ++ [rb])) ++ rest =
    t :: (ts₁ ++ u :: lb :: (ts₃ ++ rb :: rest)) by simp]
  by_cases hfit : d + o.nesting ≤ lim
  · -- the object reads back, so the key is the part that does not fit
    obtain ⟨a, _, ha, -⟩ := ro d ts₁ (u :: lb :: (ts₃ ++ rb :: rest)) h₁ hfit
      (by rw [kindAt_cons, hu]; decide)
    rw [parsePostfix_eq (parsePrimary_paren ht ha hu)]
    exact postfixTail_fails_index hlb (hk d ts₃ (rb :: rest) h₃ (by omega))
  · exact parsePostfix_fails_of_primary (parsePrimary_fails_paren ht (ho d ts₁ _ h₁ (by omega)))

theorem parsePostfix_fails_call {f : Expr} {as : List Expr} (hf : f.FailsDeep lim)
    (rf : f.ReadBack lim) (has : Expr.ListFailsDeep lim as) {d : Nat} {ts rest : List Token}
    (hts : ts.map Token.word = paren f.words ++ punct .lparen :: Expr.listWords as ++
      [punct .rparen]) (hd : d ≤ lim) (h : lim < d + max f.nesting (Expr.listNesting as)) :
    Fails (parsePostfix (some lim) d (ts ++ rest)) (TooDeep lim) := by
  rw [List.append_assoc] at hts
  obtain ⟨t, ts₁, u, ts₂, rfl, ht, h₁, hu, h₂⟩ := map_word_delimited hts
  obtain ⟨lp, ts₃, rp, rfl, hlp, h₃, -⟩ := map_word_delimited_end h₂
  rw [show (t :: ts₁ ++ u :: (lp :: ts₃ ++ [rp])) ++ rest =
    t :: (ts₁ ++ u :: lp :: (ts₃ ++ rp :: rest)) by simp]
  by_cases hfit : d + f.nesting ≤ lim
  · -- the callee reads back, so an argument is the part that does not fit
    obtain ⟨a, _, ha, -⟩ := rf d ts₁ (u :: lp :: (ts₃ ++ rp :: rest)) h₁ hfit
      (by rw [kindAt_cons, hu]; decide)
    rw [parsePostfix_eq (parsePrimary_paren ht ha hu)]
    exact postfixTail_fails_call hlp
      (has d .rparen _ ts₃ (rp :: rest) (Nat.le_refl _) #[] h₃ hd (by omega) (.inl rfl))
  · exact parsePostfix_fails_of_primary (parsePrimary_fails_paren ht (hf d ts₁ _ h₁ (by omega)))

theorem Expr.failsDeep_of_parsePostfix {e : Expr} (hw : ∃ ws, e.words = punct .lparen :: ws)
    (hp : ∀ d ts rest, ts.map Token.word = e.words → d + 1 ≤ lim → lim < d + e.nesting →
      Fails (parsePostfix (some lim) (d + 1) (ts ++ rest)) (TooDeep lim)) :
    e.FailsDeep lim := by
  intro d ts rest hts h
  obtain ⟨ws, hws⟩ := hw
  by_cases hd : d + 1 ≤ lim
  · exact parseExpression_fails_of_parsePostfix hd
      (by rw [kindAt_append_of_map_word (hts.trans hws)]; decide) (hp d ts rest hts hd h)
  · exact parseExpression_fails_enter (by omega)

theorem Expr.failsDeep_member {o : Expr} {x : String} {np p : Pos} (ho : o.FailsDeep lim) :
    (Expr.member o x np p).FailsDeep lim :=
  Expr.failsDeep_of_parsePostfix ⟨_, by simp [Expr.words, paren]; rfl⟩ fun d _ _ hts _ h =>
    parsePostfix_fails_member ho hts (by simp only [Expr.nesting] at h; omega)

theorem Expr.failsDeep_index {o k : Expr} {p : Pos} (ho : o.FailsDeep lim) (ro : o.ReadBack lim)
    (hk : k.FailsDeep lim) : (Expr.index o k p).FailsDeep lim :=
  Expr.failsDeep_of_parsePostfix ⟨_, by simp [Expr.words, paren]; rfl⟩ fun d _ _ hts _ h =>
    parsePostfix_fails_index ho ro hk hts (by simp only [Expr.nesting] at h; omega)

theorem Expr.failsDeep_call {f : Expr} {as : List Expr} {p : Pos} (hf : f.FailsDeep lim)
    (rf : f.ReadBack lim) (has : Expr.ListFailsDeep lim as) : (Expr.call f as p).FailsDeep lim :=
  Expr.failsDeep_of_parsePostfix ⟨_, by simp [Expr.words, paren]; rfl⟩ fun d _ _ hts hd h =>
    parsePostfix_fails_call hf rf has hts hd (by simp only [Expr.nesting] at h; omega)

/-! ### Operators, assignments and literals of arrays and objects -/

theorem Expr.failsDeep_binary {op : BinOp} {l r : Expr} {p : Pos} (hl : l.FailsDeep lim)
    (rl : l.ReadBack lim) (hr : r.FailsDeep lim) : (Expr.binary op l r p).FailsDeep lim := by
  intro d ts rest hts h
  simp only [Expr.words] at hts
  simp only [Expr.nesting] at h
  obtain ⟨t, ts₁, u, ts₂, rfl, ht, h₁, hu, h₂⟩ := map_word_delimited hts
  obtain ⟨o, ts₃, rfl, ho, h₃⟩ := List.map_eq_cons_iff.mp h₂
  obtain ⟨t', ts₄, u', rfl, ht', h₄, hu'⟩ := map_word_delimited_end h₃
  have hok : o.kind = op.token := Token.kind_eq_of_word ho
  rw [show (t :: ts₁ ++ u :: o :: (t' :: ts₄ ++ [u'])) ++ rest =
    t :: (ts₁ ++ u :: o :: t' :: (ts₄ ++ u' :: rest)) by simp]
  by_cases hd : d + 1 ≤ lim
  swap
  · exact parseExpression_fails_enter (by omega)
  refine parseExpression_fails_of_assignment hd <|
    parseAssignment_fails_of_additive (by rw [kindAt_cons, ht]; decide) ?_
  by_cases hfit : d + 1 + l.nesting ≤ lim
  · -- the left operand reads back, so the right one is the part that does not fit
    obtain ⟨a, _, ha, -⟩ := parsePostfix_paren ht hu
      (by rw [kindAt_cons, hok]; exact token_stopsPostfix op)
      (rl (d + 1) ts₁ (u :: o :: t' :: (ts₄ ++ u' :: rest)) h₁ hfit
        (by rw [kindAt_cons, hu]; decide))
    have hx : Fails (parsePostfix (some lim) (d + 1) (t' :: (ts₄ ++ u' :: rest))) (TooDeep lim) :=
      parsePostfix_fails_of_primary (parsePrimary_fails_paren ht' (hr (d + 1) ts₄ _ h₄ (by omega)))
    rcases token_level op with ⟨hadd, hmul⟩ | ⟨hadd, hmul⟩
    · rw [parseAdditive_eq (by rw [parseMultiplicative_eq ha,
        multiplicativeTail_stop (by rw [kindAt_cons, hok]; exact hmul)])]
      exact additiveTail_fails (by rw [hok]; exact hadd) (parseMultiplicative_fails_of_parsePostfix hx)
    · refine parseAdditive_fails_of_multiplicative ?_
      rw [parseMultiplicative_eq ha]
      exact multiplicativeTail_fails (by rw [hok]; exact hmul) hx
  · exact parseAdditive_fails_of_multiplicative <| parseMultiplicative_fails_of_parsePostfix <|
      parsePostfix_fails_of_primary <| parsePrimary_fails_paren ht (hl (d + 1) ts₁ _ h₁ (by omega))

theorem Expr.failsDeep_assign {t : Target} {v : Expr} (ht : t.FailsDeep lim)
    (rt : t.ReadBack lim) (hv : v.FailsDeep lim) : (Expr.assign t v).FailsDeep lim := by
  intro d ts rest hts h
  simp only [Expr.words] at hts
  simp only [Expr.nesting] at h
  obtain ⟨ts₁, ts₂, rfl, h₁, h₂⟩ := List.map_eq_append_iff.mp hts
  obtain ⟨eq, ts₃, rfl, heq, h₃⟩ := List.map_eq_cons_iff.mp h₂
  obtain ⟨lp, ts₄, rp, rfl, hlp, h₄, -⟩ := map_word_delimited_end h₃
  rw [show ts₁ ++ eq :: (lp :: ts₄ ++ [rp]) ++ rest = ts₁ ++ eq :: lp :: (ts₄ ++ rp :: rest) by
    simp]
  have hek : eq.kind = .assign := Token.kind_eq_of_word heq
  obtain ⟨w, ws, hw, hwk⟩ := t.words_cons
  have hk : kindAt (ts₁ ++ eq :: lp :: (ts₄ ++ rp :: rest)) ≠ .lbrace := by
    rw [kindAt_append_of_map_word (h₁.trans hw)]
    rcases hwk with hwk | hwk <;> simp [hwk]
  by_cases hd : d + 1 ≤ lim
  swap
  · exact parseExpression_fails_enter (by omega)
  refine parseExpression_fails_of_assignment hd ?_
  by_cases hfit : d + 1 + t.nesting ≤ lim
  · -- the target reads back, so the value is the part that does not fit
    obtain ⟨lhs, _, hlhs, hel⟩ := parseOperand_of_additive hk <|
      parseAdditive_of_multiplicative (by rw [kindAt_cons, hek]; rfl) <|
        parseMultiplicative_of_parsePostfix (by rw [kindAt_cons, hek]; rfl) <|
          rt (d + 1) ts₁ (eq :: lp :: (ts₄ ++ rp :: rest)) h₁ hfit
            (by rw [kindAt_cons, hek]; rfl)
    obtain ⟨tgt, htgt, -⟩ := Expr.toTarget?_of_erase hel
    exact parseAssignment_fails_value hlhs hek htgt
      (parseExpression_fails_paren hlp (hv (d + 1 + 1) ts₄ _ h₄ (by omega)))
  · exact parseAssignment_fails_of_additive hk <| parseAdditive_fails_of_multiplicative <|
      parseMultiplicative_fails_of_parsePostfix (ht (d + 1) ts₁ _ h₁ hd (by omega))

theorem Expr.failsDeep_array {es : List Expr} {p : Pos} (hes : Expr.ListFailsDeep lim es) :
    (Expr.array es p).FailsDeep lim := by
  intro d ts rest hts h
  simp only [Expr.words] at hts
  simp only [Expr.nesting] at h
  obtain ⟨t, ts₁, u, rfl, ht, h₁, -⟩ := map_word_delimited_end hts
  rw [show (t :: ts₁ ++ [u]) ++ rest = t :: (ts₁ ++ u :: rest) by simp]
  by_cases hd : d + 1 ≤ lim
  · exact parseExpression_fails_of_primary hd (by rw [kindAt_cons, ht]; decide)
      (parsePrimary_fails_array ht
        (hes (d + 1) .rbracket _ ts₁ (u :: rest) (Nat.le_refl _) #[] h₁ hd (by omega) (.inr rfl)))
  · exact parseExpression_fails_enter (by omega)

theorem Expr.failsDeep_object {fs : List Field} {p : Pos} (hfs : Field.ListFailsDeep lim fs) :
    (Expr.object fs p).FailsDeep lim := by
  intro d ts rest hts h
  simp only [Expr.words, braced] at hts
  simp only [Expr.nesting] at h
  obtain ⟨t, ts₁, u, rfl, ht, h₁, -⟩ := map_word_delimited_end hts
  rw [show (t :: ts₁ ++ [u]) ++ rest = t :: (ts₁ ++ u :: rest) by simp]
  by_cases hd : d + 1 ≤ lim
  · refine parseExpression_fails_of_assignment hd (parseAssignment_fails_of_operand ?_)
    rw [parseOperand_brace ht]
    exact hfs (d + 1) _ ts₁ (u :: rest) t.pos (by simp) #[] h₁ hd (by omega)
  · exact parseExpression_fails_enter (by omega)

/-! ### Targets, properties and lists -/

theorem Target.failsDeep_var (x : String) (p : Pos) : (Target.var x p).FailsDeep lim := by
  intro d ts rest _ hd h
  simp only [Target.nesting] at h
  omega

theorem Target.failsDeep_member {o : Expr} {x : String} {np p : Pos} (ho : o.FailsDeep lim) :
    (Target.member o x np p).FailsDeep lim := by
  intro d ts rest hts _ h
  simp only [Target.words] at hts
  simp only [Target.nesting] at h
  exact parsePostfix_fails_member ho hts h

theorem Target.failsDeep_index {o k : Expr} {p : Pos} (ho : o.FailsDeep lim)
    (ro : o.ReadBack lim) (hk : k.FailsDeep lim) : (Target.index o k p).FailsDeep lim := by
  intro d ts rest hts _ h
  simp only [Target.words] at hts
  simp only [Target.nesting] at h
  exact parsePostfix_fails_index ho ro hk hts h

theorem Field.failsDeep_keyed {k : String} {p : Pos} {v : Expr} (hv : v.FailsDeep lim) :
    (Field.keyed k p v).FailsDeep lim := by
  intro d T ts rest bp hr acc hts _ h
  simp only [Field.words] at hts
  simp only [Field.nesting] at h
  obtain ⟨kt, r, rfl, hkt, hr'⟩ := List.map_eq_cons_iff.mp hts
  obtain ⟨ct, ts₁, rfl, hct, h₁⟩ := List.map_eq_cons_iff.mp hr'
  exact parseFields_fails_keyed (Token.kind_eq_of_word hkt) (Token.kind_eq_of_word hct)
    (hv d ts₁ rest h₁ h)

theorem Field.failsDeep_shorthand (k : String) (p : Pos) :
    (Field.shorthand k p).FailsDeep lim := by
  intro d T ts rest bp hr acc _ hd h
  simp only [Field.nesting] at h
  omega

theorem Field.listFailsDeep_nil : Field.ListFailsDeep lim [] := by
  intro d T ts rest bp hr acc _ hd h
  simp only [Field.listNesting] at h
  omega

theorem Field.listFailsDeep_single {f : Field} (hf : f.FailsDeep lim) :
    Field.ListFailsDeep lim [f] := by
  intro d T ts rest bp hr acc hts hd h
  simp only [Field.listWords] at hts
  simp only [Field.listNesting] at h
  exact hf d T ts rest bp hr acc hts hd (by omega)

theorem Field.listFailsDeep_cons {f f' : Field} {fs : List Field} (hf : f.FailsDeep lim)
    (rf : f.ReadBack lim) (hfs : Field.ListFailsDeep lim (f' :: fs)) :
    Field.ListFailsDeep lim (f :: f' :: fs) := by
  intro d T ts rest bp hr acc hts hd h
  simp only [Field.listWords] at hts
  rw [Field.listNesting] at h
  obtain ⟨ts₁, ts₂, rfl, h₁, h₂⟩ := List.map_eq_append_iff.mp hts
  obtain ⟨ct, ts₃, rfl, hct, h₃⟩ := List.map_eq_cons_iff.mp h₂
  revert hr
  rw [show (ts₁ ++ ct :: ts₃) ++ rest = ts₁ ++ ct :: (ts₃ ++ rest) by simp]
  intro hr
  by_cases hfit : d + f.nesting ≤ lim
  · -- the first property reads back, so a later one does not fit
    obtain ⟨g, _, hstep, -⟩ := rf d T ts₁ (ts₃ ++ rest) ct bp hr acc h₁ hfit
      (.inl (Token.kind_eq_of_word hct))
    rw [hstep, parseFieldsNext_comma (Token.kind_eq_of_word hct)]
    exact hfs d T ts₃ rest bp _ (acc.push g) h₃ hd (by omega)
  · exact hf d T ts₁ (ct :: (ts₃ ++ rest)) bp hr acc h₁ hd (by omega)

theorem Expr.listFailsDeep_nil : Expr.ListFailsDeep lim [] := by
  intro d closer T ts rest hr acc _ hd h _
  simp only [Expr.listNesting] at h
  omega

theorem Expr.listFailsDeep_single {e : Expr} (he : e.FailsDeep lim) :
    Expr.ListFailsDeep lim [e] := by
  intro d closer T ts rest hr acc hts hd h hc
  simp only [Expr.listWords] at hts
  simp only [Expr.listNesting] at h
  obtain ⟨lp, ts₁, rp, rfl, hlp, h₁, -⟩ := map_word_delimited_end hts
  revert hr
  rw [show (lp :: ts₁ ++ [rp]) ++ rest = lp :: (ts₁ ++ rp :: rest) by simp]
  intro hr
  exact parseArgs_fails (by rw [kindAt_cons, hlp]; rcases hc with rfl | rfl <;> decide)
    (parseExpression_fails_paren hlp (he (d + 1) ts₁ _ h₁ (by omega)))

theorem Expr.listFailsDeep_cons {e e' : Expr} {es : List Expr} (he : e.FailsDeep lim)
    (re : e.ReadBack lim) (hes : Expr.ListFailsDeep lim (e' :: es)) :
    Expr.ListFailsDeep lim (e :: e' :: es) := by
  intro d closer T ts rest hr acc hts hd h hc
  simp only [Expr.listWords] at hts
  rw [Expr.listNesting] at h
  obtain ⟨lp, ts₁, rp, ts₂, rfl, hlp, h₁, hrp, h₂⟩ := map_word_delimited hts
  obtain ⟨ct, ts₃, rfl, hct, h₃⟩ := List.map_eq_cons_iff.mp h₂
  have hck : ct.kind = .comma := Token.kind_eq_of_word hct
  have hne : kindAt (lp :: (ts₁ ++ rp :: ct :: (ts₃ ++ rest))) ≠ closer := by
    rw [kindAt_cons, hlp]; rcases hc with rfl | rfl <;> decide
  revert hr
  rw [show (lp :: ts₁ ++ rp :: ct :: ts₃) ++ rest = lp :: (ts₁ ++ rp :: ct :: (ts₃ ++ rest)) by
    simp]
  intro hr
  by_cases hfit : d + 1 + e.nesting ≤ lim
  · -- the first element reads back, so a later one does not fit
    obtain ⟨a, _, ha, -⟩ := parseExpression_paren (by omega) hlp hrp
      (by rw [kindAt_cons, hck]; decide)
      (re (d + 1) ts₁ (rp :: ct :: (ts₃ ++ rest)) h₁ hfit
        (by rw [kindAt_cons, hrp]; decide))
    rw [parseArgs_comma hne ha hck]
    exact hes d closer T ts₃ rest _ (acc.push a) h₃ hd (by omega) hc
  · exact parseArgs_fails hne (parseExpression_fails_paren hlp (he (d + 1) ts₁ _ h₁ (by omega)))

/-! ### Every well-formed expression fails where it does not fit -/

mutual

theorem Expr.failsDeep : (e : Expr) → e.wellFormed = true → e.FailsDeep lim
  | .num _ _, _ | .str _ _, _ | .ident _ _, _ => Expr.failsDeep_of_nesting_one rfl
  | .binary _ l r _, h => by
    simp only [Expr.wellFormed, Bool.and_eq_true] at h
    exact Expr.failsDeep_binary (Expr.failsDeep l h.1) (Expr.readBack l h.1) (Expr.failsDeep r h.2)
  | .assign t v, h => by
    simp only [Expr.wellFormed, Bool.and_eq_true] at h
    exact Expr.failsDeep_assign (Target.failsDeep t h.1) (Target.readBack t h.1)
      (Expr.failsDeep v h.2)
  | .array es _, h => Expr.failsDeep_array (Expr.listFailsDeep es h)
  | .object fs _, h => Expr.failsDeep_object (Field.listFailsDeep fs h)
  | .member o _ _ _, h => by
    simp only [Expr.wellFormed, Bool.and_eq_true] at h
    exact Expr.failsDeep_member (Expr.failsDeep o h.1)
  | .index o k _, h => by
    simp only [Expr.wellFormed, Bool.and_eq_true] at h
    exact Expr.failsDeep_index (Expr.failsDeep o h.1) (Expr.readBack o h.1) (Expr.failsDeep k h.2)
  | .call f as _, h => by
    simp only [Expr.wellFormed, Bool.and_eq_true] at h
    exact Expr.failsDeep_call (Expr.failsDeep f h.1) (Expr.readBack f h.1)
      (Expr.listFailsDeep as h.2)

theorem Target.failsDeep : (t : Target) → t.wellFormed = true → t.FailsDeep lim
  | .var x p, _ => Target.failsDeep_var x p
  | .member o _ _ _, h => by
    simp only [Target.wellFormed, Bool.and_eq_true] at h
    exact Target.failsDeep_member (Expr.failsDeep o h.1)
  | .index o k _, h => by
    simp only [Target.wellFormed, Bool.and_eq_true] at h
    exact Target.failsDeep_index (Expr.failsDeep o h.1) (Expr.readBack o h.1)
      (Expr.failsDeep k h.2)

theorem Field.failsDeep : (f : Field) → f.wellFormed = true → f.FailsDeep lim
  | .keyed _ _ v, h => Field.failsDeep_keyed (Expr.failsDeep v h)
  | .shorthand k p, _ => Field.failsDeep_shorthand k p

theorem Expr.listFailsDeep : (es : List Expr) → Expr.allWellFormed es = true →
    Expr.ListFailsDeep lim es
  | [], _ => Expr.listFailsDeep_nil
  | [e], h => by
    simp only [Expr.allWellFormed, Bool.and_eq_true] at h
    exact Expr.listFailsDeep_single (Expr.failsDeep e h.1)
  | e :: e' :: es, h => by
    simp only [Expr.allWellFormed, Bool.and_eq_true] at h
    exact Expr.listFailsDeep_cons (Expr.failsDeep e h.1) (Expr.readBack e h.1)
      (Expr.listFailsDeep (e' :: es) (by simpa [Expr.allWellFormed] using h.2))

theorem Field.listFailsDeep : (fs : List Field) → Field.allWellFormed fs = true →
    Field.ListFailsDeep lim fs
  | [], _ => Field.listFailsDeep_nil
  | [f], h => by
    simp only [Field.allWellFormed, Bool.and_eq_true] at h
    exact Field.listFailsDeep_single (Field.failsDeep f h.1)
  | f :: f' :: fs, h => by
    simp only [Field.allWellFormed, Bool.and_eq_true] at h
    exact Field.listFailsDeep_cons (Field.failsDeep f h.1) (Field.readBack f h.1)
      (Field.listFailsDeep (f' :: fs) (by simpa [Field.allWellFormed] using h.2))

end

/-! ### Statements and blocks -/

variable (lim) in
/-- Tokens spelling a statement's words fail where its nesting does not fit. -/
def Stmt.FailsDeep (s : Stmt) : Prop :=
  ∀ (d : Nat) (ts rest : List Token), ts.map Token.word = s.words → d ≤ lim →
    lim < d + s.nesting → Fails (parseStatement (some lim) d (ts ++ rest)) (TooDeep lim)

variable (lim) in
def Stmt.ListFailsDeep (ss : List Stmt) : Prop :=
  ∀ (d : Nat) (T ts rest : List Token) (hr : (ts ++ rest).length < T.length) (acc : Array Stmt),
    ts.map Token.word = Stmt.listWords ss → d ≤ lim → lim < d + Stmt.listNesting ss →
      Fails (parseBlockBody (some lim) d T (ts ++ rest) hr acc) (TooDeep lim)

theorem parseExpression_fails_paren_words {e : Expr} {d : Nat} {ts rest : List Token}
    (he : e.FailsDeep lim) (hts : ts.map Token.word = paren e.words)
    (h : lim < d + 1 + e.nesting) :
    Fails (parseExpression (some lim) d (ts ++ rest)) (TooDeep lim) := by
  obtain ⟨lp, ts₁, rp, rfl, hlp, h₁, -⟩ := map_word_delimited_end hts
  rw [show (lp :: ts₁ ++ [rp]) ++ rest = lp :: (ts₁ ++ rp :: rest) by simp]
  exact parseExpression_fails_paren hlp (he (d + 1) ts₁ _ h₁ h)

theorem parseBlock_fails_words {ss : List Stmt} (hss : Stmt.ListFailsDeep lim ss) {d : Nat}
    {ts rest : List Token} (hts : ts.map Token.word = braced (Stmt.listWords ss))
    (h : lim < d + 1 + Stmt.listNesting ss) :
    Fails (parseBlock (some lim) d (ts ++ rest)) (TooDeep lim) := by
  obtain ⟨lb, ts₁, rb, rfl, hlb, h₁, -⟩ := map_word_delimited_end hts
  rw [show (lb :: ts₁ ++ [rb]) ++ rest = lb :: (ts₁ ++ rb :: rest) by simp]
  by_cases hd : d + 1 ≤ lim
  · rw [parseBlock_eq hlb hd]
    exact hss (d + 1) _ ts₁ (rb :: rest) _ #[] h₁ hd (by omega)
  · exact parseBlock_fails_enter hlb (by omega)

theorem Stmt.failsDeep_of_nesting_zero {s : Stmt} (hs : s.nesting = 0) : s.FailsDeep lim := by
  intro d ts rest _ hd h
  omega

theorem Stmt.failsDeep_expr {e : Expr} (he : e.FailsDeep lim) : (Stmt.expr e).FailsDeep lim := by
  intro d ts rest hts _ h
  simp only [Stmt.words] at hts
  simp only [Stmt.nesting] at h
  obtain ⟨ts₁, ts₂, rfl, h₁, -⟩ := List.map_eq_append_iff.mp hts
  obtain ⟨w, ws, hw, hwk⟩ := e.words_cons
  rw [List.append_assoc, parseStatement_expr (by
    rw [kindAt_append_of_map_word (h₁.trans hw)]; exact (startsStmt_of_startsExpr hwk).2)]
  exact parseExprStmt_fails (he d ts₁ _ h₁ h)

theorem parseVarTail_fails_words {e : Expr} {x : String} {isConst : Bool} {d : Nat}
    {start : Pos} {T ts rest : List Token} {nt at' : Token} (he : e.FailsDeep lim)
    (hts : ts.map Token.word = e.words ++ [punct .semicolon]) (hnt : nt.word = name x)
    (hat : at'.kind = .assign) (h : lim < d + e.nesting)
    (hr : (nt :: at' :: (ts ++ rest)).length < T.length) :
    Fails (parseVarTail (some lim) d T start isConst (nt :: at' :: (ts ++ rest)) hr)
      (TooDeep lim) := by
  obtain ⟨ts₁, ts₂, rfl, h₁, -⟩ := List.map_eq_append_iff.mp hts
  revert hr
  rw [List.append_assoc]
  intro hr
  exact parseVarTail_fails (Token.kind_eq_of_word hnt) hat (he d ts₁ _ h₁ h)

theorem Stmt.failsDeep_letSome {x : String} {e : Expr} {p : Pos} (he : e.FailsDeep lim) :
    (Stmt.letDecl x (some e) p).FailsDeep lim := by
  intro d ts rest hts _ h
  simp only [Stmt.words, List.append_assoc] at hts
  simp only [Stmt.nesting] at h
  obtain ⟨lt, nt, at', ts', rfl, hlt, hnt, hat, h'⟩ := map_word_cons₃ hts
  show Fails (parseStatement (some lim) d (lt :: nt :: at' :: (ts' ++ rest))) _
  rw [parseStatement_let (Token.kind_eq_of_word hlt) (by rw [Token.kind_eq_of_word hnt]; simp [name])]
  exact parseVarTail_fails_words he h' hnt (Token.kind_eq_of_word hat) h _

theorem Stmt.failsDeep_const {x : String} {e : Expr} {p : Pos} (he : e.FailsDeep lim) :
    (Stmt.constDecl x e p).FailsDeep lim := by
  intro d ts rest hts _ h
  simp only [Stmt.words, List.append_assoc] at hts
  simp only [Stmt.nesting] at h
  obtain ⟨ct, nt, at', ts', rfl, hct, hnt, hat, h'⟩ := map_word_cons₃ hts
  show Fails (parseStatement (some lim) d (ct :: nt :: at' :: (ts' ++ rest))) _
  rw [parseStatement_const (Token.kind_eq_of_word hct)]
  exact parseVarTail_fails_words he h' hnt (Token.kind_eq_of_word hat) h _

theorem Stmt.failsDeep_retSome {e : Expr} {p : Pos} (he : e.FailsDeep lim) :
    (Stmt.ret (some e) p).FailsDeep lim := by
  intro d ts rest hts _ h
  simp only [Stmt.words, List.cons_append] at hts
  simp only [Stmt.nesting] at h
  obtain ⟨rt, r, rfl, hrt, h'⟩ := List.map_eq_cons_iff.mp hts
  obtain ⟨ts₁, ts₂, rfl, h₁, -⟩ := List.map_eq_append_iff.mp h'
  obtain ⟨w, ws, hw, hwk⟩ := e.words_cons
  rw [show (rt :: (ts₁ ++ ts₂)) ++ rest = rt :: (ts₁ ++ (ts₂ ++ rest)) by simp,
    parseStatement_ret (Token.kind_eq_of_word hrt)]
  have hk : kindAt (ts₁ ++ (ts₂ ++ rest)) ≠ .semicolon := by
    rw [kindAt_append_of_map_word (h₁.trans hw)]
    exact (startsStmt_facts (startsStmt_of_startsExpr hwk).1).2.2
  exact parseRet_fails hk (he d ts₁ _ h₁ h)

theorem Stmt.failsDeep_func {f : String} {ps : List String} {body : List Stmt} {p : Pos}
    (hbody : Stmt.ListFailsDeep lim body) : (Stmt.funcDecl f ps body p).FailsDeep lim := by
  intro d ts rest hts _ h
  simp only [Stmt.words, List.append_assoc] at hts
  simp only [Stmt.nesting] at h
  obtain ⟨ft, nt, lp, ts', rfl, hft, hnt, hlp, h'⟩ := map_word_cons₃ hts
  obtain ⟨ts₁, ts₂, rfl, h₁, h₂⟩ := List.map_eq_append_iff.mp h'
  obtain ⟨rp, ts₃, rfl, hrp, h₃⟩ := List.map_eq_cons_iff.mp h₂
  have hrk : rp.kind = .rparen := Token.kind_eq_of_word hrp
  rw [show (ft :: nt :: lp :: (ts₁ ++ rp :: ts₃)) ++ rest =
    ft :: nt :: lp :: (ts₁ ++ rp :: (ts₃ ++ rest)) by simp,
    parseStatement_func (Token.kind_eq_of_word hft)]
  obtain ⟨_, hps⟩ := parseParams_names (ts₃ ++ rest) #[] h₁ hrk
  exact parseFunc_fails (Token.kind_eq_of_word hnt) (Token.kind_eq_of_word hlp) hps hrk
    (parseBlock_fails_words hbody h₃ (by omega))

theorem Stmt.failsDeep_if {c : Expr} {t : List Stmt} {p : Pos} (hc : c.FailsDeep lim)
    (rc : c.ReadBack lim) (ht : Stmt.ListFailsDeep lim t) :
    (Stmt.ifElse c t none p).FailsDeep lim := by
  intro d ts rest hts _ h
  simp only [Stmt.words] at hts
  simp only [Stmt.nesting] at h
  obtain ⟨ts₁, ts₂, rfl, h₁, h₂⟩ := List.map_eq_append_iff.mp hts
  obtain ⟨it, ts₃, rfl, hit, h₃⟩ := List.map_eq_cons_iff.mp h₁
  have hik : it.kind = .keyword .ifKw := Token.kind_eq_of_word hit
  rw [show (it :: ts₃ ++ ts₂) ++ rest = it :: (ts₃ ++ (ts₂ ++ rest)) by simp,
    parseStatement_if hik]
  by_cases hfit : d + 1 + c.nesting ≤ lim
  · -- the condition reads back, so the body does not fit
    obtain ⟨_, _, hcond, -⟩ := parseExpression_paren_words lim (d := d) (ts₂ ++ rest) rc h₃ hfit
      (by rw [kindAt_braced h₂]; decide)
    exact parseIf_fails_then hik hcond (parseBlock_fails_words ht h₂ (by omega))
  · exact parseIf_fails_cond hik (parseExpression_fails_paren_words hc h₃ (by omega))

theorem Stmt.failsDeep_ifElse {c : Expr} {t b : List Stmt} {p : Pos} (hc : c.FailsDeep lim)
    (rc : c.ReadBack lim) (ht : Stmt.ListFailsDeep lim t) (rt : Stmt.ListReadBack lim t)
    (hb : Stmt.ListFailsDeep lim b) :
    (Stmt.ifElse c t (some b) p).FailsDeep lim := by
  intro d ts rest hts _ h
  simp only [Stmt.words] at hts
  simp only [Stmt.nesting] at h
  obtain ⟨ts₁, ts₂, rfl, h₁, h₂⟩ := List.map_eq_append_iff.mp hts
  obtain ⟨ts₃, ts₄, rfl, h₃, h₄⟩ := List.map_eq_append_iff.mp h₁
  obtain ⟨it, ts₅, rfl, hit, h₅⟩ := List.map_eq_cons_iff.mp h₃
  obtain ⟨et, ts₆, rfl, het, h₆⟩ := List.map_eq_cons_iff.mp h₂
  have hik : it.kind = .keyword .ifKw := Token.kind_eq_of_word hit
  rw [show (it :: ts₅ ++ ts₄ ++ et :: ts₆) ++ rest = it :: (ts₅ ++ (ts₄ ++ et :: (ts₆ ++ rest)))
    by simp, parseStatement_if hik]
  by_cases hcfit : d + 1 + c.nesting ≤ lim
  · obtain ⟨_, _, hcond, -⟩ :=
      parseExpression_paren_words lim (d := d) (ts₄ ++ et :: (ts₆ ++ rest)) rc h₅ hcfit
        (by rw [kindAt_braced h₄]; decide)
    by_cases htfit : d + 1 + Stmt.listNesting t ≤ lim
    · -- the condition and the first body read back, so the else body does not fit
      obtain ⟨_, _, htb, -⟩ := parseBlock_words (d := d) rt (et :: (ts₆ ++ rest)) h₄ htfit
      exact parseIf_fails_else hik hcond htb (Token.kind_eq_of_word het)
        (by rw [kindAt_braced h₆]; decide) (parseBlock_fails_words hb h₆ (by omega))
    · exact parseIf_fails_then hik hcond (parseBlock_fails_words ht h₄ (by omega))
  · exact parseIf_fails_cond hik (parseExpression_fails_paren_words hc h₅ (by omega))

theorem Stmt.failsDeep_for {x : String} {it : Expr} {body : List Stmt} {p : Pos}
    (hit : it.FailsDeep lim) (rit : it.ReadBack lim) (hbody : Stmt.ListFailsDeep lim body) :
    (Stmt.forIn x it body p).FailsDeep lim := by
  intro d ts rest hts _ h
  simp only [Stmt.words, List.append_assoc] at hts
  simp only [Stmt.nesting] at h
  obtain ⟨ft, nt, int, ts', rfl, hft, hnt, hint, h'⟩ := map_word_cons₃ hts
  obtain ⟨ts₁, ts₂, rfl, h₁, h₂⟩ := List.map_eq_append_iff.mp h'
  have hnk : nt.kind = .ident := Token.kind_eq_of_word hnt
  have hink : int.kind = .keyword .inKw := Token.kind_eq_of_word hint
  rw [show (ft :: nt :: int :: (ts₁ ++ ts₂)) ++ rest = ft :: nt :: int :: (ts₁ ++ (ts₂ ++ rest))
    by simp, parseStatement_for (Token.kind_eq_of_word hft)]
  by_cases hfit : d + 1 + it.nesting ≤ lim
  · -- the iterable reads back, so the body does not fit
    obtain ⟨_, _, hi, -⟩ := parseExpression_paren_words lim (d := d) (ts₂ ++ rest) rit h₁ hfit
      (by rw [kindAt_braced h₂]; decide)
    exact parseFor_fails_body hnk hink hi (parseBlock_fails_words hbody h₂ (by omega))
  · exact parseFor_fails_iter hnk hink (parseExpression_fails_paren_words hit h₁ (by omega))

theorem Stmt.listFailsDeep_nil : Stmt.ListFailsDeep lim [] := by
  intro d T ts rest hr acc _ hd h
  simp only [Stmt.listNesting] at h
  omega

theorem Stmt.listFailsDeep_cons {s : Stmt} {ss : List Stmt} (hs : s.FailsDeep lim)
    (rs : s.ReadBack lim) (hss : Stmt.ListFailsDeep lim ss) :
    Stmt.ListFailsDeep lim (s :: ss) := by
  intro d T ts rest hr acc hts hd h
  simp only [Stmt.listWords] at hts
  rw [Stmt.listNesting] at h
  obtain ⟨ts₁, ts₂, rfl, h₁, h₂⟩ := List.map_eq_append_iff.mp hts
  obtain ⟨w, ws, hw, hwk⟩ := s.words_cons
  obtain ⟨t, ts₁', rfl, ht, -⟩ := List.map_eq_cons_iff.mp (h₁.trans hw)
  have hk := startsStmt_facts hwk
  rw [← Token.kind_eq_of_word ht] at hk
  revert hr
  rw [show (t :: ts₁' ++ ts₂) ++ rest = t :: (ts₁' ++ (ts₂ ++ rest)) by simp]
  intro hr
  by_cases hfit : d + s.nesting ≤ lim
  · -- the first statement reads back, so a later one does not fit, and there is one
    cases ss with
    | nil => simp only [Stmt.listNesting] at h; omega
    | cons s' ss' =>
      obtain ⟨s₁, _, hs', -⟩ := rs d (t :: ts₁') (ts₂ ++ rest) h₁ hfit
        (ne_else_of_startsStmt (startsStmt_kindAt_listWords h₂))
      rw [parseBlockBody_stmt (r := ts₁' ++ (ts₂ ++ rest)) hk hs']
      exact hss d T ts₂ rest _ (acc.push s₁) h₂ hd (by omega)
  · exact parseBlockBody_fails_stmt hk (hs d (t :: ts₁') (ts₂ ++ rest) h₁ hd (by omega))

mutual

theorem Stmt.failsDeep : (s : Stmt) → s.wellFormed = true → s.FailsDeep lim
  | .expr e, h => Stmt.failsDeep_expr (Expr.failsDeep e h)
  | .letDecl _ none _, _ => Stmt.failsDeep_of_nesting_zero rfl
  | .letDecl _ (some e) _, h => by
    simp only [Stmt.wellFormed, Bool.and_eq_true] at h
    exact Stmt.failsDeep_letSome (Expr.failsDeep e h.2)
  | .constDecl _ e _, h => by
    simp only [Stmt.wellFormed, Bool.and_eq_true] at h
    exact Stmt.failsDeep_const (Expr.failsDeep e h.2)
  | .funcDecl _ _ body _, h => by
    simp only [Stmt.wellFormed, Bool.and_eq_true] at h
    exact Stmt.failsDeep_func (Stmt.listFailsDeep body h.2)
  | .ret none _, _ => Stmt.failsDeep_of_nesting_zero rfl
  | .ret (some e) _, h => Stmt.failsDeep_retSome (Expr.failsDeep e h)
  | .ifElse c t none _, h => by
    simp only [Stmt.wellFormed, Bool.and_eq_true] at h
    exact Stmt.failsDeep_if (Expr.failsDeep c h.1) (Expr.readBack c h.1)
      (Stmt.listFailsDeep t h.2)
  | .ifElse c t (some b) _, h => by
    simp only [Stmt.wellFormed, Bool.and_eq_true] at h
    exact Stmt.failsDeep_ifElse (Expr.failsDeep c h.1.1) (Expr.readBack c h.1.1)
      (Stmt.listFailsDeep t h.1.2) (Stmt.listReadBack t h.1.2) (Stmt.listFailsDeep b h.2)
  | .forIn _ it body _, h => by
    simp only [Stmt.wellFormed, Bool.and_eq_true] at h
    exact Stmt.failsDeep_for (Expr.failsDeep it h.1.2) (Expr.readBack it h.1.2)
      (Stmt.listFailsDeep body h.2)

theorem Stmt.listFailsDeep : (ss : List Stmt) → Stmt.allWellFormed ss = true →
    Stmt.ListFailsDeep lim ss
  | [], _ => Stmt.listFailsDeep_nil
  | s :: ss, h => by
    simp only [Stmt.allWellFormed, Bool.and_eq_true] at h
    exact Stmt.listFailsDeep_cons (Stmt.failsDeep s h.1) (Stmt.readBack s h.1)
      (Stmt.listFailsDeep ss h.2)

end

/-! ### Programs -/

theorem parseProgramFrom_fails_words {e : Token} (he : e.kind = .eof) :
    ∀ (p : Program) (ts : List Token) (acc : Array Stmt), p.wellFormed = true →
      ts.map Token.word = Stmt.listWords p → lim < p.nesting →
        Fails (parseProgramFrom (some lim) (ts ++ [e]) acc) (TooDeep lim)
  | [], _, _, _, _, h => by simp [Program.nesting, Stmt.listNesting] at h
  | s :: p, ts, acc, hwf, hts, h => by
    simp only [Program.wellFormed, Stmt.allWellFormed, Bool.and_eq_true] at hwf
    simp only [Stmt.listWords] at hts
    simp only [Program.nesting, Stmt.listNesting] at h
    obtain ⟨ts₁, ts₂, rfl, h₁, h₂⟩ := List.map_eq_append_iff.mp hts
    obtain ⟨w, ws, hw, hwk⟩ := s.words_cons
    obtain ⟨t, ts₁', rfl, ht, -⟩ := List.map_eq_cons_iff.mp (h₁.trans hw)
    have hk := startsStmt_facts hwk
    rw [← Token.kind_eq_of_word ht] at hk
    rw [show (t :: ts₁' ++ ts₂) ++ [e] = t :: (ts₁' ++ (ts₂ ++ [e])) by simp]
    by_cases hfit : s.nesting ≤ lim
    · obtain ⟨s', _, hs', -⟩ := @Stmt.readBack lim s hwf.1 0 (t :: ts₁') (ts₂ ++ [e]) h₁
        (by omega) (kindAt_listWords_ne_else h₂ (by rw [kindAt_cons, he]; decide))
      rw [parseProgramFrom_stmt (r := ts₁' ++ (ts₂ ++ [e])) ⟨hk.2.1, hk.2.2⟩ hs']
      exact parseProgramFrom_fails_words he p ts₂ (acc.push s') hwf.2 h₂
        (by simp only [Program.nesting]; omega)
    · exact parseProgramFrom_fails ⟨hk.2.1, hk.2.2⟩
        (Stmt.failsDeep s hwf.1 0 (t :: ts₁') (ts₂ ++ [e]) h₁ (Nat.zero_le _) (by omega))

/-- The printed text of a well-formed program that nests deeper than `maxNesting` is rejected
with the depth error, not as incomplete input. -/
theorem parse_print_of_nesting_gt {p : Program} (hw : p.wellFormed = true)
    (hd : maxNesting < p.nesting) : Fails (parse p.print) (TooDeep maxNesting) := by
  obtain ⟨ts, pos, htok, hts⟩ := Lexer.tokenize_render (Lexer.Stmt.allReadable_listWords p hw)
  rw [parse, Program.print, htok]
  show Fails (parseTokensWith (some maxNesting) _) _
  rw [parseTokensWith, closeTokens_of_eof]
  exact parseProgramFrom_fails_words (e := ⟨.eof, "", pos⟩) rfl p ts #[] hw hts hd

end Treewalk
