import Mathlib
import Treewalk.Proofs.Syntax.LexAppend
import Treewalk.Proofs.Syntax.ParseErrors
import Treewalk.Proofs.Syntax.ParseExtend
import Treewalk.Proofs.Syntax.ReadProgram
import Treewalk.Proofs.Syntax.TooDeep
/-!
# Incomplete input

A failed parse is marked incomplete when it met the end of the text: inside a string or a block
comment, or at the end of input in the parser. A failure that is neither incomplete nor the
nesting limit is found at a token of the text, so after a text that ends with a line feed no
further text makes the parse succeed: the longer text fails with the same error, or does not
lex. Hence a text that more input completes failed incompletely or at the nesting limit.

The converse does not hold. In `)/*` the comment is unterminated, an incomplete failure, but
whatever closes the comment leaves the `)` that no program starts with. Nor is every failure at
the nesting limit lasting: 999 parentheses and `f(` run out of levels at the end of input,
where the call's first argument would start, and closing the call there needs no level.
-/

namespace Treewalk.Lexer

theorem scanFrom_error_incomplete {cs : List Rune} {p : Pos} {acc : Array Token} {e : Error}
    (h : scanFrom cs p acc = .error e) : e.incomplete = true := by
  fun_induction scanFrom cs p acc with
  | case1 => cases h
  | case3 | case7 =>
    cases h
    rfl
  | case2 | case4 | case5 | case6 | case8 | case9 | case10 =>
    rename_i ih
    exact ih h

theorem tokenizeRunes_error_incomplete {rs : List Rune} {e : Error}
    (h : tokenizeRunes rs = .error e) : e.incomplete = true := by
  unfold tokenizeRunes at h
  cases hs : scanFrom rs Pos.start #[] with
  | error e' =>
    rw [hs] at h
    cases h
    exact scanFrom_error_incomplete hs
  | ok out =>
    rw [hs] at h
    cases h

theorem tokenizeRunes_rparen (rs : List Rune) :
    (∃ e, tokenizeRunes (.char ')' :: rs) = .error e) ∨
      ∃ p r, tokenizeRunes (.char ')' :: rs) = .ok (⟨.rparen, "", p⟩ :: r) := by
  have hp : punctuation (.char ')') rs = some (.rparen, rs) := rfl
  have hsc : scanFrom (.char ')' :: rs) Pos.start #[] =
      scanFrom rs (after Pos.start (.char ')' :: rs) rs) (#[].push ⟨.rparen, "", Pos.start⟩) := by
    rw [scanFrom_other (by decide +kernel) (by decide) (by decide)
      (fun h => absurd h (by decide)), hp]
  unfold tokenizeRunes
  rw [hsc]
  cases hs : scanFrom rs (after Pos.start (.char ')' :: rs) rs) (#[].push ⟨.rparen, "", Pos.start⟩) with
  | error e => exact .inl ⟨e, rfl⟩
  | ok out =>
    obtain ⟨more, q, hout⟩ := scanFrom_ok hs
    exact .inr ⟨Pos.start, more ++ [⟨.eof, "", q⟩], by simp [Except.map, hout]⟩

theorem scanFrom_replicate {c : Char} {k : TokenKind} (hn : isNameStart c = false)
    (hd : c.isDigit = false) (hq : c ≠ '"') (hs : c ≠ '/')
    (hp : ∀ rs, punctuation (.char c) rs = some (k, rs)) (n : Nat) (rest : List Rune) (p : Pos)
    (acc : Array Token) :
    ∃ (ts : List Token) (q : Pos), ts.map Token.kind = List.replicate n k ∧
      scanFrom (List.replicate n (.char c) ++ rest) p acc = scanFrom rest q (acc ++ ts.toArray) := by
  induction n generalizing p acc with
  | zero => exact ⟨[], p, rfl, by simp⟩
  | succ n ih =>
    obtain ⟨ts, q, hk, hscan⟩ := ih (after p (.char c :: (List.replicate n (.char c) ++ rest))
      (List.replicate n (.char c) ++ rest)) (acc.push ⟨k, "", p⟩)
    refine ⟨⟨k, "", p⟩ :: ts, q, by simp [hk, List.replicate_succ], ?_⟩
    rw [List.replicate_succ, List.cons_append,
      scanFrom_other (c := .char c) hn hd hq (fun h => absurd (Rune.char.inj h) hs)]
    simp only [hp]
    rw [hscan]
    simp

theorem scanFrom_openCall (rest : List Rune) (p : Pos) (acc : Array Token) :
    ∃ p₁ p₂, scanFrom (.char 'f' :: .char '(' :: .char '\n' :: rest) p acc =
      scanFrom rest p₂ ((acc.push ⟨.ident, "f", p⟩).push ⟨.lparen, "", p₁⟩) := by
  have htake : (.char '(' :: .char '\n' :: rest).takeWhile partOfName = [] := by
    rw [List.takeWhile_cons_of_neg (by decide)]
  have hdrop : (.char '(' :: .char '\n' :: rest).dropWhile partOfName =
      .char '(' :: .char '\n' :: rest := by
    rw [List.dropWhile_cons_of_neg (by decide)]
  have hname : nameToken (String.ofList ([Rune.char 'f'].map Rune.toChar)) p = ⟨.ident, "f", p⟩ := by
    have hkw : Keyword.ofString? (String.ofList ([Rune.char 'f'].map Rune.toChar)) = none := by
      decide
    rw [nameToken, hkw]
    rfl
  have hp : punctuation (.char '(') (.char '\n' :: rest) = some (.lparen, .char '\n' :: rest) := rfl
  rw [scanFrom_name (c := .char 'f') (by decide), htake, hdrop, hname,
    scanFrom_other (c := .char '(') (by decide) (by decide) (by decide)
      (fun h => absurd h (by decide)), hp]
  dsimp only
  rw [scanFrom_other (c := .char '\n') (by decide) (by decide) (by decide)
    (fun h => absurd h (by decide)), punctuation_newline]
  exact ⟨_, _, rfl⟩

/-- `n` opening parentheses, `f(` and a line feed, then any runes: the tokens of the
parentheses, of the name and of the parenthesis, then those of the runes after the line feed. -/
theorem tokenizeRunes_openCall (n : Nat) (rest : List Rune) :
    ∃ (ps : List Token) (f lp : Token) (q : Pos), ps.map Token.kind = List.replicate n .lparen ∧
      f.kind = .ident ∧ lp.kind = .lparen ∧
      tokenizeRunes (List.replicate n (.char '(') ++ .char 'f' :: .char '(' :: .char '\n' :: rest) =
        (scanFrom rest q (((#[] ++ ps.toArray).push f).push lp)).map Array.toList := by
  obtain ⟨ps, q, hps, hscan⟩ := scanFrom_replicate (c := '(') (k := .lparen) (by decide)
    (by decide) (by decide) (by decide) (fun _ => rfl) n
    (.char 'f' :: .char '(' :: .char '\n' :: rest) Pos.start #[]
  obtain ⟨p₁, p₂, hcall⟩ := scanFrom_openCall rest q (#[] ++ ps.toArray)
  exact ⟨ps, _, _, p₂, hps, rfl, rfl, by rw [tokenizeRunes, hscan, hcall]⟩

end Treewalk.Lexer

namespace Treewalk.Parser

theorem closeTokens_cons (t : Token) (r : List Token) : ∃ r', closeTokens (t :: r) = t :: r' := by
  unfold closeTokens
  split
  · split
    · exact ⟨r, rfl⟩
    · exact ⟨r ++ _, rfl⟩
  · next h => simp at h

theorem parseTokens_rparen {t : Token} {r : List Token} (ht : t.kind = .rparen) :
    Fails (parseTokens (t :: r)) Lasting := by
  obtain ⟨r', hr'⟩ := closeTokens_cons t r
  unfold parseTokens parseTokensWith
  rw [hr']
  refine parseProgramFrom_fails (by rw [ht]; decide) ?_
  rw [parseStatement_expr (fun k => by rw [kindAt_cons, ht]; exact nofun)]
  refine parseExprStmt_fails (parseExpression_fails_of_primary (by decide)
    (by rw [kindAt_cons, ht]; decide) ⟨failAt (t :: r') (.unexpectedToken .rparen), ?_, ?_, ?_⟩)
  · rw [parsePrimary.eq_def]
    dsimp only
    rw [ht]
  · simp [failAt, current, ht]
  · exact fun l => nofun

/-- A parse failure that is neither incomplete nor the nesting limit stays: after a text that
ends with a line feed, any further text fails with the same error, or fails to lex. -/
theorem parse_append_of_lasting {pre : String} {err : Error}
    (h : parse (pre ++ "\n") = .error err) (hl : Lasting err) (s : String) :
    parse (pre ++ "\n" ++ s) = .error err ∨
      ∃ e, Lexer.tokenize (pre ++ "\n" ++ s) = .error e ∧ parse (pre ++ "\n" ++ s) = .error e := by
  cases ht : Lexer.tokenize (pre ++ "\n") with
  | error e =>
    -- the lexer's failures are incomplete, and `err` is not
    rw [parse, ht] at h
    cases h
    have hi := Lexer.tokenizeRunes_error_incomplete ((Lexer.tokenize_eq _).symm.trans ht)
    rw [hl.1] at hi
    cases hi
  | ok ts =>
    rw [parse, ht] at h
    obtain ⟨A, q, rfl, hs⟩ := Lexer.tokenize_append ht
    rcases hs s with ⟨e, he⟩ | ⟨B, q', hB⟩
    · exact .inr ⟨e, he, by rw [parse, he]⟩
    · left
      rw [parse, hB]
      unfold parseTokens parseTokensWith at h ⊢
      dsimp only at h ⊢
      rw [closeTokens_of_eof] at h
      rw [closeTokens_of_eof, List.append_assoc]
      exact parseProgramFrom_lasting rfl A #[] h hl

/-- A text ending with a line feed that more input completes failed incompletely, or at the
nesting limit. -/
theorem incomplete_of_completable {pre : String} {err : Error}
    (h : parse (pre ++ "\n") = .error err) {s : String} {q : Program}
    (hq : parse (pre ++ "\n" ++ s) = .ok q) :
    err.incomplete = true ∨ ∃ l, err.fault = .nestingTooDeep l := by
  by_cases hi : err.incomplete = true
  · exact .inl hi
  by_cases hd : ∃ l, err.fault = .nestingTooDeep l
  · exact .inr hd
  have hl : Lasting err := ⟨by simpa using hi, fun l h => hd ⟨l, h⟩⟩
  rcases parse_append_of_lasting h hl s with hs | ⟨e, -, hs⟩
  · rw [hs] at hq
    cases hq
  · rw [hs] at hq
    cases hq

/-- An unterminated string is completed by its closing quote. -/
theorem incomplete_of_completable_quote :
    ∃ err, parse ("\"" ++ "\n") = .error err ∧ (∃ q, parse ("\"" ++ "\n" ++ "\" ; ") = .ok q) ∧
      (err.incomplete = true ∨ ∃ l, err.fault = .nestingTooDeep l) := by
  have hlex : (Lexer.tokenize ("\"" ++ "\n")).mapError Error.incomplete = .error true := by
    decide +kernel
  obtain ⟨err, herr⟩ : ∃ err, parse ("\"" ++ "\n") = .error err := by
    cases ht : Lexer.tokenize ("\"" ++ "\n") with
    | error e => exact ⟨e, by rw [parse, ht]⟩
    | ok ts =>
      rw [ht] at hlex
      cases hlex
  have hprint : ("\"" ++ "\n" ++ "\" ; " : String) = Program.print [.expr (.str "\n" default)] := by
    decide +kernel
  obtain ⟨q, hq, -⟩ := parse_print_of_nesting_le (p := [.expr (.str "\n" default)])
    (by decide +kernel) (by decide +kernel)
  rw [← hprint] at hq
  exact ⟨err, herr, ⟨q, hq⟩, incomplete_of_completable herr hq⟩

/-- The text `)/*` fails incompletely, inside its comment, yet no text completes it. -/
theorem rparen_comment_never_completes :
    (∃ err, parse ")/*\n" = .error err ∧ err.incomplete = true) ∧
      ∀ (s : String) (q : Program), parse (")/*\n" ++ s) ≠ .ok q := by
  refine ⟨?_, fun s q hq => ?_⟩
  · have hlex : (Lexer.tokenize ")/*\n").mapError Error.incomplete = .error true := by
      decide +kernel
    cases ht : Lexer.tokenize ")/*\n" with
    | error e =>
      rw [ht] at hlex
      exact ⟨e, by rw [parse, ht], Except.error.inj hlex⟩
    | ok ts =>
      rw [ht] at hlex
      cases hlex
  · have hcs : Lexer.tokenize (")/*\n" ++ s) =
        Lexer.tokenizeRunes (.char ')' :: (String.toList "/*\n" ++ s.toList).map Rune.char) := by
      rw [Lexer.tokenize_eq]
      simp
    rcases Lexer.tokenizeRunes_rparen ((String.toList "/*\n" ++ s.toList).map Rune.char) with
      ⟨e, he⟩ | ⟨p, r, hr⟩
    · rw [parse, hcs, he] at hq
      cases hq
    · obtain ⟨e, he, -⟩ := parseTokens_rparen (t := ⟨.rparen, "", p⟩) (r := r) rfl
      rw [parse, hcs, hr] at hq
      dsimp only at hq
      rw [he] at hq
      cases hq

/-! ### The nesting limit at the end of input -/

section OpenCall

variable {lim : Nat} {f lp : Token}

/-- `(` ⋯ `(` `f` `(` and the end of input: one level per parenthesis, one for the expression
inside them and one for the call's first argument, which is past the limit exactly when the
parentheses leave one level. -/
theorem parseExpression_fails_openCall {ps : List Token} (hps : ∀ t ∈ ps, t.kind = .lparen)
    (hf : f.kind = .ident) (hlp : lp.kind = .lparen) {e : Token} (he : e.kind = .eof) {d : Nat}
    (hd : d + ps.length + 1 = lim) :
    Fails (parseExpression (some lim) d (ps ++ [f, lp, e])) (TooDeep lim) := by
  induction ps generalizing d with
  | nil =>
    -- the argument after `f(` would need the level past the limit
    rw [List.length_nil] at hd
    rw [List.nil_append]
    refine parseExpression_fails_of_parsePostfix (by omega)
      (by rw [kindAt_cons, hf]; decide) ?_
    rw [parsePostfix_eq (parsePrimary_ident hf)]
    exact postfixTail_fails_call hlp
      (parseArgs_fails (by rw [kindAt_cons, he]; decide) (parseExpression_fails_enter (by omega)))
  | cons t ps ih =>
    rw [List.length_cons] at hd
    exact parseExpression_fails_paren (hps t List.mem_cons_self)
      (ih (fun u hu => hps u (List.mem_cons_of_mem t hu)) (by omega))

theorem parseExpression_closedCall {rp : Token} {ps rs : List Token}
    (hps : ∀ t ∈ ps, t.kind = .lparen) (hrs : ∀ t ∈ rs, t.kind = .rparen)
    (hlen : rs.length = ps.length) (hf : f.kind = .ident) (hlp : lp.kind = .lparen)
    (hrp : rp.kind = .rparen) {rest : List Token} (hrest : endsExpr (kindAt rest) = true)
    {d : Nat} (hd : d + ps.length + 1 ≤ lim) :
    ∃ x, Yields (parseExpression (some lim) d (ps ++ f :: lp :: rp :: rs ++ rest)) id x rest := by
  induction ps generalizing d rs rest with
  | nil =>
    rw [List.length_nil, List.length_eq_zero_iff] at hlen
    subst hlen
    rw [List.length_nil] at hd
    simp only [List.nil_append, List.cons_append]
    refine ⟨.call (.ident f.lexeme f.pos) [] lp.pos, parseExpression_of_parsePostfix (by omega)
      (by rw [kindAt_cons, hf]; decide) hrest ⟨_, by simp only [List.length_cons]; omega, ?_, rfl⟩⟩
    rw [parsePostfix_eq (parsePrimary_ident hf), postfixTail_call hlp (parseArgs_close hrp),
      postfixTail_stop (endsExpr_stopsPostfix hrest)]
  | cons t ps ih =>
    -- the last closing parenthesis matches the first opening one
    rcases List.eq_nil_or_concat rs with rfl | ⟨rs, u, rfl⟩
    · simp at hlen
    rw [List.concat_eq_append] at hrs hlen ⊢
    have hu : u.kind = .rparen := hrs u (by simp)
    rw [List.length_append, List.length_singleton, List.length_cons] at hlen
    rw [List.length_cons] at hd
    obtain ⟨x, hx⟩ := @ih rs (fun v hv => hps v (List.mem_cons_of_mem t hv))
      (fun v hv => hrs v (List.mem_append_left _ hv)) (by omega) (u :: rest)
      (by rw [kindAt_cons, hu]; rfl) (d + 1) (by omega)
    refine ⟨x, ?_⟩
    rw [show t :: ps ++ f :: lp :: rp :: (rs ++ [u]) ++ rest =
      t :: ((ps ++ f :: lp :: rp :: rs) ++ u :: rest) by simp]
    exact parseExpression_paren (by omega) (hps t List.mem_cons_self) hu hrest
      (by simpa using hx)

end OpenCall

theorem kind_of_mem_replicate {ts : List Token} {k : TokenKind} {n : Nat}
    (h : ts.map Token.kind = List.replicate n k) : ∀ t ∈ ts, t.kind = k :=
  fun _ ht => List.eq_of_mem_replicate (h ▸ List.mem_map_of_mem ht)

/-- At the end of input the nesting limit need not last: 999 parentheses and `f(` fail there
with the depth error, which is not marked incomplete, and yet closing the call and the
parentheses makes the text parse. -/
theorem nestingLimit_at_end_completes :
    (∃ err, parse (String.ofList (List.replicate 999 '(') ++ "f(" ++ "\n") = .error err ∧
      err.incomplete = false ∧ err.fault = .nestingTooDeep maxNesting) ∧
    ∃ s q, parse (String.ofList (List.replicate 999 '(') ++ "f(" ++ "\n" ++ s) = .ok q := by
  have h₁ : ("f(" : String).toList = ['f', '('] := by decide
  have h₂ : ("\n" : String).toList = ['\n'] := by decide
  have h₃ : (String.ofList (List.replicate 1000 ')') ++ ";").toList = List.replicate 1000 ')' ++ [';'] := by
    simp only [String.toList_append, String.toList_ofList]
    rfl
  have hruns : ∀ s : String, (String.ofList (List.replicate 999 '(') ++ "f(" ++ "\n" ++ s).toList.map
      Rune.char = List.replicate 999 (.char '(') ++ .char 'f' :: .char '(' :: .char '\n' ::
        s.toList.map Rune.char := by
    intro s
    simp only [String.toList_append, String.toList_ofList, List.map_append, List.map_replicate,
      List.append_assoc, h₁, h₂]
    rfl
  constructor
  · obtain ⟨ps, f, lp, q, hps, hf, hlp, htok⟩ := Lexer.tokenizeRunes_openCall 999 []
    have hlen : ps.length = 999 := by
      have := congrArg List.length hps
      rwa [List.length_map, List.length_replicate] at this
    have hne : ps ≠ [] := List.ne_nil_of_length_pos (by omega)
    obtain ⟨t, ps', rfl⟩ := List.exists_cons_of_ne_nil hne
    have hps' := kind_of_mem_replicate hps
    have hfails : Fails (parseTokens ((t :: ps') ++ [f, lp, ⟨.eof, "", q⟩])) (TooDeep maxNesting) := by
      unfold parseTokens parseTokensWith
      rw [show (t :: ps') ++ [f, lp, ⟨.eof, "", q⟩] = ((t :: ps') ++ [f, lp]) ++ [⟨.eof, "", q⟩] by
        simp, closeTokens_of_eof, List.append_assoc, List.cons_append]
      have ht := hps' t List.mem_cons_self
      refine parseProgramFrom_fails (by rw [ht]; decide) ?_
      rw [parseStatement_expr (fun k => by rw [kindAt_cons, ht]; exact nofun), ← List.cons_append]
      exact parseExprStmt_fails (parseExpression_fails_openCall hps' hf hlp rfl (by
        rw [hlen]; rfl))
    obtain ⟨err, herr, hdeep⟩ := hfails
    refine ⟨err, ?_, hdeep.2, hdeep.1⟩
    have hs := hruns ""
    rw [String.append_empty, String.toList_empty, List.map_nil] at hs
    rw [parse, Lexer.tokenize_eq, hs, htok, Lexer.scanFrom.eq_1, ← herr]
    simp [Except.map]
  · refine ⟨String.ofList (List.replicate 1000 ')') ++ ";", ?_⟩
    have hclose : (String.ofList (List.replicate 1000 ')') ++ ";").toList.map Rune.char =
        List.replicate 1000 (.char ')') ++ [.char ';'] := by
      rw [h₃, List.map_append, List.map_replicate]
      rfl
    obtain ⟨ps, f, lp, q, hps, hf, hlp, htok⟩ :=
      Lexer.tokenizeRunes_openCall 999 (List.replicate 1000 (.char ')') ++ [.char ';'])
    obtain ⟨rs, q', hrs, hscan⟩ := Lexer.scanFrom_replicate (c := ')') (k := .rparen) (by decide)
      (by decide) (by decide) (by decide) (fun _ => rfl) 1000 [.char ';'] q
      (((#[] ++ ps.toArray).push f).push lp)
    have hsemi : Lexer.punctuation (.char ';') [] = some (.semicolon, []) := rfl
    have hlen : ps.length = 999 := by
      have := congrArg List.length hps
      rwa [List.length_map, List.length_replicate] at this
    have hlen' : rs.length = 1000 := by
      have := congrArg List.length hrs
      rwa [List.length_map, List.length_replicate] at this
    have hne : ps ≠ [] := List.ne_nil_of_length_pos (by omega)
    obtain ⟨t, ps', rfl⟩ := List.exists_cons_of_ne_nil hne
    have hne' : rs ≠ [] := List.ne_nil_of_length_pos (by omega)
    obtain ⟨rp, rs', rfl⟩ := List.exists_cons_of_ne_nil hne'
    have hps' := kind_of_mem_replicate hps
    have hrs' := kind_of_mem_replicate hrs
    have ht := hps' t List.mem_cons_self
    have htoks : Lexer.tokenize (String.ofList (List.replicate 999 '(') ++ "f(" ++ "\n" ++
        (String.ofList (List.replicate 1000 ')') ++ ";")) =
        .ok (t :: (ps' ++ f :: lp :: rp :: (rs' ++
          [⟨.semicolon, "", q'⟩, ⟨.eof, "", Lexer.after q' [.char ';'] []⟩]))) := by
      rw [Lexer.tokenize_eq, hruns, hclose, htok, hscan, Lexer.scanFrom_other (c := .char ';')
        (by decide) (by decide) (by decide) (fun h => absurd h (by decide)), hsemi]
      dsimp only
      rw [Lexer.scanFrom.eq_1]
      simp [Except.map]
    obtain ⟨x, hx⟩ := parseExpression_closedCall hps'
      (fun u hu => hrs' u (List.mem_cons_of_mem rp hu))
      (by simp only [List.length_cons] at hlen hlen' ⊢; omega) hf hlp (hrs' rp List.mem_cons_self)
      (show endsExpr (kindAt [⟨.semicolon, "", q'⟩, ⟨.eof, "", Lexer.after q' [.char ';'] []⟩]) = true
        from rfl) (show 0 + (t :: ps').length + 1 ≤ maxNesting by rw [hlen]; decide)
    rw [List.cons_append, List.cons_append, List.append_assoc, List.cons_append, List.cons_append,
      List.cons_append] at hx
    obtain ⟨a, ha, hparse, -⟩ := hx
    have hstmt := parseExprStmt_semicolon hparse rfl
    rw [← parseStatement_expr (fun k => by rw [kindAt_cons, ht]; exact nofun)] at hstmt
    have hend : t :: (ps' ++ f :: lp :: rp :: (rs' ++
        [⟨.semicolon, "", q'⟩, ⟨.eof, "", Lexer.after q' [.char ';'] []⟩])) =
        t :: (ps' ++ f :: lp :: rp :: (rs' ++ [⟨.semicolon, "", q'⟩])) ++
          [⟨.eof, "", Lexer.after q' [.char ';'] []⟩] := by simp
    refine ⟨[.expr a], ?_⟩
    rw [parse, htoks]
    unfold parseTokens parseTokensWith
    dsimp only
    rw [hend, closeTokens_of_eof, ← hend, parseProgramFrom_stmt (by rw [ht]; decide) hstmt,
      parseProgramFrom_eof rfl]
    rfl

end Treewalk.Parser
