import Mathlib
import Treewalk.Proofs.Syntax.ParseExtend
/-!
# A program followed by a `;` and more

Read `A ++ [e₁]`, `e₁` the end of input, and `A ++ s :: C`, `s` a `;`. As long as the parser
reads inside `A` the two runs take the same steps, and where the first stops at `e₁` the
second stops at `s`: every step that may end at the end of input looks there only for a token
that could continue it (an operator, a `.`, a `(`, a `[`, an `=`, an `else`, a `,`), and a
`;` is none of these. The one exception is an expression statement, whose optional `;` the
second run takes.

`Tracks e₁ B A x y` states this for one parse step, `x` its run on `A ++ [e₁]` and `y` on
`A ++ B`; every parsing function has a lemma saying that its second run tracks its first,
proved by the parser's own recursion. At the level of programs it follows that a program
followed by a `;` and more tokens is read as the program, then the tokens after the `;` as if
they started the input.
-/
namespace Treewalk.Parser

/-- The run `y` of a parse step on `A ++ B` tracks its run `x` on `A ++ [e₁]`: where `x`
succeeds, stopping at `A' ++ [e₁]` for a suffix `A'` of `A`, `y` succeeds with the same value
and stops at `A' ++ B`. -/
def Tracks (e₁ : Token) (B : List Token) {P Q : List Token → Prop} {α : Type} (A : List Token)
    (x : Except Error (α × Subtype P)) (y : Except Error (α × Subtype Q)) : Prop :=
  ∀ a r h, x = .ok (a, ⟨r, h⟩) → ∃ A', r = A' ++ [e₁] ∧ A' <:+ A ∧ ∃ h', y = .ok (a, ⟨A' ++ B, h'⟩)

section Tracks

variable {e₁ : Token} {B : List Token} {P Q : List Token → Prop} {α : Type} {A : List Token}
  {x : Except Error (α × Subtype P)} {y : Except Error (α × Subtype Q)}

theorem tracks_error {err : Error} :
    Tracks e₁ B A (.error err : Except Error (α × Subtype P)) y :=
  fun _ _ _ hx => by cases hx

theorem tracks_ok {a : α} {A' : List Token} {h : P (A' ++ [e₁])} {h' : Q (A' ++ B)}
    (hsuf : A' <:+ A) :
    Tracks e₁ B A (.ok (a, ⟨A' ++ [e₁], h⟩) : Except Error (α × Subtype P))
      (.ok (a, ⟨A' ++ B, h'⟩)) :=
  fun _ _ _ hx => by cases hx; exact ⟨A', rfl, hsuf, h', rfl⟩

theorem tracks_ok_nil {a : α} {h : P [e₁]} {h' : Q B} :
    Tracks e₁ B A (.ok (a, ⟨[e₁], h⟩) : Except Error (α × Subtype P)) (.ok (a, ⟨B, h'⟩)) :=
  fun _ _ _ hx => by cases hx; exact ⟨[], rfl, List.nil_suffix, h', rfl⟩

theorem tracks_ok_cons {a : α} {u : Token} {A₂ : List Token} {h : P (u :: (A₂ ++ [e₁]))}
    {h' : Q (u :: (A₂ ++ B))} (hsuf : u :: A₂ <:+ A) :
    Tracks e₁ B A (.ok (a, ⟨u :: (A₂ ++ [e₁]), h⟩) : Except Error (α × Subtype P))
      (.ok (a, ⟨u :: (A₂ ++ B), h'⟩)) :=
  fun _ _ _ hx => by cases hx; exact ⟨u :: A₂, rfl, hsuf, h', rfl⟩

theorem Tracks.mono {A₀ : List Token} (h : Tracks e₁ B A₀ x y) (hA : A₀ <:+ A) :
    Tracks e₁ B A x y := by
  intro a r hr hx
  obtain ⟨A', hr', hsuf, hy⟩ := h a r hr hx
  exact ⟨A', hr', hsuf.trans hA, hy⟩

theorem Stops.tracks (h : Stops e₁ x) (hP : ¬ P [e₁]) : Tracks e₁ B A x y := by
  intro a r hr hx
  obtain rfl := h.1 a r hr hx
  exact absurd hr hP

/-- `Tracks`, except that where the first run stops at `e₁` the second may instead take the
`;` in front of `C` and stop after it. -/
def TracksPast (e₁ s : Token) (C : List Token) {P Q : List Token → Prop} {α : Type}
    (A : List Token) (x : Except Error (α × Subtype P)) (y : Except Error (α × Subtype Q)) :
    Prop :=
  ∀ a r h, x = .ok (a, ⟨r, h⟩) → ∃ A', r = A' ++ [e₁] ∧ A' <:+ A ∧
    ((∃ h', y = .ok (a, ⟨A' ++ s :: C, h'⟩)) ∨ (A' = [] ∧ ∃ h', y = .ok (a, ⟨C, h'⟩)))

theorem Tracks.past {s : Token} {C : List Token} (h : Tracks e₁ (s :: C) A x y) :
    TracksPast e₁ s C A x y := by
  intro a r hr hx
  obtain ⟨A', hr', hsuf, hy⟩ := h a r hr hx
  exact ⟨A', hr', hsuf, .inl hy⟩

end Tracks

variable {limit : Option Nat} {e₁ s : Token} {C : List Token}

theorem expect_tracks (he : e₁.kind = .eof) {k : TokenKind} (hk : k ≠ .eof) (A : List Token) :
    Tracks e₁ B A (expect k (A ++ [e₁])) (expect k (A ++ B)) := by
  cases A with
  | nil =>
    rw [List.nil_append, expect, if_neg (by rw [he]; exact Ne.symm hk)]
    exact tracks_error
  | cons t A =>
    simp only [List.cons_append, expect]
    by_cases ht : t.kind = k
    · rw [if_pos ht, if_pos ht]
      exact tracks_ok (List.suffix_cons t A)
    · rw [if_neg ht, if_neg ht]
      exact tracks_error

theorem expect_cons_ne {k : TokenKind} {t : Token} {rest : List Token} (h : t.kind ≠ k) :
    expect k (t :: rest) = .error (failAt (t :: rest) (.expected k t.kind)) := by
  simp [expect, h]

/-! ### Expressions -/

section Expressions

variable (limit) (he : e₁.kind = .eof) (hs : s.kind = .semicolon)
include he hs

-- every lemma of the mutual block takes `he` and `hs`, some only to pass them on
set_option linter.unusedSectionVars false

mutual

theorem parseExpression_tracks (d : Nat) (A : List Token) :
    Tracks e₁ (s :: C) A (parseExpression limit d (A ++ [e₁]))
      (parseExpression limit d (A ++ s :: C)) := by
  rw [parseExpression.eq_def, parseExpression.eq_def]
  split
  · exact tracks_error
  · next d' h =>
    rw [enter_ok_of_ok h]
    exact parseAssignment_tracks d' A
termination_by (A.length, 15)
decreasing_by all_goals (apply lex_of_lt_or; omega)

theorem parseAssignment_tracks (d : Nat) (A : List Token) :
    Tracks e₁ (s :: C) A (parseAssignment limit d (A ++ [e₁]))
      (parseAssignment limit d (A ++ s :: C)) := by
  have ih := parseOperand_tracks d A
  rw [parseAssignment.eq_def, parseAssignment.eq_def]
  split
  · exact tracks_error
  · next lhs r₁ h₁ hl =>
    obtain ⟨A₁, rfl, hsuf, h₁', hy⟩ := ih lhs r₁ h₁ hl
    rw [hy]
    match A₁, h₁, h₁', hsuf with
    | [], _, _, _ =>
      simp only [List.nil_append, he, hs, reduceCtorEq, ↓reduceIte]
      exact tracks_ok_nil
    | t :: A₂, h₁, h₁', hsuf =>
      dsimp only [List.cons_append]
      have hsuf₂ : A₂ <:+ A := (List.suffix_cons t A₂).trans hsuf
      have hlt : A₂.length < A.length := by
        have := hsuf.length_le
        simp only [List.length_cons] at this
        omega
      by_cases hk : t.kind = .assign
      · rw [if_pos hk, if_pos hk]
        cases lhs.toTarget? with
        | none => exact tracks_error
        | some target =>
          dsimp only
          have ih₂ := parseExpression_tracks d A₂
          split
          · exact tracks_error
          · next v r₂ h₂ hv =>
            obtain ⟨A₃, rfl, hsuf₃, h₃, hy₃⟩ := ih₂ v r₂ h₂ hv
            rw [hy₃]
            exact tracks_ok (hsuf₃.trans hsuf₂)
      · rw [if_neg hk, if_neg hk]
        exact tracks_ok_cons hsuf
termination_by (A.length, 14)
decreasing_by all_goals (apply lex_of_lt_or; omega)

theorem parseOperand_tracks (d : Nat) (A : List Token) :
    Tracks e₁ (s :: C) A (parseOperand limit d (A ++ [e₁]))
      (parseOperand limit d (A ++ s :: C)) := by
  rw [parseOperand.eq_def, parseOperand.eq_def]
  match A with
  | [] =>
    simp only [List.nil_append, he, hs, reduceCtorEq, ↓reduceIte]
    exact parseAdditive_tracks d []
  | t :: A₂ =>
    dsimp only [List.cons_append]
    by_cases hk : t.kind = .lbrace
    · rw [if_pos hk, if_pos hk]
      exact (parseFields_tracks d _ _ t.pos A₂ _ _ #[]).mono (List.suffix_cons t A₂)
    · rw [if_neg hk, if_neg hk]
      exact parseAdditive_tracks d (t :: A₂)
termination_by (A.length, 13)
decreasing_by all_goals ((try simp only [List.length_cons, List.length_nil]); apply lex_of_lt_or; omega)

theorem parseFields_tracks (d : Nat) (L R : List Token) (bp : Pos) (A : List Token)
    (hL : (A ++ [e₁]).length < L.length) (hR : (A ++ s :: C).length < R.length)
    (acc : Array Field) :
    Tracks e₁ (s :: C) A (parseFields limit d L bp (A ++ [e₁]) hL acc)
      (parseFields limit d R bp (A ++ s :: C) hR acc) := by
  rw [parseFields.eq_def, parseFields.eq_def]
  match A, hL, hR with
  | [], _, _ =>
    simp only [List.nil_append, he, reduceCtorEq, ↓reduceIte, or_self]
    exact tracks_error
  | t :: A₂, hL, hR =>
    dsimp only [List.cons_append]
    by_cases hb : t.kind = .rbrace
    · rw [if_pos hb, if_pos hb]
      exact tracks_ok (List.suffix_cons t A₂)
    rw [if_neg hb, if_neg hb]
    by_cases hk : t.kind = .ident ∨ t.kind = .string
    · rw [if_pos hk, if_pos hk]
      match A₂, hL, hR with
      | [], hL, _ =>
        simp only [List.nil_append, he, reduceCtorEq, ↓reduceIte]
        split
        · exact tracks_error
        · rw [parseFieldsNext.eq_def]
          simp only [he, reduceCtorEq, ↓reduceIte]
          rw [expect, if_neg (by rw [he]; decide)]
          exact tracks_error
      | c :: A₃, hL, hR =>
        dsimp only [List.cons_append]
        have hsuf₃ : A₃ <:+ t :: c :: A₃ := (List.suffix_cons c A₃).trans (List.suffix_cons t _)
        by_cases hc : c.kind = .colon
        · rw [if_pos hc, if_pos hc]
          have ih := parseExpression_tracks d A₃
          split
          · exact tracks_error
          · next v r₂ h₂ hv =>
            obtain ⟨A₄, rfl, hsuf₄, h₄, hy⟩ := ih v r₂ h₂ hv
            rw [hy]
            have hlt := hsuf₄.length_le
            exact (parseFieldsNext_tracks d L R bp A₄ _ _ _).mono (hsuf₄.trans hsuf₃)
        · rw [if_neg hc, if_neg hc]
          split
          · exact tracks_error
          · exact (parseFieldsNext_tracks d L R bp (c :: A₃) _ _ _).mono (List.suffix_cons t _)
    · rw [if_neg hk, if_neg hk]
      exact tracks_error
termination_by (A.length, 0)
decreasing_by all_goals ((try simp only [List.length_cons]); apply lex_of_lt_or; omega)

theorem parseFieldsNext_tracks (d : Nat) (L R : List Token) (bp : Pos) (A : List Token)
    (hL : (A ++ [e₁]).length < L.length) (hR : (A ++ s :: C).length < R.length)
    (acc : Array Field) :
    Tracks e₁ (s :: C) A (parseFieldsNext limit d L bp (A ++ [e₁]) hL acc)
      (parseFieldsNext limit d R bp (A ++ s :: C) hR acc) := by
  rw [parseFieldsNext.eq_def, parseFieldsNext.eq_def]
  match A, hL, hR with
  | [], _, _ =>
    simp only [List.nil_append, he, reduceCtorEq, ↓reduceIte]
    rw [expect, if_neg (by rw [he]; decide)]
    exact tracks_error
  | t :: A₂, hL, hR =>
    dsimp only [List.cons_append]
    by_cases hc : t.kind = .comma
    · rw [if_pos hc, if_pos hc]
      exact (parseFields_tracks d L R bp A₂ _ _ acc).mono (List.suffix_cons t A₂)
    · rw [if_neg hc, if_neg hc]
      by_cases hb : t.kind = .rbrace
      · rw [expect_cons hb, expect_cons hb]
        exact tracks_ok (List.suffix_cons t A₂)
      · rw [expect, expect, if_neg hb, if_neg hb]
        exact tracks_error
termination_by (A.length, 0)
decreasing_by all_goals ((try simp only [List.length_cons]); apply lex_of_lt_or; omega)

theorem parseAdditive_tracks (d : Nat) (A : List Token) :
    Tracks e₁ (s :: C) A (parseAdditive limit d (A ++ [e₁]))
      (parseAdditive limit d (A ++ s :: C)) := by
  have ih := parseMultiplicative_tracks d A
  rw [parseAdditive.eq_def, parseAdditive.eq_def]
  split
  · exact tracks_error
  · next lhs r₁ h₁ hl =>
    obtain ⟨A₁, rfl, hsuf, h₁', hy⟩ := ih lhs r₁ h₁ hl
    rw [hy]
    have hlt := hsuf.length_le
    exact (additiveTail_tracks d _ _ lhs A₁ h₁ h₁').mono hsuf
termination_by (A.length, 12)
decreasing_by all_goals (apply lex_of_lt_or; omega)

theorem additiveTail_tracks (d : Nat) (L R : List Token) (lhs : Expr) (A : List Token)
    (hL : (A ++ [e₁]).length < L.length) (hR : (A ++ s :: C).length < R.length) :
    Tracks e₁ (s :: C) A (additiveTail limit d L lhs (A ++ [e₁]) hL)
      (additiveTail limit d R lhs (A ++ s :: C) hR) := by
  rw [additiveTail.eq_def, additiveTail.eq_def]
  match A, hL, hR with
  | [], _, _ =>
    simp only [List.nil_append, he, hs, additiveOp]
    exact tracks_ok_nil
  | t :: A₂, hL, hR =>
    dsimp only [List.cons_append]
    cases additiveOp t.kind with
    | none => exact tracks_ok_cons List.suffix_rfl
    | some op =>
      dsimp only
      have ih := parseMultiplicative_tracks d A₂
      split
      · exact tracks_error
      · next rhs r₂ h₂ hm =>
        obtain ⟨A₃, rfl, hsuf, h₃, hy⟩ := ih rhs r₂ h₂ hm
        rw [hy]
        have hlt := hsuf.length_le
        exact (additiveTail_tracks d L R _ A₃ _ _).mono (hsuf.trans (List.suffix_cons t A₂))
termination_by (A.length, 0)
decreasing_by all_goals ((try simp only [List.length_cons]); apply lex_of_lt_or; omega)

theorem parseMultiplicative_tracks (d : Nat) (A : List Token) :
    Tracks e₁ (s :: C) A (parseMultiplicative limit d (A ++ [e₁]))
      (parseMultiplicative limit d (A ++ s :: C)) := by
  have ih := parsePostfix_tracks d A
  rw [parseMultiplicative.eq_def, parseMultiplicative.eq_def]
  split
  · exact tracks_error
  · next lhs r₁ h₁ hl =>
    obtain ⟨A₁, rfl, hsuf, h₁', hy⟩ := ih lhs r₁ h₁ hl
    rw [hy]
    have hlt := hsuf.length_le
    exact (multiplicativeTail_tracks d _ _ lhs A₁ h₁ h₁').mono hsuf
termination_by (A.length, 11)
decreasing_by all_goals (apply lex_of_lt_or; omega)

theorem multiplicativeTail_tracks (d : Nat) (L R : List Token) (lhs : Expr) (A : List Token)
    (hL : (A ++ [e₁]).length < L.length) (hR : (A ++ s :: C).length < R.length) :
    Tracks e₁ (s :: C) A (multiplicativeTail limit d L lhs (A ++ [e₁]) hL)
      (multiplicativeTail limit d R lhs (A ++ s :: C) hR) := by
  rw [multiplicativeTail.eq_def, multiplicativeTail.eq_def]
  match A, hL, hR with
  | [], _, _ =>
    simp only [List.nil_append, he, hs, multiplicativeOp]
    exact tracks_ok_nil
  | t :: A₂, hL, hR =>
    dsimp only [List.cons_append]
    cases multiplicativeOp t.kind with
    | none => exact tracks_ok_cons List.suffix_rfl
    | some op =>
      dsimp only
      have ih := parsePostfix_tracks d A₂
      split
      · exact tracks_error
      · next rhs r₂ h₂ hm =>
        obtain ⟨A₃, rfl, hsuf, h₃, hy⟩ := ih rhs r₂ h₂ hm
        rw [hy]
        have hlt := hsuf.length_le
        exact (multiplicativeTail_tracks d L R _ A₃ _ _).mono (hsuf.trans (List.suffix_cons t A₂))
termination_by (A.length, 0)
decreasing_by all_goals ((try simp only [List.length_cons]); apply lex_of_lt_or; omega)

theorem parsePostfix_tracks (d : Nat) (A : List Token) :
    Tracks e₁ (s :: C) A (parsePostfix limit d (A ++ [e₁]))
      (parsePostfix limit d (A ++ s :: C)) := by
  have ih := parsePrimary_tracks d A
  rw [parsePostfix.eq_def, parsePostfix.eq_def]
  split
  · exact tracks_error
  · next a r₁ h₁ hl =>
    obtain ⟨A₁, rfl, hsuf, h₁', hy⟩ := ih a r₁ h₁ hl
    rw [hy]
    have hlt := hsuf.length_le
    exact (postfixTail_tracks d _ _ a A₁ h₁ h₁').mono hsuf
termination_by (A.length, 10)
decreasing_by all_goals (apply lex_of_lt_or; omega)

theorem postfixTail_tracks (d : Nat) (L R : List Token) (a : Expr) (A : List Token)
    (hL : (A ++ [e₁]).length < L.length) (hR : (A ++ s :: C).length < R.length) :
    Tracks e₁ (s :: C) A (postfixTail limit d L a (A ++ [e₁]) hL)
      (postfixTail limit d R a (A ++ s :: C) hR) := by
  rw [postfixTail.eq_def, postfixTail.eq_def]
  match A, hL, hR with
  | [], _, _ =>
    simp only [List.nil_append, he, hs, reduceCtorEq, ↓reduceIte]
    exact tracks_ok_nil
  | t :: A₂, hL, hR =>
    dsimp only [List.cons_append]
    have hsuf₂ := List.suffix_cons t A₂
    by_cases hdot : t.kind = .dot
    · rw [if_pos hdot, if_pos hdot]
      have ih := expect_tracks (B := s :: C) he (k := .ident) (by decide) A₂
      split
      · exact tracks_error
      · next name r₂ h₂ hx =>
        obtain ⟨A₃, rfl, hsuf, h₃, hy⟩ := ih name r₂ h₂ hx
        rw [hy]
        have hlt := hsuf.length_le
        exact (postfixTail_tracks d L R _ A₃ _ _).mono (hsuf.trans hsuf₂)
    rw [if_neg hdot, if_neg hdot]
    by_cases hbr : t.kind = .lbracket
    · rw [if_pos hbr, if_pos hbr]
      have ih := parseExpression_tracks d A₂
      split
      · exact tracks_error
      · next key r₂ h₂ hx =>
        obtain ⟨A₃, rfl, hsuf, h₃, hy⟩ := ih key r₂ h₂ hx
        rw [hy]
        dsimp only
        have ih₂ := expect_tracks (B := s :: C) he (k := .rbracket) (by decide) A₃
        split
        · exact tracks_error
        · next u r₃ h₄ hx₂ =>
          obtain ⟨A₄, rfl, hsuf₄, h₄', hy₂⟩ := ih₂ u r₃ h₄ hx₂
          rw [hy₂]
          have hlt := (hsuf₄.trans hsuf).length_le
          exact (postfixTail_tracks d L R _ A₄ _ _).mono ((hsuf₄.trans hsuf).trans hsuf₂)
    rw [if_neg hbr, if_neg hbr]
    by_cases hpar : t.kind = .lparen
    · rw [if_pos hpar, if_pos hpar]
      have ih := parseArgs_tracks d .rparen (by decide) (by decide) (A₂ ++ [e₁]) (A₂ ++ s :: C)
        A₂ le_rfl le_rfl #[]
      split
      · exact tracks_error
      · next args r₂ h₂ hx =>
        obtain ⟨A₃, rfl, hsuf, h₃, hy⟩ := ih args r₂ h₂ hx
        rw [hy]
        have hlt := hsuf.length_le
        exact (postfixTail_tracks d L R _ A₃ _ _).mono (hsuf.trans hsuf₂)
    rw [if_neg hpar, if_neg hpar]
    exact tracks_ok_cons List.suffix_rfl
termination_by (A.length, 0)
decreasing_by all_goals ((try simp only [List.length_cons]); apply lex_of_lt_or; omega)

theorem parseArgs_tracks (d : Nat) (closer : TokenKind) (hc : closer ≠ .eof)
    (hc' : closer ≠ .semicolon) (L R : List Token) (A : List Token)
    (hL : (A ++ [e₁]).length ≤ L.length) (hR : (A ++ s :: C).length ≤ R.length)
    (acc : Array Expr) :
    Tracks e₁ (s :: C) A (parseArgs limit d closer L (A ++ [e₁]) hL acc)
      (parseArgs limit d closer R (A ++ s :: C) hR acc) := by
  rw [parseArgs.eq_def, parseArgs.eq_def]
  match A, hL, hR with
  | [], hL, hR =>
    -- at the end neither run sees the closer; the first then fails wherever its argument ends
    simp only [List.nil_append, kindAt_cons, he, hs, hc.symm, hc'.symm, ↓reduceIte]
    have ih := parseExpression_tracks d []
    split
    · exact tracks_error
    · next arg r₁ h₁ hx =>
      obtain ⟨A₁, rfl, hsuf, -, -⟩ := ih arg r₁ h₁ hx
      obtain rfl : A₁ = [] := List.suffix_nil.mp hsuf
      simp only [List.nil_append, he, reduceCtorEq, ↓reduceIte]
      rw [expect, if_neg (by rw [he]; exact hc.symm)]
      exact tracks_error
  | t :: A₂, hL, hR =>
    rw [kindAt_cons_append, kindAt_cons_append]
    by_cases hk : t.kind = closer
    · rw [if_pos hk, if_pos hk]
      dsimp only [List.cons_append]
      rw [expect_cons hk, expect_cons hk]
      exact tracks_ok (List.suffix_cons t A₂)
    rw [if_neg hk, if_neg hk]
    have ih := parseExpression_tracks d (t :: A₂)
    split
    · exact tracks_error
    · next arg r₁ h₁ hx =>
      obtain ⟨A₁, rfl, hsuf, h₁', hy⟩ := ih arg r₁ h₁ hx
      rw [hy]
      match A₁, h₁, h₁', hsuf with
      | [], _, _, _ =>
        simp only [List.nil_append, he, reduceCtorEq, ↓reduceIte]
        rw [expect, if_neg (by rw [he]; exact hc.symm)]
        exact tracks_error
      | u :: A₃, h₁, h₁', hsuf =>
        dsimp only [List.cons_append]
        have hsuf₃ : A₃ <:+ t :: A₂ := (List.suffix_cons u A₃).trans hsuf
        have hlt := hsuf.length_le
        by_cases hcomma : u.kind = .comma
        · rw [if_pos hcomma, if_pos hcomma]
          exact (parseArgs_tracks d closer hc hc' L R A₃ _ _ _).mono hsuf₃
        rw [if_neg hcomma, if_neg hcomma]
        by_cases hu : u.kind = closer
        · rw [expect_cons hu, expect_cons hu]
          exact tracks_ok hsuf₃
        · rw [expect, expect, if_neg hu, if_neg hu]
          exact tracks_error
termination_by (A.length, 16)
decreasing_by all_goals (apply lex_of_lt_or; first | omega | (simp only [List.length_cons] at *; omega))

theorem parsePrimary_tracks (d : Nat) (A : List Token) :
    Tracks e₁ (s :: C) A (parsePrimary limit d (A ++ [e₁]))
      (parsePrimary limit d (A ++ s :: C)) := by
  match A with
  | [] =>
    rw [parsePrimary.eq_def]
    dsimp only [List.nil_append]
    rw [he]
    exact tracks_error
  | t :: A₂ =>
    rw [parsePrimary.eq_def, parsePrimary.eq_def]
    dsimp only [List.cons_append]
    have hsuf₂ := List.suffix_cons t A₂
    generalize t.kind = k
    cases k with
    | ident => exact tracks_ok hsuf₂
    | number => exact tracks_ok hsuf₂
    | string => exact tracks_ok hsuf₂
    | lparen =>
      dsimp only
      have ih := parseExpression_tracks d A₂
      split
      · exact tracks_error
      · next e r₁ h₁ hx =>
        obtain ⟨A₁, rfl, hsuf, h₁', hy⟩ := ih e r₁ h₁ hx
        rw [hy]
        dsimp only
        have ih₂ := expect_tracks (B := s :: C) he (k := .rparen) (by decide) A₁
        split
        · exact tracks_error
        · next u r₂ h₂ hx₂ =>
          obtain ⟨A₃, rfl, hsuf₃, h₃, hy₂⟩ := ih₂ u r₂ h₂ hx₂
          rw [hy₂]
          exact tracks_ok ((hsuf₃.trans hsuf).trans hsuf₂)
    | lbracket =>
      dsimp only
      have ih := parseArgs_tracks d .rbracket (by decide) (by decide) (A₂ ++ [e₁])
        (A₂ ++ s :: C) A₂ le_rfl le_rfl #[]
      split
      · exact tracks_error
      · next elems r₁ h₁ hx =>
        obtain ⟨A₁, rfl, hsuf, h₁', hy⟩ := ih elems r₁ h₁ hx
        rw [hy]
        exact tracks_ok (hsuf.trans hsuf₂)
    | _ => exact tracks_error
termination_by (A.length, 9)
decreasing_by all_goals ((try simp only [List.length_cons]); apply lex_of_lt_or; omega)

end

end Expressions

/-! ### Statements -/

section Statements

variable (he : e₁.kind = .eof) (hs : s.kind = .semicolon)
include he hs

set_option linter.unusedSectionVars false

theorem parseParams_tracks (A : List Token) (acc : Array String) :
    Tracks e₁ (s :: C) A (parseParams (A ++ [e₁]) acc) (parseParams (A ++ s :: C) acc) := by
  match A with
  | [] =>
    rw [parseParams, if_neg (by show e₁.kind ≠ _; rw [he]; decide)]
    dsimp only [List.nil_append]
    rw [expect_cons_ne (by rw [he]; decide)]
    exact tracks_error
  | t :: A₂ =>
    rw [parseParams, parseParams, kindAt_cons_append, kindAt_cons_append]
    by_cases hk : t.kind = .rparen
    · rw [if_pos hk, if_pos hk]
      exact tracks_ok List.suffix_rfl
    rw [if_neg hk, if_neg hk]
    dsimp only [List.cons_append]
    by_cases hi : t.kind = .ident
    · rw [expect_cons hi, expect_cons hi]
      dsimp only
      match A₂ with
      | [] =>
        simp only [List.nil_append, he, hs, reduceCtorEq, ↓reduceIte]
        exact tracks_ok_nil
      | u :: A₃ =>
        dsimp only [List.cons_append]
        by_cases hc : u.kind = .comma
        · rw [if_pos hc, if_pos hc]
          have ih := parseParams_tracks A₃ (acc.push t.lexeme)
          split
          · exact tracks_error
          · next ps r h hx =>
            obtain ⟨A₄, rfl, hsuf, h', hy⟩ := ih ps r h hx
            rw [hy]
            exact tracks_ok (hsuf.trans ((List.suffix_cons u A₃).trans (List.suffix_cons t _)))
        · rw [if_neg hc, if_neg hc]
          exact tracks_ok_cons (List.suffix_cons t _)
    · rw [expect, expect, if_neg hi, if_neg hi]
      exact tracks_error
termination_by A.length

variable (limit)

theorem parseExprStmt_tracks (d : Nat) (A : List Token) :
    TracksPast e₁ s C A (parseExprStmt limit d (A ++ [e₁])) (parseExprStmt limit d (A ++ s :: C)) := by
  have ih := parseExpression_tracks limit he hs (C := C) d A
  rw [parseExprStmt, parseExprStmt]
  split
  · intro _ _ _ hx
    cases hx
  · next e r h hx =>
    obtain ⟨A₁, rfl, hsuf, h₁, hy⟩ := ih e r h hx
    rw [hy]
    cases A₁ with
    | nil =>
      simp only [List.nil_append, he, hs, reduceCtorEq, ↓reduceIte]
      intro a r h' hx'
      cases hx'
      exact ⟨[], rfl, List.nil_suffix, .inr ⟨rfl, _, rfl⟩⟩
    | cons u A₂ =>
      dsimp only [List.cons_append]
      by_cases hu : u.kind = .semicolon
      · rw [if_pos hu, if_pos hu]
        exact (tracks_ok ((List.suffix_cons u A₂).trans hsuf)).past
      · rw [if_neg hu, if_neg hu]
        exact (tracks_ok_cons hsuf).past

theorem parseVarTail_tracks (d : Nat) (L R : List Token) (start : Pos) (isConst : Bool)
    (A : List Token) (hL : (A ++ [e₁]).length < L.length) (hR : (A ++ s :: C).length < R.length) :
    Tracks e₁ (s :: C) A (parseVarTail limit d L start isConst (A ++ [e₁]) hL)
      (parseVarTail limit d R start isConst (A ++ s :: C) hR) := by
  unfold parseVarTail
  have ih := expect_tracks (B := s :: C) he (k := .ident) (by decide) A
  split
  · exact tracks_error
  rename_i name r1 h1 hx
  obtain ⟨A₁, rfl, hsuf, h₁', hy⟩ := ih name r1 h1 hx
  rw [hy]
  dsimp only
  match A₁, h1, h₁', hsuf with
  | [], _, _, _ =>
    cases isConst
    · simp only [List.nil_append, he, reduceCtorEq, ↓reduceIte, Bool.false_eq_true]
      rw [expect_cons_ne (by rw [he]; decide)]
      exact tracks_error
    · simp only [List.nil_append, he, reduceCtorEq, ↓reduceIte]
      exact tracks_error
  | t :: A₂, h1, h₁', hsuf =>
    dsimp only [List.cons_append]
    have hsuf₂ : A₂ <:+ A := (List.suffix_cons t A₂).trans hsuf
    by_cases ha : t.kind = .assign
    · rw [if_pos ha, if_pos ha]
      have ih₂ := parseExpression_tracks limit he hs (C := C) d A₂
      split
      · exact tracks_error
      rename_i init r2 h2 hx2
      obtain ⟨A₃, rfl, hsuf₃, h₃, hy₂⟩ := ih₂ init r2 h2 hx2
      rw [hy₂]
      dsimp only
      have ih₃ := expect_tracks (B := s :: C) he (k := .semicolon) (by decide) A₃
      split
      · exact tracks_error
      rename_i u r3 h3 hx3
      obtain ⟨A₄, rfl, hsuf₄, h₄, hy₃⟩ := ih₃ u r3 h3 hx3
      rw [hy₃]
      exact tracks_ok (hsuf₄.trans (hsuf₃.trans hsuf₂))
    · rw [if_neg ha, if_neg ha]
      cases isConst
      · simp only [Bool.false_eq_true, ↓reduceIte]
        have ih₃ := expect_tracks (B := s :: C) he (k := .semicolon) (by decide) (t :: A₂)
        dsimp only [List.cons_append] at ih₃
        split
        · exact tracks_error
        rename_i u r3 h3 hx3
        obtain ⟨A₄, rfl, hsuf₄, h₄, hy₃⟩ := ih₃ u r3 h3 hx3
        rw [hy₃]
        exact tracks_ok (hsuf₄.trans hsuf)
      · simp only [↓reduceIte]
        exact tracks_error

theorem parseRet_tracks (d : Nat) (L R : List Token) (start : Pos) (A : List Token)
    (hL : (A ++ [e₁]).length < L.length) (hR : (A ++ s :: C).length < R.length) :
    Tracks e₁ (s :: C) A (parseRet limit d L start (A ++ [e₁]) hL)
      (parseRet limit d R start (A ++ s :: C) hR) := by
  unfold parseRet
  match A, hL, hR with
  | [], hL, hR =>
    simp only [List.nil_append, kindAt_cons, he, hs, reduceCtorEq, ↓reduceIte]
    have ih := parseExpression_tracks limit he hs (C := C) d []
    split
    · exact tracks_error
    rename_i e r1 h1 hx
    obtain ⟨A₁, rfl, hsuf, -, -⟩ := ih e r1 h1 hx
    obtain rfl : A₁ = [] := List.suffix_nil.mp hsuf
    dsimp only [List.nil_append]
    rw [expect_cons_ne (by rw [he]; decide)]
    exact tracks_error
  | t :: A₂, hL, hR =>
    rw [kindAt_cons_append, kindAt_cons_append]
    by_cases hk : t.kind = .semicolon
    · rw [if_pos hk, if_pos hk]
      dsimp only [List.cons_append]
      rw [expect_cons hk, expect_cons hk]
      exact tracks_ok (List.suffix_cons t A₂)
    rw [if_neg hk, if_neg hk]
    have ih := parseExpression_tracks limit he hs (C := C) d (t :: A₂)
    split
    · exact tracks_error
    rename_i e r1 h1 hx
    obtain ⟨A₁, rfl, hsuf, h₁', hy⟩ := ih e r1 h1 hx
    rw [hy]
    dsimp only
    have ih₂ := expect_tracks (B := s :: C) he (k := .semicolon) (by decide) A₁
    split
    · exact tracks_error
    rename_i u r2 h2 hx2
    obtain ⟨A₃, rfl, hsuf₃, h₃, hy₂⟩ := ih₂ u r2 h2 hx2
    rw [hy₂]
    exact tracks_ok (hsuf₃.trans hsuf)

mutual

theorem parseStatement_tracks (d : Nat) (A : List Token) :
    TracksPast e₁ s C A (parseStatement limit d (A ++ [e₁]))
      (parseStatement limit d (A ++ s :: C)) := by
  rw [parseStatement.eq_def, parseStatement.eq_def]
  match A with
  | [] =>
    simp only [List.nil_append, he, hs]
    exact parseExprStmt_tracks limit he hs d []
  | t :: A₂ =>
    dsimp only [List.cons_append]
    have hsuf₂ := List.suffix_cons t A₂
    generalize t.kind = k
    cases k with
    | keyword kw =>
      cases kw with
      | letKw =>
        match A₂ with
        | [] =>
          simp only [List.nil_append, he, hs, reduceCtorEq, ↓reduceIte]
          exact ((parseVarTail_tracks limit he hs d _ _ t.pos false [] _ _).mono
            List.nil_suffix).past
        | m :: A₃ =>
          dsimp only [List.cons_append]
          by_cases hm : m.kind = .keyword .mutKw
          · rw [if_pos hm, if_pos hm]
            exact ((parseVarTail_tracks limit he hs d _ _ t.pos false A₃ _ _).mono
              ((List.suffix_cons m A₃).trans hsuf₂)).past
          · rw [if_neg hm, if_neg hm]
            exact ((parseVarTail_tracks limit he hs d _ _ t.pos false (m :: A₃) _ _).mono
              hsuf₂).past
      | constKw =>
        exact ((parseVarTail_tracks limit he hs d _ _ t.pos true A₂ _ _).mono hsuf₂).past
      | funcKw => exact ((parseFunc_tracks d _ _ t.pos A₂ _ _).mono hsuf₂).past
      | retKw => exact ((parseRet_tracks limit he hs d _ _ t.pos A₂ _ _).mono hsuf₂).past
      | ifKw => exact (parseIf_tracks d (t :: A₂)).past
      | forKw => exact ((parseFor_tracks d _ _ t.pos A₂ _ _).mono hsuf₂).past
      | _ => exact parseExprStmt_tracks limit he hs d (t :: A₂)
    | _ => exact parseExprStmt_tracks limit he hs d (t :: A₂)
termination_by (A.length, 20)
decreasing_by all_goals ((try simp only [List.length_cons]); apply lex_of_lt_or; omega)

theorem parseFunc_tracks (d : Nat) (L R : List Token) (start : Pos) (A : List Token)
    (hL : (A ++ [e₁]).length < L.length) (hR : (A ++ s :: C).length < R.length) :
    Tracks e₁ (s :: C) A (parseFunc limit d L start (A ++ [e₁]) hL)
      (parseFunc limit d R start (A ++ s :: C) hR) := by
  rw [parseFunc.eq_def, parseFunc.eq_def]
  have ih₁ := expect_tracks (B := s :: C) he (k := .ident) (by decide) A
  split
  · exact tracks_error
  rename_i name r1 h1 hx1
  obtain ⟨A₁, rfl, hsuf₁, h₁', hy₁⟩ := ih₁ name r1 h1 hx1
  rw [hy₁]
  dsimp only
  have ih₂ := expect_tracks (B := s :: C) he (k := .lparen) (by decide) A₁
  split
  · exact tracks_error
  rename_i u r2 h2 hx2
  obtain ⟨A₂, rfl, hsuf₂, h₂', hy₂⟩ := ih₂ u r2 h2 hx2
  rw [hy₂]
  dsimp only
  have ih₃ := parseParams_tracks he hs (C := C) A₂ #[]
  split
  · exact tracks_error
  rename_i params r3 h3 hx3
  obtain ⟨A₃, rfl, hsuf₃, h₃', hy₃⟩ := ih₃ params r3 h3 hx3
  rw [hy₃]
  dsimp only
  have ih₄ := expect_tracks (B := s :: C) he (k := .rparen) (by decide) A₃
  split
  · exact tracks_error
  rename_i u' r4 h4 hx4
  obtain ⟨A₄, rfl, hsuf₄, h₄', hy₄⟩ := ih₄ u' r4 h4 hx4
  rw [hy₄]
  dsimp only
  have hA₄ : A₄ <:+ A₁ := hsuf₄.trans (hsuf₃.trans hsuf₂)
  have hlt : A₄.length < A.length := by
    have := hA₄.length_le
    simp only [List.length_append, List.length_singleton] at h1
    omega
  have ih₅ := parseBlock_tracks d A₄
  split
  · exact tracks_error
  rename_i body r5 h5 hx5
  obtain ⟨A₅, rfl, hsuf₅, h₅', hy₅⟩ := ih₅ body r5 h5 hx5
  rw [hy₅]
  exact tracks_ok (hsuf₅.trans (hA₄.trans hsuf₁))
termination_by (A.length, 0)
decreasing_by all_goals (apply lex_of_lt_or; omega)

theorem parseIf_tracks (d : Nat) (A : List Token) :
    Tracks e₁ (s :: C) A (parseIf limit d (A ++ [e₁])) (parseIf limit d (A ++ s :: C)) := by
  rw [parseIf.eq_def, parseIf.eq_def]
  have ih₁ := expect_tracks (B := s :: C) he (k := .keyword .ifKw) (by decide) A
  split
  · exact tracks_error
  rename_i ifTok r1 h1 hx1
  obtain ⟨A₁, rfl, hsuf₁, h₁', hy₁⟩ := ih₁ ifTok r1 h1 hx1
  rw [hy₁]
  dsimp only
  have hlt₁ : A₁.length < A.length := by
    simp only [List.length_append, List.length_singleton] at h1
    omega
  have ih₂ := parseExpression_tracks limit he hs (C := C) d A₁
  split
  · exact tracks_error
  rename_i cond r2 h2 hx2
  obtain ⟨A₂, rfl, hsuf₂, h₂', hy₂⟩ := ih₂ cond r2 h2 hx2
  rw [hy₂]
  dsimp only
  have hlt₂ := hsuf₂.length_le
  have ih₃ := parseBlock_tracks d A₂
  split
  · exact tracks_error
  rename_i thenBody r3 h3 hx3
  obtain ⟨A₃, rfl, hsuf₃, h₃', hy₃⟩ := ih₃ thenBody r3 h3 hx3
  rw [hy₃]
  dsimp only
  have hA₃ : A₃ <:+ A := hsuf₃.trans (hsuf₂.trans hsuf₁)
  match A₃, h3, h₃', hA₃ with
  | [], _, _, _ =>
    simp only [List.nil_append, he, hs, reduceCtorEq, ↓reduceIte]
    exact tracks_ok_nil
  | u :: A₄, h3, h₃', hA₃ =>
    dsimp only [List.cons_append]
    have hA₄ : A₄ <:+ A := (List.suffix_cons u A₄).trans hA₃
    have hlt₄ : A₄.length < A.length := by
      have := hA₃.length_le
      simp only [List.length_cons] at this
      omega
    by_cases hel : u.kind = .keyword .elseKw
    · rw [if_pos hel, if_pos hel]
      match A₄, hA₄, hlt₄ with
      | [], _, _ =>
        simp only [List.nil_append, kindAt_cons, he, hs, reduceCtorEq, ↓reduceIte]
        have ih₄ := parseBlock_tracks d []
        split
        · exact tracks_error
        rename_i elseBody r4 h4 hx4
        obtain ⟨A₅, rfl, hsuf₅, -, -⟩ := ih₄ elseBody r4 h4 hx4
        obtain rfl : A₅ = [] := List.suffix_nil.mp hsuf₅
        simp at h4
      | v :: A₅, hA₄, hlt₄ =>
        rw [kindAt_cons_append, kindAt_cons_append]
        by_cases hif : v.kind = .keyword .ifKw
        · rw [if_pos hif, if_pos hif]
          split
          · exact tracks_error
          rename_i d' hd
          rw [enter_ok_of_ok hd]
          dsimp only
          have ih₅ := parseIf_tracks d' (v :: A₅)
          split
          · exact tracks_error
          rename_i nested r4 h4 hx4
          obtain ⟨A₆, rfl, hsuf₆, h₆, hy₆⟩ := ih₅ nested r4 h4 hx4
          rw [hy₆]
          exact tracks_ok (hsuf₆.trans hA₄)
        · rw [if_neg hif, if_neg hif]
          have ih₅ := parseBlock_tracks d (v :: A₅)
          split
          · exact tracks_error
          rename_i elseBody r4 h4 hx4
          obtain ⟨A₆, rfl, hsuf₆, h₆, hy₆⟩ := ih₅ elseBody r4 h4 hx4
          rw [hy₆]
          exact tracks_ok (hsuf₆.trans hA₄)
    · rw [if_neg hel, if_neg hel]
      exact tracks_ok_cons hA₃
termination_by (A.length, 19)
decreasing_by all_goals (apply lex_of_lt_or; omega)

theorem parseFor_tracks (d : Nat) (L R : List Token) (start : Pos) (A : List Token)
    (hL : (A ++ [e₁]).length < L.length) (hR : (A ++ s :: C).length < R.length) :
    Tracks e₁ (s :: C) A (parseFor limit d L start (A ++ [e₁]) hL)
      (parseFor limit d R start (A ++ s :: C) hR) := by
  match A, hL, hR with
  | [], hL, hR =>
    rw [parseFor.eq_def]
    extract_lets paren r0 h0
    have e0 : r0 = [e₁] := by
      simp only [r0, paren]
      rw [if_neg (by show e₁.kind ≠ _; rw [he]; decide)]
      rfl
    split
    · exact tracks_error
    rename_i name r1 h1 hx
    obtain ⟨hts, hk⟩ := expect_ok hx
    rw [e0, List.cons.injEq] at hts
    rw [← hts.1, he] at hk
    cases hk
  | t :: A₂, hL, hR =>
    rw [parseFor.eq_def, parseFor.eq_def]
    extract_lets paren r0 h0 paren' r0' h0'
    -- whether the header is in parentheses is read off its first token, alike in both runs
    obtain ⟨A₀, hA₀, e0, e0'⟩ : ∃ A₀ : List Token, A₀ <:+ t :: A₂ ∧
        r0 = A₀ ++ [e₁] ∧ r0' = A₀ ++ s :: C := by
      simp only [r0, paren, r0', paren']
      rw [kindAt_cons_append, kindAt_cons_append]
      by_cases hp : t.kind = .lparen
      · rw [if_pos hp, if_pos hp]
        exact ⟨A₂, List.suffix_cons t A₂, rfl, rfl⟩
      · rw [if_neg hp, if_neg hp]
        exact ⟨t :: A₂, List.suffix_rfl, rfl, rfl⟩
    have ih₁ := expect_tracks (B := s :: C) he (k := .ident) (by decide) A₀
    rw [← e0, ← e0'] at ih₁
    split
    · exact tracks_error
    rename_i name r1 h1 hx1
    obtain ⟨A₁, rfl, hsuf₁, h₁', hy₁⟩ := ih₁ name r1 h1 hx1
    rw [hy₁]
    dsimp only
    have hlt₁ : A₁.length < A₂.length + 1 := by
      have h1' := h1
      rw [e0] at h1'
      have := hA₀.length_le
      simp only [List.length_append, List.length_cons] at h1' this
      omega
    have ih₂ := expect_tracks (B := s :: C) he (k := .keyword .inKw) (by decide) A₁
    split
    · exact tracks_error
    rename_i u r2 h2 hx2
    obtain ⟨A₂', rfl, hsuf₂, h₂', hy₂⟩ := ih₂ u r2 h2 hx2
    rw [hy₂]
    dsimp only
    have ih₃ := parseExpression_tracks limit he hs (C := C) d A₂'
    split
    · exact tracks_error
    rename_i iterable r3 h3 hx3
    obtain ⟨A₃, rfl, hsuf₃, h₃', hy₃⟩ := ih₃ iterable r3 h3 hx3
    rw [hy₃]
    dsimp only
    have hA₃ : A₃ <:+ A₁ := hsuf₃.trans hsuf₂
    have hlt₃ := hA₃.length_le
    have hA : A₁ <:+ t :: A₂ := hsuf₁.trans hA₀
    by_cases hp : paren
    · rw [if_pos hp, if_pos (show paren' from hp)]
      have ih₄ := expect_tracks (B := s :: C) he (k := .rparen) (by decide) A₃
      rcases hx4 : expect .rparen (A₃ ++ [e₁]) with err | ⟨u', r4, h4⟩
      · exact tracks_error
      obtain ⟨A₄, rfl, hsuf₄, h₄', hy₄⟩ := ih₄ u' r4 h4 hx4
      rw [hy₄]
      dsimp only
      have hlt₄ := hsuf₄.length_le
      have ih₅ := parseBlock_tracks d A₄
      split
      · exact tracks_error
      rename_i body r5 h5 hx5
      obtain ⟨A₅, rfl, hsuf₅, h₅', hy₅⟩ := ih₅ body r5 h5 hx5
      rw [hy₅]
      exact tracks_ok (hsuf₅.trans ((hsuf₄.trans hA₃).trans hA))
    · rw [if_neg hp, if_neg (show ¬ paren' from hp)]
      dsimp only
      have ih₄ := parseBlock_tracks d A₃
      split
      · exact tracks_error
      rename_i body r5 h5 hx5
      obtain ⟨A₅, rfl, hsuf₅, h₅', hy₅⟩ := ih₄ body r5 h5 hx5
      rw [hy₅]
      exact tracks_ok (hsuf₅.trans (hA₃.trans hA))
termination_by (A.length, 0)
decreasing_by all_goals (apply lex_of_lt_or; first | omega | (simp only [List.length_cons] at *; omega))

theorem parseBlock_tracks (d : Nat) (A : List Token) :
    Tracks e₁ (s :: C) A (parseBlock limit d (A ++ [e₁])) (parseBlock limit d (A ++ s :: C)) := by
  rw [parseBlock.eq_def, parseBlock.eq_def]
  have ih := expect_tracks (B := s :: C) he (k := .lbrace) (by decide) A
  split
  · exact tracks_error
  rename_i u r h hx
  obtain ⟨A₁, rfl, hsuf, h₁', hy⟩ := ih u r h hx
  rw [hy]
  dsimp only
  split
  · exact tracks_error
  rename_i d' hd
  rw [enter_ok_of_ok hd]
  have hlt : A₁.length < A.length := by
    simp only [List.length_append, List.length_singleton] at h
    omega
  exact (parseBlockBody_tracks d' _ _ A₁ h h₁' #[]).mono hsuf
termination_by (A.length, 0)
decreasing_by all_goals (apply lex_of_lt_or; omega)

theorem parseBlockBody_tracks (d : Nat) (L R : List Token) (A : List Token)
    (hL : (A ++ [e₁]).length < L.length) (hR : (A ++ s :: C).length < R.length)
    (acc : Array Stmt) :
    Tracks e₁ (s :: C) A (parseBlockBody limit d L (A ++ [e₁]) hL acc)
      (parseBlockBody limit d R (A ++ s :: C) hR acc) := by
  rw [parseBlockBody.eq_def, parseBlockBody.eq_def]
  match A, hL, hR with
  | [], _, _ =>
    simp only [List.nil_append, he, reduceCtorEq, ↓reduceIte]
    exact tracks_error
  | t :: A₂, hL, hR =>
    dsimp only [List.cons_append]
    have hsuf₂ := List.suffix_cons t A₂
    by_cases hb : t.kind = .rbrace
    · rw [if_pos hb, if_pos hb]
      exact tracks_ok hsuf₂
    rw [if_neg hb, if_neg hb]
    by_cases heof : t.kind = .eof
    · rw [if_pos heof, if_pos heof]
      exact tracks_error
    rw [if_neg heof, if_neg heof]
    by_cases hsemi : t.kind = .semicolon
    · rw [if_pos hsemi, if_pos hsemi]
      exact (parseBlockBody_tracks d L R A₂ _ _ acc).mono hsuf₂
    rw [if_neg hsemi, if_neg hsemi]
    have ih := parseStatement_tracks d (t :: A₂)
    dsimp only [List.cons_append] at ih
    split
    · exact tracks_error
    rename_i st r' hr' hx
    obtain ⟨A₁, rfl, hsuf, hy⟩ := ih st r' hr' hx
    rcases hy with ⟨h', hy⟩ | ⟨rfl, h', hy⟩
    · rw [hy]
      have hlt : A₁.length < A₂.length + 1 := by
        simp only [List.length_append, List.length_cons] at hr'
        omega
      exact (parseBlockBody_tracks d L R A₁ _ _ (acc.push st)).mono hsuf
    · -- the statement took all of `A`: the first run then meets `e₁` before any `}`
      intro a r h hx'
      rw [parseBlockBody.eq_def] at hx'
      simp [he] at hx'
termination_by (A.length, 21)
decreasing_by all_goals (apply lex_of_lt_or; first | omega | (simp only [List.length_cons] at *; omega))

end

end Statements

/-! ### Programs -/

/-- A program read from `A ++ [e₁]`, `A` holding no end of input, is read again from
`A ++ s :: C`, and reading goes on with the tokens `C` after the `;` as if they started the
input, the statements read so far in front. -/
theorem parseProgramFrom_semicolon (he : e₁.kind = .eof) (hs : s.kind = .semicolon)
    (A : List Token) (hA : ∀ t ∈ A, t.kind ≠ .eof) (acc : Array Stmt) (prog : Program)
    (h : parseProgramFrom limit (A ++ [e₁]) acc = .ok prog) :
    parseProgramFrom limit (A ++ s :: C) acc = parseProgramFrom limit C prog.toArray := by
  match A, hA with
  | [], _ =>
    rw [List.nil_append, parseProgramFrom_eof he] at h
    cases h
    rw [List.nil_append, parseProgramFrom.eq_def]
    simp [hs]
  | t :: A₂, hA =>
    have ht : t.kind ≠ .eof := hA t List.mem_cons_self
    rw [List.cons_append, parseProgramFrom.eq_def] at h
    rw [List.cons_append, parseProgramFrom.eq_def]
    dsimp only at h ⊢
    rw [if_neg ht] at h ⊢
    by_cases hsemi : t.kind = .semicolon
    · rw [if_pos hsemi] at h ⊢
      exact parseProgramFrom_semicolon he hs A₂ (fun u hu => hA u (List.mem_cons_of_mem t hu))
        acc prog h
    rw [if_neg hsemi] at h ⊢
    have ih := parseStatement_tracks limit he hs (C := C) 0 (t :: A₂)
    dsimp only [List.cons_append] at ih
    split at h
    · cases h
    rename_i st r hr hx
    obtain ⟨A₁, rfl, hsuf, hy⟩ := ih st r hr hx
    have hA₁ : ∀ u ∈ A₁, u.kind ≠ .eof := fun u hu => hA u (hsuf.subset hu)
    rcases hy with ⟨h', hy⟩ | ⟨rfl, h', hy⟩
    · rw [hy]
      dsimp only
      have hlt : A₁.length < A₂.length + 1 := by
        simp only [List.length_append, List.length_cons] at hr
        omega
      exact parseProgramFrom_semicolon he hs A₁ hA₁ (acc.push st) prog h
    · -- the last statement took the `;`: what follows is read from `C`
      rw [hy]
      dsimp only
      rw [List.nil_append, parseProgramFrom_eof he] at h
      cases h
      rw [Array.toArray_toList]
termination_by A.length
decreasing_by all_goals (simp only [List.length_cons]; omega)

end Treewalk.Parser
