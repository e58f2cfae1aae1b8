import Mathlib
import Treewalk.Proofs.Syntax.ParsedNames
import Treewalk.Proofs.Syntax.ParseSteps
/-!
# Failures that more input cannot undo

The parser reads its tokens from left to right and decides every step on the token in front of
it. Run it on `A ++ [e₁]`, `e₁` the end of input, and on `A ++ B`: as long as it reads inside
`A` the two runs take the same steps. So a failure found at a token of `A` is found again
whatever `B` is, and only what happens at `e₁` can change: there a failure is marked
incomplete, or it is the nesting limit, which the parser checks before it looks at the token.

`Agree e₁ B A x y` states this for one parse step, `x` its run on `A ++ [e₁]` and `y` on
`A ++ B`; every parsing function has a lemma saying that its two runs agree, proved by the
parser's own recursion.
-/
namespace Treewalk.Parser

/-- A failure that more input cannot undo: it is not at the end of input (not incomplete) and
it is not the nesting limit. -/
def Lasting (e : Error) : Prop := e.incomplete = false ∧ ∀ l, e.fault ≠ .nestingTooDeep l

variable {limit : Option Nat} {e₁ : Token} {B : List Token}

/-- The runs of a parse step on `A ++ [e₁]` (`x`) and on `A ++ B` (`y`) agree: `x` stops before
`e₁`, and where it stops inside `A`, `y` returns the same with `B` in place of `e₁`; a lasting
failure of `x` is found inside `A`, and `y` fails with it too. -/
def Agree (e₁ : Token) (B : List Token) {P Q : List Token → Prop} {α : Type} (A : List Token)
    (x : Except Error (α × Subtype P)) (y : Except Error (α × Subtype Q)) : Prop :=
  (∀ a r h, x = .ok (a, ⟨r, h⟩) → ∃ A', r = A' ++ [e₁] ∧ A'.length ≤ A.length ∧
    (A' ≠ [] → ∃ h', y = .ok (a, ⟨A' ++ B, h'⟩))) ∧
  (∀ err, x = .error err → Lasting err → A ≠ [] ∧ y = .error err)

def Stops (e₁ : Token) {P : List Token → Prop} {α : Type} (x : Except Error (α × Subtype P)) :
    Prop :=
  (∀ a r h, x = .ok (a, ⟨r, h⟩) → r = [e₁]) ∧ (∀ err, x = .error err → ¬ Lasting err)

section Agree

variable {P Q : List Token → Prop} {α : Type} {A : List Token}
  {x : Except Error (α × Subtype P)} {y : Except Error (α × Subtype Q)}

theorem Agree.stops (h : Agree e₁ B [] x y) : Stops e₁ x := by
  refine ⟨fun a r hr hx => ?_, fun err hx hl => (h.2 err hx hl).1 rfl⟩
  obtain ⟨A', rfl, hlen, -⟩ := h.1 a r hr hx
  rw [List.length_eq_zero_iff.mp (Nat.le_zero.mp hlen)]
  rfl

theorem Stops.agree (h : Stops e₁ x) (A : List Token) (y : Except Error (α × Subtype Q)) :
    Agree e₁ B A x y := by
  refine ⟨fun a r hr hx => ⟨[], h.1 a r hr hx, Nat.zero_le _, fun hne => absurd rfl hne⟩,
    fun err hx hl => absurd hl (h.2 err hx)⟩

theorem Agree.mono {A₀ : List Token} (h : Agree e₁ B A₀ x y) (hA : A₀.length ≤ A.length) :
    Agree e₁ B A x y := by
  refine ⟨fun a r hr hx => ?_, fun err hx hl => ?_⟩
  · obtain ⟨A', hr', hlen, hy⟩ := h.1 a r hr hx
    exact ⟨A', hr', hlen.trans hA, hy⟩
  · obtain ⟨hA₀, hy⟩ := h.2 err hx hl
    refine ⟨fun hA' => hA₀ ?_, hy⟩
    subst hA'
    exact List.length_eq_zero_iff.mp (Nat.le_zero.mp hA)

theorem agree_error {err : Error} (h : Lasting err → A ≠ [] ∧ y = .error err) :
    Agree e₁ B A (.error err : Except Error (α × Subtype P)) y :=
  ⟨fun _ _ _ hx => (by cases hx), fun _ hx hl => by cases hx; exact h hl⟩

theorem agree_ok {a : α} {A' : List Token} {h : P (A' ++ [e₁])}
    (hlen : A'.length ≤ A.length) (hy : A' ≠ [] → ∃ h', y = .ok (a, ⟨A' ++ B, h'⟩)) :
    Agree e₁ B A (.ok (a, ⟨A' ++ [e₁], h⟩) : Except Error (α × Subtype P)) y :=
  ⟨fun _ _ _ hx => (by cases hx; exact ⟨A', rfl, hlen, hy⟩), fun _ hx => by cases hx⟩

theorem agree_ok_cons {a : α} {u : Token} {A₂ : List Token} {h : P (u :: (A₂ ++ [e₁]))}
    {h' : Q (u :: (A₂ ++ B))} (hlen : (u :: A₂).length ≤ A.length) :
    Agree e₁ B A (.ok (a, ⟨u :: (A₂ ++ [e₁]), h⟩) : Except Error (α × Subtype P))
      (.ok (a, ⟨u :: (A₂ ++ B), h'⟩)) := by
  show Agree e₁ B A (.ok (a, ⟨(u :: A₂) ++ [e₁], h⟩) : Except Error (α × Subtype P)) _
  exact agree_ok hlen fun _ => ⟨h', rfl⟩

theorem stops_error {err : Error} (h : ¬ Lasting err) :
    Stops e₁ (.error err : Except Error (α × Subtype P)) :=
  ⟨fun _ _ _ hx => (by cases hx), fun _ hx => by cases hx; exact h⟩

theorem stops_ok {a : α} {h : P [e₁]} : Stops e₁ (.ok (a, ⟨[e₁], h⟩) : Except Error (α × Subtype P)) :=
  ⟨fun _ _ _ hx => (by cases hx; rfl), fun _ hx => by cases hx⟩

theorem agree_propagate {P₀ Q₀ : List Token → Prop} {β : Type} {A₀ : List Token}
    {x₀ : Except Error (β × Subtype P₀)} {y₀ : Except Error (β × Subtype Q₀)} {err : Error}
    (ih : Agree e₁ B A₀ x₀ y₀) (hx : x₀ = .error err) (hA : A₀.length ≤ A.length)
    (hy : y₀ = .error err → y = .error err) :
    Agree e₁ B A (.error err : Except Error (α × Subtype P)) y := by
  refine agree_error fun hl => ?_
  obtain ⟨hA₀, hy₀⟩ := (ih.mono hA).2 err hx hl
  exact ⟨hA₀, hy hy₀⟩

/-- What a step of two agreeing runs leaves when it succeeds: `e₁` alone, or a rest `u :: A₂`
inside `A`, which the other run leaves too with `B` in place of `e₁`. -/
theorem Agree.of_ok {a : α} {r : List Token} {h : P r} (ih : Agree e₁ B A x y)
    (hx : x = .ok (a, ⟨r, h⟩)) :
    r = [e₁] ∨ ∃ u A₂ h', r = u :: (A₂ ++ [e₁]) ∧ (u :: A₂).length ≤ A.length ∧
      y = .ok (a, ⟨u :: (A₂ ++ B), h'⟩) := by
  obtain ⟨A', rfl, hlen, hy⟩ := ih.1 a r h hx
  cases A' with
  | nil => exact .inl rfl
  | cons u A₂ =>
    obtain ⟨h', hy'⟩ := hy (List.cons_ne_nil _ _)
    exact .inr ⟨u, A₂, h', rfl, hlen, hy'⟩

end Agree

theorem failAt_notLasting_of_eof {ts : List Token} {f : Fault} (h : (current ts).kind = .eof) :
    ¬ Lasting (failAt ts f) := by
  intro hl
  have := hl.1
  simp [failAt, h] at this

theorem failAt_eof_notLasting (he : e₁.kind = .eof) {rest : List Token} {f : Fault} :
    ¬ Lasting (failAt (e₁ :: rest) f) :=
  failAt_notLasting_of_eof he

theorem enter_notLasting {d : Nat} {ts : List Token} {err : Error}
    (h : enter limit d ts = .error err) : ¬ Lasting err := by
  unfold enter at h
  split at h
  · split at h
    · cases h
      exact fun hl => hl.2 _ rfl
    · cases h
  · cases h

theorem enter_ok_of_ok {d d' : Nat} {ts : List Token} (h : enter limit d ts = .ok d')
    (ts' : List Token) : enter limit d ts' = .ok d' := by
  unfold enter at h ⊢
  split
  · split
    · next hl => simp [hl] at h
    · next hl => simpa [hl] using h
  · simpa using h

theorem kindAt_cons_append (t : Token) (A C : List Token) : kindAt (t :: A ++ C) = t.kind := rfl

theorem expect_agree (he : e₁.kind = .eof) {k : TokenKind} (hk : k ≠ .eof) (A : List Token) :
    Agree e₁ B A (expect k (A ++ [e₁])) (expect k (A ++ B)) := by
  cases A with
  | nil =>
    refine Stops.agree ?_ _ _
    rw [List.nil_append, expect]
    rw [if_neg (by rw [he]; exact Ne.symm hk)]
    exact stops_error (failAt_eof_notLasting he)
  | cons t A =>
    simp only [List.cons_append, expect]
    by_cases ht : t.kind = k
    · rw [if_pos ht, if_pos ht]
      exact agree_ok (by simp) (fun _ => ⟨_, rfl⟩)
    · rw [if_neg ht, if_neg ht]
      exact agree_error fun _ => ⟨List.cons_ne_nil _ _, rfl⟩

/-! ### Expressions -/

section Tails

variable (he : e₁.kind = .eof) {d : Nat} {L : List Token} {a : Expr}
include he

-- At `e₁` no operator, member, index or call follows: each tail stops there.

theorem additiveTail_stops {h : [e₁].length < L.length} :
    Stops e₁ (additiveTail limit d L a [e₁] h) := by
  rw [additiveTail.eq_def]
  simp only [he, additiveOp]
  exact stops_ok

theorem multiplicativeTail_stops {h : [e₁].length < L.length} :
    Stops e₁ (multiplicativeTail limit d L a [e₁] h) := by
  rw [multiplicativeTail.eq_def]
  simp only [he, multiplicativeOp]
  exact stops_ok

theorem postfixTail_stops {h : [e₁].length < L.length} :
    Stops e₁ (postfixTail limit d L a [e₁] h) := by
  rw [postfixTail.eq_def]
  simp only [he, reduceCtorEq, if_false]
  exact stops_ok

theorem parseFieldsNext_stops {bp : Pos} {acc : Array Field} {h : [e₁].length < L.length} :
    Stops e₁ (parseFieldsNext limit d L bp [e₁] h acc) := by
  rw [parseFieldsNext.eq_def]
  dsimp only
  rw [if_neg (by rw [he]; decide), expect, if_neg (by rw [he]; decide)]
  exact stops_error (failAt_eof_notLasting he)

end Tails

section Expressions

variable (limit)

mutual

theorem parseExpression_agree (he : e₁.kind = .eof) (d : Nat) (A : List Token) :
    Agree e₁ B A (parseExpression limit d (A ++ [e₁])) (parseExpression limit d (A ++ B)) := by
  rw [parseExpression.eq_def, parseExpression.eq_def]
  split
  · next err h => exact agree_error fun hl => absurd hl (enter_notLasting h)
  · next d' h =>
    rw [enter_ok_of_ok h]
    exact parseAssignment_agree he d' A
termination_by (A.length, 15)
decreasing_by all_goals (apply lex_of_lt_or; omega)

theorem parseAssignment_agree (he : e₁.kind = .eof) (d : Nat) (A : List Token) :
    Agree e₁ B A (parseAssignment limit d (A ++ [e₁])) (parseAssignment limit d (A ++ B)) := by
  have ih := parseOperand_agree he d A
  rw [parseAssignment.eq_def, parseAssignment.eq_def]
  split
  · next err hl => exact agree_propagate ih hl le_rfl (fun h => by rw [h])
  · next lhs r₁ h₁ hl =>
    obtain ⟨A₁, rfl, hlen, hR⟩ := ih.1 lhs r₁ h₁ hl
    match A₁, hR, hlen with
    | [], _, _ =>
      refine Stops.agree ?_ _ _
      dsimp only [List.nil_append]
      rw [if_neg (by rw [he]; decide)]
      exact stops_ok
    | t :: A₂, hR, hlen =>
      obtain ⟨h', hR'⟩ := hR (List.cons_ne_nil _ _)
      rw [hR']
      dsimp only [List.cons_append]
      have hlt : A₂.length < A.length := by simp only [List.length_cons] at hlen; omega
      by_cases hk : t.kind = .assign
      · rw [if_pos hk, if_pos hk]
        cases ht : lhs.toTarget? with
        | none => exact agree_error fun _ => ⟨List.ne_nil_of_length_pos (by omega), rfl⟩
        | some target =>
          dsimp only
          have ih₂ := parseExpression_agree he d A₂
          split
          · next err hv => exact agree_propagate ih₂ hv hlt.le (fun h => by rw [h])
          · next v r₂ h₂ hv =>
            obtain ⟨A₃, rfl, hlen₃, hR₃⟩ := ih₂.1 v r₂ h₂ hv
            refine agree_ok (by omega) fun hne => ?_
            obtain ⟨h₃, hR₃'⟩ := hR₃ hne
            rw [hR₃']
            exact ⟨_, rfl⟩
      · rw [if_neg hk, if_neg hk]
        exact agree_ok hlen fun _ => ⟨_, rfl⟩
termination_by (A.length, 14)
decreasing_by all_goals (apply lex_of_lt_or; omega)

theorem parseOperand_agree (he : e₁.kind = .eof) (d : Nat) (A : List Token) :
    Agree e₁ B A (parseOperand limit d (A ++ [e₁])) (parseOperand limit d (A ++ B)) := by
  rw [parseOperand.eq_def, parseOperand.eq_def]
  match A with
  | [] =>
    refine Stops.agree ?_ _ _
    dsimp only [List.nil_append]
    rw [if_neg (by rw [he]; decide)]
    exact (parseAdditive_agree he d []).stops
  | t :: A₂ =>
    dsimp only [List.cons_append]
    by_cases hk : t.kind = .lbrace
    · rw [if_pos hk, if_pos hk]
      exact (parseFields_agree he d _ _ t.pos A₂ _ _ #[]).mono (by simp)
    · rw [if_neg hk, if_neg hk]
      exact parseAdditive_agree he d (t :: A₂)
termination_by (A.length, 13)
decreasing_by all_goals ((try simp only [List.length_cons, List.length_nil]); apply lex_of_lt_or; omega)

theorem parseFields_agree (he : e₁.kind = .eof) (d : Nat) (L R : List Token) (bp : Pos)
    (A : List Token) (hL : (A ++ [e₁]).length < L.length) (hR : (A ++ B).length < R.length)
    (acc : Array Field) :
    Agree e₁ B A (parseFields limit d L bp (A ++ [e₁]) hL acc)
      (parseFields limit d R bp (A ++ B) hR acc) := by
  rw [parseFields.eq_def, parseFields.eq_def]
  match A, hL, hR with
  | [], _, _ =>
    refine Stops.agree ?_ _ _
    dsimp only [List.nil_append]
    rw [if_neg (by rw [he]; decide), if_neg (by rw [he]; decide)]
    exact stops_error (failAt_eof_notLasting he)
  | t :: A₂, hL, hR =>
    dsimp only [List.cons_append]
    by_cases hb : t.kind = .rbrace
    · rw [if_pos hb, if_pos hb]
      exact agree_ok (by simp) fun _ => ⟨_, rfl⟩
    rw [if_neg hb, if_neg hb]
    by_cases hk : t.kind = .ident ∨ t.kind = .string
    · rw [if_pos hk, if_pos hk]
      match A₂, hL, hR with
      | [], hL, _ =>
        refine Stops.agree ?_ _ _
        dsimp only [List.nil_append]
        rw [if_neg (by rw [he]; decide)]
        split
        · exact stops_error (failAt_eof_notLasting he)
        · exact parseFieldsNext_stops he
      | c :: A₃, hL, hR =>
        dsimp only [List.cons_append]
        by_cases hc : c.kind = .colon
        · rw [if_pos hc, if_pos hc]
          have ih := parseExpression_agree he d A₃
          split
          · next err hv => exact agree_propagate ih hv (by simp; omega) (fun h => by rw [h])
          · next v r₂ h₂ hv =>
            obtain ⟨A₄, rfl, hlen, hR₄⟩ := ih.1 v r₂ h₂ hv
            match A₄, hR₄, hlen with
            | [], _, _ =>
              exact (parseFieldsNext_stops he).agree _ _
            | u :: A₅, hR₄, hlen =>
              obtain ⟨h₄, hR₄'⟩ := hR₄ (List.cons_ne_nil _ _)
              rw [hR₄']
              have hlt : A₅.length < A₃.length + 1 := by simp only [List.length_cons] at hlen; omega
              exact (parseFieldsNext_agree he d L R bp (u :: A₅) _ _ _).mono (by simp; omega)
        · rw [if_neg hc, if_neg hc]
          split
          · exact agree_error fun _ => ⟨List.cons_ne_nil _ _, rfl⟩
          · exact (parseFieldsNext_agree he d L R bp (c :: A₃) _ _ _).mono (by simp)
    · rw [if_neg hk, if_neg hk]
      exact agree_error fun _ => ⟨List.cons_ne_nil _ _, rfl⟩
termination_by (A.length, 0)
decreasing_by all_goals ((try simp only [List.length_cons]); apply lex_of_lt_or; omega)

theorem parseFieldsNext_agree (he : e₁.kind = .eof) (d : Nat) (L R : List Token) (bp : Pos)
    (A : List Token) (hL : (A ++ [e₁]).length < L.length) (hR : (A ++ B).length < R.length)
    (acc : Array Field) :
    Agree e₁ B A (parseFieldsNext limit d L bp (A ++ [e₁]) hL acc)
      (parseFieldsNext limit d R bp (A ++ B) hR acc) := by
  rw [parseFieldsNext.eq_def, parseFieldsNext.eq_def]
  match A, hL, hR with
  | [], _, _ =>
    rw [← parseFieldsNext.eq_def]
    exact (parseFieldsNext_stops he).agree _ _
  | t :: A₂, hL, hR =>
    dsimp only [List.cons_append]
    by_cases hc : t.kind = .comma
    · rw [if_pos hc, if_pos hc]
      exact (parseFields_agree he d L R bp A₂ _ _ acc).mono (by simp)
    · rw [if_neg hc, if_neg hc]
      by_cases hb : t.kind = .rbrace
      · rw [expect_cons hb, expect_cons hb]
        exact agree_ok (by simp) fun _ => ⟨_, rfl⟩
      · rw [expect, expect, if_neg hb, if_neg hb]
        exact agree_error fun _ => ⟨List.cons_ne_nil _ _, rfl⟩
termination_by (A.length, 0)
decreasing_by all_goals ((try simp only [List.length_cons]); apply lex_of_lt_or; omega)

theorem parseAdditive_agree (he : e₁.kind = .eof) (d : Nat) (A : List Token) :
    Agree e₁ B A (parseAdditive limit d (A ++ [e₁])) (parseAdditive limit d (A ++ B)) := by
  have ih := parseMultiplicative_agree he d A
  rw [parseAdditive.eq_def, parseAdditive.eq_def]
  split
  · next err hl => exact agree_propagate ih hl le_rfl (fun h => by rw [h])
  · next lhs r₁ h₁ hl =>
    obtain ⟨A₁, rfl, hlen, hR⟩ := ih.1 lhs r₁ h₁ hl
    match A₁, hR, hlen with
    | [], _, _ => exact (additiveTail_stops he).agree _ _
    | t :: A₂, hR, hlen =>
      obtain ⟨h', hR'⟩ := hR (List.cons_ne_nil _ _)
      rw [hR']
      exact (additiveTail_agree he d _ _ lhs (t :: A₂) h₁ h').mono hlen
termination_by (A.length, 12)
decreasing_by all_goals (apply lex_of_lt_or; omega)

theorem additiveTail_agree (he : e₁.kind = .eof) (d : Nat) (L R : List Token) (lhs : Expr)
    (A : List Token) (hL : (A ++ [e₁]).length < L.length) (hR : (A ++ B).length < R.length) :
    Agree e₁ B A (additiveTail limit d L lhs (A ++ [e₁]) hL)
      (additiveTail limit d R lhs (A ++ B) hR) := by
  match A, hL, hR with
  | [], _, _ => exact (additiveTail_stops he).agree _ _
  | t :: A₂, hL, hR =>
    rw [additiveTail.eq_def, additiveTail.eq_def]
    dsimp only [List.cons_append]
    cases hop : additiveOp t.kind with
    | none => exact agree_ok le_rfl fun _ => ⟨_, rfl⟩
    | some op =>
      dsimp only
      have ih := parseMultiplicative_agree he d A₂
      split
      · next err hm => exact agree_propagate ih hm (by simp) (fun h => by rw [h])
      · next rhs r₂ h₂ hm =>
        obtain ⟨A₃, rfl, hlen, hR₃⟩ := ih.1 rhs r₂ h₂ hm
        match A₃, hR₃, hlen with
        | [], _, _ => exact (additiveTail_stops he).agree _ _
        | u :: A₄, hR₃, hlen =>
          obtain ⟨h₃, hR₃'⟩ := hR₃ (List.cons_ne_nil _ _)
          rw [hR₃']
          have hlt : A₄.length < A₂.length := by simp only [List.length_cons] at hlen; omega
          exact (additiveTail_agree he d L R _ (u :: A₄) _ _).mono (by simp; omega)
termination_by (A.length, 0)
decreasing_by all_goals ((try simp only [List.length_cons]); apply lex_of_lt_or; omega)

theorem parseMultiplicative_agree (he : e₁.kind = .eof) (d : Nat) (A : List Token) :
    Agree e₁ B A (parseMultiplicative limit d (A ++ [e₁]))
      (parseMultiplicative limit d (A ++ B)) := by
  have ih := parsePostfix_agree he d A
  rw [parseMultiplicative.eq_def, parseMultiplicative.eq_def]
  split
  · next err hl => exact agree_propagate ih hl le_rfl (fun h => by rw [h])
  · next lhs r₁ h₁ hl =>
    obtain ⟨A₁, rfl, hlen, hR⟩ := ih.1 lhs r₁ h₁ hl
    match A₁, hR, hlen with
    | [], _, _ => exact (multiplicativeTail_stops he).agree _ _
    | t :: A₂, hR, hlen =>
      obtain ⟨h', hR'⟩ := hR (List.cons_ne_nil _ _)
      rw [hR']
      exact (multiplicativeTail_agree he d _ _ lhs (t :: A₂) h₁ h').mono hlen
termination_by (A.length, 11)
decreasing_by all_goals (apply lex_of_lt_or; omega)

theorem multiplicativeTail_agree (he : e₁.kind = .eof) (d : Nat) (L R : List Token)
    (lhs : Expr) (A : List Token) (hL : (A ++ [e₁]).length < L.length)
    (hR : (A ++ B).length < R.length) :
    Agree e₁ B A (multiplicativeTail limit d L lhs (A ++ [e₁]) hL)
      (multiplicativeTail limit d R lhs (A ++ B) hR) := by
  match A, hL, hR with
  | [], _, _ => exact (multiplicativeTail_stops he).agree _ _
  | t :: A₂, hL, hR =>
    rw [multiplicativeTail.eq_def, multiplicativeTail.eq_def]
    dsimp only [List.cons_append]
    cases hop : multiplicativeOp t.kind with
    | none => exact agree_ok le_rfl fun _ => ⟨_, rfl⟩
    | some op =>
      dsimp only
      have ih := parsePostfix_agree he d A₂
      split
      · next err hm => exact agree_propagate ih hm (by simp) (fun h => by rw [h])
      · next rhs r₂ h₂ hm =>
        obtain ⟨A₃, rfl, hlen, hR₃⟩ := ih.1 rhs r₂ h₂ hm
        match A₃, hR₃, hlen with
        | [], _, _ => exact (multiplicativeTail_stops he).agree _ _
        | u :: A₄, hR₃, hlen =>
          obtain ⟨h₃, hR₃'⟩ := hR₃ (List.cons_ne_nil _ _)
          rw [hR₃']
          have hlt : A₄.length < A₂.length := by simp only [List.length_cons] at hlen; omega
          exact (multiplicativeTail_agree he d L R _ (u :: A₄) _ _).mono (by simp; omega)
termination_by (A.length, 0)
decreasing_by all_goals ((try simp only [List.length_cons]); apply lex_of_lt_or; omega)

theorem parsePostfix_agree (he : e₁.kind = .eof) (d : Nat) (A : List Token) :
    Agree e₁ B A (parsePostfix limit d (A ++ [e₁])) (parsePostfix limit d (A ++ B)) := by
  have ih := parsePrimary_agree he d A
  rw [parsePostfix.eq_def, parsePostfix.eq_def]
  split
  · next err hl => exact agree_propagate ih hl le_rfl (fun h => by rw [h])
  · next a r₁ h₁ hl =>
    obtain ⟨A₁, rfl, hlen, hR⟩ := ih.1 a r₁ h₁ hl
    match A₁, hR, hlen with
    | [], _, _ => exact (postfixTail_stops he).agree _ _
    | t :: A₂, hR, hlen =>
      obtain ⟨h', hR'⟩ := hR (List.cons_ne_nil _ _)
      rw [hR']
      exact (postfixTail_agree he d _ _ a (t :: A₂) h₁ h').mono hlen
termination_by (A.length, 10)
decreasing_by all_goals (apply lex_of_lt_or; omega)

theorem postfixTail_agree (he : e₁.kind = .eof) (d : Nat) (L R : List Token) (a : Expr)
    (A : List Token) (hL : (A ++ [e₁]).length < L.length) (hR : (A ++ B).length < R.length) :
    Agree e₁ B A (postfixTail limit d L a (A ++ [e₁]) hL)
      (postfixTail limit d R a (A ++ B) hR) := by
  match A, hL, hR with
  | [], _, _ => exact (postfixTail_stops he).agree _ _
  | t :: A₂, hL, hR =>
    rw [postfixTail.eq_def, postfixTail.eq_def]
    dsimp only [List.cons_append]
    by_cases hdot : t.kind = .dot
    · -- a member `.name`
      rw [if_pos hdot, if_pos hdot]
      have ih := expect_agree (B := B) he (k := .ident) (by decide) A₂
      split
      · next err hx => exact agree_propagate ih hx (by simp) (fun h => by rw [h])
      · next name r₂ h₂ hx =>
        obtain ⟨A₃, rfl, hlen, hR₃⟩ := ih.1 name r₂ h₂ hx
        match A₃, hR₃, hlen with
        | [], _, _ => exact (postfixTail_stops he).agree _ _
        | u :: A₄, hR₃, hlen =>
          obtain ⟨h₃, hR₃'⟩ := hR₃ (List.cons_ne_nil _ _)
          rw [hR₃']
          have hlt : A₄.length < A₂.length := by simp only [List.length_cons] at hlen; omega
          exact (postfixTail_agree he d L R _ (u :: A₄) _ _).mono (by simp; omega)
    rw [if_neg hdot, if_neg hdot]
    by_cases hbr : t.kind = .lbracket
    · -- an index `[key]`
      rw [if_pos hbr, if_pos hbr]
      have ih := parseExpression_agree he d A₂
      split
      · next err hx => exact agree_propagate ih hx (by simp) (fun h => by rw [h])
      · next key r₂ h₂ hx =>
        obtain ⟨A₃, rfl, hlen, hR₃⟩ := ih.1 key r₂ h₂ hx
        match A₃, hR₃, hlen with
        | [], _, _ =>
          refine Stops.agree ?_ _ _
          dsimp only [List.nil_append]
          rw [expect, if_neg (by rw [he]; decide)]
          exact stops_error (failAt_eof_notLasting he)
        | u :: A₄, hR₃, hlen =>
          obtain ⟨h₃, hR₃'⟩ := hR₃ (List.cons_ne_nil _ _)
          rw [hR₃']
          dsimp only [List.cons_append]
          by_cases hc : u.kind = .rbracket
          · rw [expect_cons hc, expect_cons hc]
            dsimp only
            have hlt : A₄.length < A₂.length := by simp only [List.length_cons] at hlen; omega
            exact (postfixTail_agree he d L R _ A₄ _ _).mono (by simp; omega)
          · rw [expect, expect, if_neg hc, if_neg hc]
            exact agree_error fun _ => ⟨List.cons_ne_nil _ _, rfl⟩
    rw [if_neg hbr, if_neg hbr]
    by_cases hpar : t.kind = .lparen
    · -- a call `(args)`
      rw [if_pos hpar, if_pos hpar]
      have ih := parseArgs_agree he d .rparen (by decide) (A₂ ++ [e₁]) (A₂ ++ B) A₂ le_rfl le_rfl #[]
      split
      · next err hx => exact agree_propagate ih hx (by simp) (fun h => by rw [h])
      · next args r₂ h₂ hx =>
        obtain ⟨A₃, rfl, hlen, hR₃⟩ := ih.1 args r₂ h₂ hx
        match A₃, hR₃, hlen with
        | [], _, _ => exact (postfixTail_stops he).agree _ _
        | u :: A₄, hR₃, hlen =>
          obtain ⟨h₃, hR₃'⟩ := hR₃ (List.cons_ne_nil _ _)
          rw [hR₃']
          have hlt : A₄.length < A₂.length := by simp only [List.length_cons] at hlen; omega
          exact (postfixTail_agree he d L R _ (u :: A₄) _ _).mono (by simp; omega)
    rw [if_neg hpar, if_neg hpar]
    exact agree_ok le_rfl fun _ => ⟨_, rfl⟩
termination_by (A.length, 0)
decreasing_by all_goals ((try simp only [List.length_cons]); apply lex_of_lt_or; omega)

theorem parseArgs_agree (he : e₁.kind = .eof) (d : Nat) (closer : TokenKind)
    (hc : closer ≠ .eof) (L R : List Token) (A : List Token) (hL : (A ++ [e₁]).length ≤ L.length)
    (hR : (A ++ B).length ≤ R.length) (acc : Array Expr) :
    Agree e₁ B A (parseArgs limit d closer L (A ++ [e₁]) hL acc)
      (parseArgs limit d closer R (A ++ B) hR acc) := by
  match A, hL, hR with
  | [], hL, hR =>
    refine Stops.agree ?_ _ _
    have ih := (parseExpression_agree he d []).stops
    rw [parseArgs.eq_def]
    simp only [List.nil_append, kindAt_cons, he, hc.symm, ↓reduceIte]
    split
    · next err hx => exact stops_error (ih.2 err hx)
    · next arg r₁ h₁ hx =>
      obtain rfl := ih.1 arg r₁ h₁ hx
      dsimp only
      rw [if_neg (by rw [he]; decide), expect, if_neg (by rw [he]; exact hc.symm)]
      exact stops_error (failAt_eof_notLasting he)
  | t :: A₂, hL, hR =>
    rw [parseArgs.eq_def, parseArgs.eq_def, kindAt_cons_append, kindAt_cons_append]
    by_cases hk : t.kind = closer
    · rw [if_pos hk, if_pos hk]
      dsimp only [List.cons_append]
      rw [expect_cons hk, expect_cons hk]
      exact agree_ok (by simp) fun _ => ⟨_, rfl⟩
    rw [if_neg hk, if_neg hk]
    have ih := parseExpression_agree he d (t :: A₂)
    split
    · next err hx => exact agree_propagate ih hx le_rfl (fun h => by rw [h])
    · next arg r₁ h₁ hx =>
      obtain ⟨A₁, rfl, hlen, hR₁⟩ := ih.1 arg r₁ h₁ hx
      match A₁, hR₁, hlen with
      | [], _, _ =>
        refine Stops.agree ?_ _ _
        dsimp only [List.nil_append]
        rw [if_neg (by rw [he]; decide), expect, if_neg (by rw [he]; exact hc.symm)]
        exact stops_error (failAt_eof_notLasting he)
      | u :: A₃, hR₁, hlen =>
        obtain ⟨h', hR'⟩ := hR₁ (List.cons_ne_nil _ _)
        rw [hR']
        dsimp only [List.cons_append]
        have hlt : A₃.length < A₂.length + 1 := by simp only [List.length_cons] at hlen; omega
        by_cases hcomma : u.kind = .comma
        · rw [if_pos hcomma, if_pos hcomma]
          exact (parseArgs_agree he d closer hc L R A₃ _ _ _).mono (by simp; omega)
        rw [if_neg hcomma, if_neg hcomma]
        by_cases hu : u.kind = closer
        · rw [expect_cons hu, expect_cons hu]
          exact agree_ok (by simp; omega) fun _ => ⟨_, rfl⟩
        · rw [expect, expect, if_neg hu, if_neg hu]
          exact agree_error fun _ => ⟨List.cons_ne_nil _ _, rfl⟩
termination_by (A.length, 16)
decreasing_by all_goals ((try simp only [List.length_cons, List.length_nil]); apply lex_of_lt_or; omega)

theorem parsePrimary_agree (he : e₁.kind = .eof) (d : Nat) (A : List Token) :
    Agree e₁ B A (parsePrimary limit d (A ++ [e₁])) (parsePrimary limit d (A ++ B)) := by
  match A with
  | [] =>
    refine Stops.agree ?_ _ _
    rw [parsePrimary.eq_def]
    dsimp only [List.nil_append]
    rw [he]
    exact stops_error (failAt_eof_notLasting he)
  | t :: A₂ =>
    rw [parsePrimary.eq_def, parsePrimary.eq_def]
    dsimp only [List.cons_append]
    generalize t.kind = k
    cases k with
    | ident => exact agree_ok (by simp) fun _ => ⟨_, rfl⟩
    | number => exact agree_ok (by simp) fun _ => ⟨_, rfl⟩
    | string => exact agree_ok (by simp) fun _ => ⟨_, rfl⟩
    | lparen =>
      dsimp only
      have ih := parseExpression_agree he d A₂
      split
      · next err hx => exact agree_propagate ih hx (by simp) (fun h => by rw [h])
      · next e r₁ h₁ hx =>
        obtain ⟨A₁, rfl, hlen, hR₁⟩ := ih.1 e r₁ h₁ hx
        match A₁, hR₁, hlen with
        | [], _, _ =>
          refine Stops.agree ?_ _ _
          dsimp only [List.nil_append]
          rw [expect, if_neg (by rw [he]; decide)]
          exact stops_error (failAt_eof_notLasting he)
        | u :: A₃, hR₁, hlen =>
          obtain ⟨h', hR'⟩ := hR₁ (List.cons_ne_nil _ _)
          rw [hR']
          dsimp only [List.cons_append]
          by_cases hu : u.kind = .rparen
          · rw [expect_cons hu, expect_cons hu]
            exact agree_ok (by simp at hlen ⊢; omega) fun _ => ⟨_, rfl⟩
          · rw [expect, expect, if_neg hu, if_neg hu]
            exact agree_error fun _ => ⟨List.cons_ne_nil _ _, rfl⟩
    | lbracket =>
      dsimp only
      have ih := parseArgs_agree he d .rbracket (by decide) (A₂ ++ [e₁]) (A₂ ++ B) A₂
        le_rfl le_rfl #[]
      split
      · next err hx => exact agree_propagate ih hx (by simp) (fun h => by rw [h])
      · next elems r₁ h₁ hx =>
        obtain ⟨A₁, rfl, hlen, hR₁⟩ := ih.1 elems r₁ h₁ hx
        refine agree_ok (by simp; omega) fun hne => ?_
        obtain ⟨h', hR'⟩ := hR₁ hne
        rw [hR']
        exact ⟨_, rfl⟩
    | _ => exact agree_error fun _ => ⟨List.cons_ne_nil _ _, rfl⟩
termination_by (A.length, 9)
decreasing_by all_goals ((try simp only [List.length_cons]); apply lex_of_lt_or; omega)

end

end Expressions

/-! ### Statements -/

theorem ne_nil_of_cons_length_le {u : Token} {A₂ A : List Token}
    (h : (u :: A₂).length ≤ A.length) : A ≠ [] := by
  rintro rfl
  simp at h

theorem parseParams_agree (he : e₁.kind = .eof) (A : List Token) (acc : Array String) :
    Agree e₁ B A (parseParams (A ++ [e₁]) acc) (parseParams (A ++ B) acc) := by
  match A with
  | [] =>
    refine Stops.agree ?_ _ _
    rw [parseParams, if_neg (by show e₁.kind ≠ _; rw [he]; decide)]
    dsimp only [List.nil_append]
    rw [expect, if_neg (by rw [he]; decide)]
    exact stops_error (failAt_eof_notLasting he)
  | t :: A₂ =>
    rw [parseParams, parseParams, kindAt_cons_append, kindAt_cons_append]
    by_cases hk : t.kind = .rparen
    · rw [if_pos hk, if_pos hk]
      exact agree_ok le_rfl fun _ => ⟨_, rfl⟩
    rw [if_neg hk, if_neg hk]
    dsimp only [List.cons_append]
    by_cases hi : t.kind = .ident
    · rw [expect_cons hi, expect_cons hi]
      dsimp only
      match A₂ with
      | [] =>
        dsimp only [List.nil_append]
        rw [if_neg (by rw [he]; decide)]
        exact stops_ok.agree _ _
      | u :: A₃ =>
        dsimp only [List.cons_append]
        by_cases hc : u.kind = .comma
        · rw [if_pos hc, if_pos hc]
          have ih := parseParams_agree he A₃ (acc.push t.lexeme)
          split
          · next err hx => exact agree_propagate ih hx (by simp; omega) (fun h => by rw [h])
          · next ps r h hx =>
            obtain rfl | ⟨v, A₄, h', rfl, hlen, hy⟩ := ih.of_ok hx
            · exact stops_ok.agree _ _
            · rw [hy]
              exact agree_ok_cons (by simp at hlen ⊢; omega)
        · rw [if_neg hc, if_neg hc]
          exact agree_ok_cons (by simp)
    · rw [expect, expect, if_neg hi, if_neg hi]
      exact agree_error fun _ => ⟨List.cons_ne_nil _ _, rfl⟩
termination_by A.length

section Statements

variable (limit)

theorem parseExprStmt_agree (he : e₁.kind = .eof) (d : Nat) (A : List Token) :
    Agree e₁ B A (parseExprStmt limit d (A ++ [e₁])) (parseExprStmt limit d (A ++ B)) := by
  have ih := parseExpression_agree limit (B := B) he d A
  rw [parseExprStmt, parseExprStmt]
  split
  · next err hx => exact agree_propagate ih hx le_rfl (fun h => by rw [h])
  · next e r h hx =>
    obtain rfl | ⟨u, A₂, h', rfl, hlen, hy⟩ := ih.of_ok hx
    · dsimp only
      rw [if_neg (by rw [he]; decide)]
      exact stops_ok.agree _ _
    · rw [hy]
      dsimp only
      by_cases hu : u.kind = .semicolon
      · rw [if_pos hu, if_pos hu]
        exact agree_ok (by simp at hlen; omega) fun _ => ⟨_, rfl⟩
      · rw [if_neg hu, if_neg hu]
        exact agree_ok hlen fun _ => ⟨_, rfl⟩

theorem parseVarTail_agree (he : e₁.kind = .eof) (d : Nat) (L R : List Token) (start : Pos)
    (isConst : Bool) (A : List Token) (hL : (A ++ [e₁]).length < L.length)
    (hR : (A ++ B).length < R.length) :
    Agree e₁ B A (parseVarTail limit d L start isConst (A ++ [e₁]) hL)
      (parseVarTail limit d R start isConst (A ++ B) hR) := by
  have ih := expect_agree (B := B) he (k := .ident) (by decide) A
  rw [parseVarTail, parseVarTail]
  split
  · next err hx => exact agree_propagate ih hx le_rfl (fun h => by rw [h])
  · next name r h hx =>
    obtain rfl | ⟨u, A₂, h', rfl, hlen, hy⟩ := ih.of_ok hx
    · -- the name ends the input: neither a value nor `;` follows
      refine Stops.agree ?_ _ _
      dsimp only
      rw [if_neg (by rw [he]; decide)]
      split
      · exact stops_error (failAt_eof_notLasting he)
      · rw [expect, if_neg (by rw [he]; decide)]
        exact stops_error (failAt_eof_notLasting he)
    rw [hy]
    dsimp only
    by_cases hu : u.kind = .assign
    · rw [if_pos hu, if_pos hu]
      have ih₂ := parseExpression_agree limit (B := B) he d A₂
      split
      · next err hx₂ =>
        exact agree_propagate ih₂ hx₂ (by simp at hlen; omega) (fun h => by rw [h])
      · next init r₂ h₂ hx₂ =>
        obtain rfl | ⟨v, A₃, h₃, rfl, hlen₃, hy₃⟩ := ih₂.of_ok hx₂
        · refine Stops.agree ?_ _ _
          rw [expect, if_neg (by rw [he]; decide)]
          exact stops_error (failAt_eof_notLasting he)
        rw [hy₃]
        dsimp only
        by_cases hv : v.kind = .semicolon
        · rw [expect_cons hv, expect_cons hv]
          exact agree_ok (by simp at hlen hlen₃; omega) fun _ => ⟨_, rfl⟩
        · rw [expect, expect, if_neg hv, if_neg hv]
          exact agree_error fun _ => ⟨ne_nil_of_cons_length_le hlen, rfl⟩
    rw [if_neg hu, if_neg hu]
    by_cases hc : isConst = true
    · rw [if_pos hc, if_pos hc]
      exact agree_error fun _ => ⟨ne_nil_of_cons_length_le hlen, rfl⟩
    rw [if_neg hc, if_neg hc]
    by_cases hv : u.kind = .semicolon
    · rw [expect_cons hv, expect_cons hv]
      exact agree_ok (by simp at hlen; omega) fun _ => ⟨_, rfl⟩
    · rw [expect, expect, if_neg hv, if_neg hv]
      exact agree_error fun _ => ⟨ne_nil_of_cons_length_le hlen, rfl⟩

theorem parseRet_agree (he : e₁.kind = .eof) (d : Nat) (L R : List Token) (start : Pos)
    (A : List Token) (hL : (A ++ [e₁]).length < L.length) (hR : (A ++ B).length < R.length) :
    Agree e₁ B A (parseRet limit d L start (A ++ [e₁]) hL)
      (parseRet limit d R start (A ++ B) hR) := by
  match A, hL, hR with
  | [], hL, hR =>
    refine Stops.agree ?_ _ _
    have ih := (parseExpression_agree limit (B := B) he d []).stops
    rw [parseRet, if_neg (by show e₁.kind ≠ _; rw [he]; decide)]
    split
    · next err hx => exact stops_error (ih.2 err hx)
    · next e r h hx =>
      obtain rfl := ih.1 e r h hx
      rw [expect, if_neg (by rw [he]; decide)]
      exact stops_error (failAt_eof_notLasting he)
  | t :: A₂, hL, hR =>
    rw [parseRet, parseRet, kindAt_cons_append, kindAt_cons_append]
    by_cases hk : t.kind = .semicolon
    · rw [if_pos hk, if_pos hk]
      dsimp only [List.cons_append]
      rw [expect_cons hk, expect_cons hk]
      exact agree_ok (by simp) fun _ => ⟨_, rfl⟩
    rw [if_neg hk, if_neg hk]
    have ih := parseExpression_agree limit (B := B) he d (t :: A₂)
    split
    · next err hx => exact agree_propagate ih hx le_rfl (fun h => by rw [h])
    · next e r h hx =>
      obtain rfl | ⟨u, A₃, h', rfl, hlen, hy⟩ := ih.of_ok hx
      · refine Stops.agree ?_ _ _
        rw [expect, if_neg (by rw [he]; decide)]
        exact stops_error (failAt_eof_notLasting he)
      rw [hy]
      dsimp only
      by_cases hu : u.kind = .semicolon
      · rw [expect_cons hu, expect_cons hu]
        exact agree_ok (by simp at hlen ⊢; omega) fun _ => ⟨_, rfl⟩
      · rw [expect, expect, if_neg hu, if_neg hu]
        exact agree_error fun _ => ⟨List.cons_ne_nil _ _, rfl⟩

mutual

theorem parseStatement_agree (he : e₁.kind = .eof) (d : Nat) (A : List Token) :
    Agree e₁ B A (parseStatement limit d (A ++ [e₁])) (parseStatement limit d (A ++ B)) := by
  match A with
  | [] =>
    refine Stops.agree ?_ _ _
    rw [parseStatement.eq_def]
    dsimp only [List.nil_append]
    rw [he]
    exact (parseExprStmt_agree limit (B := B) he d []).stops
  | t :: A₂ =>
    rw [parseStatement.eq_def, parseStatement.eq_def]
    dsimp only [List.cons_append]
    generalize t.kind = k
    cases k with
    | keyword kw =>
      cases kw with
      | letKw =>
        match A₂ with
        | [] =>
          refine Stops.agree ?_ _ _
          dsimp only [List.nil_append]
          rw [if_neg (by rw [he]; decide)]
          exact (parseVarTail_agree limit (B := B) he d _ (e₁ :: B) t.pos false [] _
            (by simp)).stops
        | m :: A₃ =>
          dsimp only [List.cons_append]
          by_cases hm : m.kind = .keyword .mutKw
          · rw [if_pos hm, if_pos hm]
            exact (parseVarTail_agree limit he d _ _ t.pos false A₃ _ _).mono (by simp; omega)
          · rw [if_neg hm, if_neg hm]
            exact (parseVarTail_agree limit he d _ _ t.pos false (m :: A₃) _ _).mono (by simp)
      | constKw => exact (parseVarTail_agree limit he d _ _ t.pos true A₂ _ _).mono (by simp)
      | funcKw => exact (parseFunc_agree he d _ _ t.pos A₂ _ _).mono (by simp)
      | retKw => exact (parseRet_agree limit he d _ _ t.pos A₂ _ _).mono (by simp)
      | ifKw => exact parseIf_agree he d (t :: A₂)
      | forKw => exact (parseFor_agree he d _ _ t.pos A₂ _ _).mono (by simp)
      | _ => exact parseExprStmt_agree limit he d (t :: A₂)
    | _ => exact parseExprStmt_agree limit he d (t :: A₂)
termination_by (A.length, 20)
decreasing_by all_goals ((try simp only [List.length_cons]); apply lex_of_lt_or; omega)

theorem parseFunc_agree (he : e₁.kind = .eof) (d : Nat) (L R : List Token) (start : Pos)
    (A : List Token) (hL : (A ++ [e₁]).length < L.length) (hR : (A ++ B).length < R.length) :
    Agree e₁ B A (parseFunc limit d L start (A ++ [e₁]) hL)
      (parseFunc limit d R start (A ++ B) hR) := by
  have ih := expect_agree (B := B) he (k := .ident) (by decide) A
  rw [parseFunc.eq_def, parseFunc.eq_def]
  split
  · next err hx => exact agree_propagate ih hx le_rfl (fun h => by rw [h])
  · next name r h hx =>
    obtain rfl | ⟨u, A₂, h', rfl, hlen, hy⟩ := ih.of_ok hx
    · -- the name ends the input: `(` is missing there
      refine Stops.agree ?_ _ _
      rw [expect, if_neg (by rw [he]; decide)]
      exact stops_error (failAt_eof_notLasting he)
    rw [hy]
    dsimp only
    by_cases hp : u.kind = .lparen
    swap
    · rw [expect, expect, if_neg hp, if_neg hp]
      exact agree_error fun _ => ⟨ne_nil_of_cons_length_le hlen, rfl⟩
    rw [expect_cons hp, expect_cons hp]
    dsimp only
    have ih₂ := parseParams_agree (B := B) he A₂ #[]
    split
    · next err hx₂ =>
      exact agree_propagate ih₂ hx₂ (by simp at hlen; omega) (fun h => by rw [h])
    · next ps r₂ h₂ hx₂ =>
      obtain rfl | ⟨v, A₃, h₃, rfl, hlen₃, hy₃⟩ := ih₂.of_ok hx₂
      · -- the parameters end the input: `)` is missing there
        refine Stops.agree ?_ _ _
        rw [expect, if_neg (by rw [he]; decide)]
        exact stops_error (failAt_eof_notLasting he)
      rw [hy₃]
      dsimp only
      by_cases hv : v.kind = .rparen
      swap
      · rw [expect, expect, if_neg hv, if_neg hv]
        exact agree_error fun _ => ⟨ne_nil_of_cons_length_le hlen, rfl⟩
      rw [expect_cons hv, expect_cons hv]
      dsimp only
      have hlt : A₃.length < A.length := by simp at hlen hlen₃; omega
      have ih₃ := parseBlock_agree he d A₃
      split
      · next err hx₃ => exact agree_propagate ih₃ hx₃ hlt.le (fun h => by rw [h])
      · next body r₄ h₄ hx₃ =>
        obtain rfl | ⟨w, A₄, h₅, rfl, hlen₄, hy₄⟩ := ih₃.of_ok hx₃
        · exact stops_ok.agree _ _
        rw [hy₄]
        exact agree_ok_cons (by simp at hlen₄ ⊢; omega)
termination_by (A.length, 0)
decreasing_by all_goals (apply lex_of_lt_or; omega)

theorem parseIf_agree (he : e₁.kind = .eof) (d : Nat) (A : List Token) :
    Agree e₁ B A (parseIf limit d (A ++ [e₁])) (parseIf limit d (A ++ B)) := by
  have ih := expect_agree (B := B) he (k := .keyword .ifKw) (by decide) A
  rw [parseIf.eq_def, parseIf.eq_def]
  split
  · next err hx => exact agree_propagate ih hx le_rfl (fun h => by rw [h])
  · next ifTok r h hx =>
    obtain rfl | ⟨u, A₂, h', rfl, hlen, hy⟩ := ih.of_ok hx
    · -- `if` ends the input: the condition and the block stop there
      refine Stops.agree ?_ _ _
      have ih₂ := (parseExpression_agree limit (B := B) he d []).stops
      split
      · next err hx₂ => exact stops_error (ih₂.2 err hx₂)
      · next cond r₂ h₂ hx₂ =>
        obtain rfl := ih₂.1 _ _ _ hx₂
        have ih₃ := (parseBlock_agree he d []).stops
        split
        · next err hx₃ => exact stops_error (ih₃.2 err hx₃)
        · next body r₃ h₃ hx₃ =>
          obtain rfl := ih₃.1 _ _ _ hx₃
          dsimp only
          rw [if_neg (by rw [he]; decide)]
          exact stops_ok
    rw [hy]
    dsimp only
    have ih₂ := parseExpression_agree limit (B := B) he d (u :: A₂)
    dsimp only [List.cons_append] at ih₂
    split
    · next err hx₂ => exact agree_propagate ih₂ hx₂ hlen (fun h => by rw [h])
    · next cond r₂ h₂ hx₂ =>
      obtain rfl | ⟨v, A₃, h₃, rfl, hlen₃, hy₃⟩ := ih₂.of_ok hx₂
      · -- the condition ends the input: the block stops there
        refine Stops.agree ?_ _ _
        have ih₃ := (parseBlock_agree he d []).stops
        split
        · next err hx₃ => exact stops_error (ih₃.2 err hx₃)
        · next body r₃ h₃ hx₃ =>
          obtain rfl := ih₃.1 _ _ _ hx₃
          dsimp only
          rw [if_neg (by rw [he]; decide)]
          exact stops_ok
      rw [hy₃]
      dsimp only
      have hlt₃ : A₃.length + 1 ≤ A.length := by simp at hlen hlen₃; omega
      have ih₃ := parseBlock_agree he d (v :: A₃)
      dsimp only [List.cons_append] at ih₃
      split
      · next err hx₃ => exact agree_propagate ih₃ hx₃ (hlen₃.trans hlen) (fun h => by rw [h])
      · next thenBody r₃ h₄ hx₃ =>
        obtain rfl | ⟨w, A₄, h₅, rfl, hlen₄, hy₄⟩ := ih₃.of_ok hx₃
        · dsimp only
          rw [if_neg (by rw [he]; decide)]
          exact stops_ok.agree _ _
        rw [hy₄]
        dsimp only
        have hlen' : (w :: A₄).length ≤ A.length := hlen₄.trans (hlen₃.trans hlen)
        by_cases hw : w.kind = .keyword .elseKw
        swap
        · rw [if_neg hw, if_neg hw]
          exact agree_ok_cons hlen'
        rw [if_pos hw, if_pos hw]
        match A₄ with
        | [] =>
          refine Stops.agree ?_ _ _
          rw [if_neg (by show e₁.kind ≠ _; rw [he]; decide)]
          have ih₄ := (parseBlock_agree he d []).stops
          split
          · next err hx₄ => exact stops_error (ih₄.2 err hx₄)
          · next elseBody r₄ h₆ hx₄ =>
            obtain rfl := ih₄.1 _ _ _ hx₄
            exact stops_ok
        | x :: A₅ =>
          have hlt : A₅.length + 1 < A.length := by simp at hlen'; omega
          rw [kindAt_cons_append, kindAt_cons_append]
          by_cases hi : x.kind = .keyword .ifKw
          · rw [if_pos hi, if_pos hi]
            split
            · next err hen => exact agree_error fun hl => absurd hl (enter_notLasting hen)
            · next d' hen =>
              rw [enter_ok_of_ok hen]
              dsimp only
              have ih₄ := parseIf_agree he d' (x :: A₅)
              split
              · next err hx₄ =>
                exact agree_propagate ih₄ hx₄ (by simp; omega) (fun h => by rw [h])
              · next nested r₄ h₆ hx₄ =>
                obtain rfl | ⟨y, A₆, h₇, rfl, hlen₆, hy₆⟩ := ih₄.of_ok hx₄
                · exact stops_ok.agree _ _
                rw [hy₆]
                exact agree_ok_cons (hlen₆.trans (by simp; omega))
          · rw [if_neg hi, if_neg hi]
            have ih₄ := parseBlock_agree he d (x :: A₅)
            split
            · next err hx₄ =>
              exact agree_propagate ih₄ hx₄ (by simp; omega) (fun h => by rw [h])
            · next elseBody r₄ h₆ hx₄ =>
              obtain rfl | ⟨y, A₆, h₇, rfl, hlen₆, hy₆⟩ := ih₄.of_ok hx₄
              · exact stops_ok.agree _ _
              rw [hy₆]
              exact agree_ok_cons (hlen₆.trans (by simp; omega))
termination_by (A.length, 19)
decreasing_by all_goals ((try simp only [List.length_cons, List.length_nil]); apply lex_of_lt_or; omega)

theorem parseFor_agree (he : e₁.kind = .eof) (d : Nat) (L R : List Token) (start : Pos)
    (A : List Token) (hL : (A ++ [e₁]).length < L.length) (hR : (A ++ B).length < R.length) :
    Agree e₁ B A (parseFor limit d L start (A ++ [e₁]) hL)
      (parseFor limit d R start (A ++ B) hR) := by
  match A, hL, hR with
  | [], hL, hR =>
    refine Stops.agree ?_ _ _
    rw [parseFor.eq_def]
    extract_lets paren r0 h0
    have e0 : r0 = [e₁] := by
      simp only [r0, paren]
      rw [if_neg (by show e₁.kind ≠ _; rw [he]; decide)]
      rfl
    have ih := (expect_agree (B := B) he (k := .ident) (by decide) []).stops
    rw [List.nil_append, ← e0] at ih
    split
    · next err hx => exact stops_error (ih.2 err hx)
    · next name r1 h1 hx =>
      obtain rfl := ih.1 _ _ _ hx
      rw [expect, if_neg (by rw [he]; decide)]
      exact stops_error (failAt_eof_notLasting he)
  | t :: A₂, hL, hR =>
    rw [parseFor.eq_def, parseFor.eq_def]
    extract_lets paren r0 h0 paren' r0' h0'
    -- whether the header is in parentheses is read off its first token, alike in both runs
    obtain ⟨A₀, hA₀, e0, e0'⟩ : ∃ A₀ : List Token, A₀.length ≤ (t :: A₂).length ∧
        r0 = A₀ ++ [e₁] ∧ r0' = A₀ ++ B := by
      simp only [r0, paren, r0', paren']
      rw [kindAt_cons_append, kindAt_cons_append]
      by_cases hp : t.kind = .lparen
      · rw [if_pos hp, if_pos hp]
        exact ⟨A₂, by simp, rfl, rfl⟩
      · rw [if_neg hp, if_neg hp]
        exact ⟨t :: A₂, le_rfl, rfl, rfl⟩
    have ih := expect_agree (B := B) he (k := .ident) (by decide) A₀
    rw [← e0, ← e0'] at ih
    split
    · next err hx => exact agree_propagate ih hx hA₀ (fun h => by rw [h])
    · next name r1 h1 hx =>
      obtain rfl | ⟨u, A₃, h', rfl, hlen, hy⟩ := ih.of_ok hx
      · -- the name ends the input: `in` is missing there
        refine Stops.agree ?_ _ _
        rw [expect, if_neg (by rw [he]; decide)]
        exact stops_error (failAt_eof_notLasting he)
      rw [hy]
      dsimp only
      have hne : t :: A₂ ≠ [] := List.cons_ne_nil _ _
      by_cases hu : u.kind = .keyword .inKw
      swap
      · rw [expect, expect, if_neg hu, if_neg hu]
        exact agree_error fun _ => ⟨hne, rfl⟩
      rw [expect_cons hu, expect_cons hu]
      dsimp only
      have ih₂ := parseExpression_agree limit (B := B) he d A₃
      split
      · next err hx₂ =>
        exact agree_propagate ih₂ hx₂ (by simp at hA₀ hlen ⊢; omega) (fun h => by rw [h])
      · next iterable r3 h3 hx₂ =>
        obtain rfl | ⟨v, A₄, h₄, rfl, hlen₄, hy₄⟩ := ih₂.of_ok hx₂
        · -- the iterable ends the input: `)` or the body stops there
          refine Stops.agree ?_ _ _
          by_cases hp : paren
          · rw [if_pos hp, expect, if_neg (by rw [he]; decide)]
            exact stops_error (failAt_eof_notLasting he)
          rw [if_neg hp]
          dsimp only
          have ih₃ := (parseBlock_agree he d []).stops
          split
          · next err hx₃ => exact stops_error (ih₃.2 err hx₃)
          · next body r5 h5 hx₃ =>
            obtain rfl := ih₃.1 _ _ _ hx₃
            exact stops_ok
        rw [hy₄]
        dsimp only
        have hlt : A₄.length + 1 < A₂.length + 1 := by simp at hA₀ hlen hlen₄; omega
        by_cases hp : paren
        · rw [if_pos hp, if_pos (show paren' from hp)]
          by_cases hv : v.kind = .rparen
          swap
          · rw [expect, expect, if_neg hv, if_neg hv]
            exact agree_error fun _ => ⟨hne, rfl⟩
          rw [expect_cons hv, expect_cons hv]
          dsimp only
          have ih₃ := parseBlock_agree he d A₄
          split
          · next err hx₃ => exact agree_propagate ih₃ hx₃ (by simp; omega) (fun h => by rw [h])
          · next body r5 h5 hx₃ =>
            obtain rfl | ⟨w, A₅, h₆, rfl, hlen₅, hy₅⟩ := ih₃.of_ok hx₃
            · exact stops_ok.agree _ _
            rw [hy₅]
            exact agree_ok_cons (hlen₅.trans (by simp; omega))
        · rw [if_neg hp, if_neg (show ¬ paren' from hp)]
          dsimp only
          have ih₃ := parseBlock_agree he d (v :: A₄)
          dsimp only [List.cons_append] at ih₃
          split
          · next err hx₃ => exact agree_propagate ih₃ hx₃ (by simp; omega) (fun h => by rw [h])
          · next body r5 h5 hx₃ =>
            obtain rfl | ⟨w, A₅, h₆, rfl, hlen₅, hy₅⟩ := ih₃.of_ok hx₃
            · exact stops_ok.agree _ _
            rw [hy₅]
            exact agree_ok_cons (hlen₅.trans (by simp; omega))
termination_by (A.length, 0)
decreasing_by all_goals ((try simp only [List.length_cons, List.length_nil]); apply lex_of_lt_or; omega)

theorem parseBlock_agree (he : e₁.kind = .eof) (d : Nat) (A : List Token) :
    Agree e₁ B A (parseBlock limit d (A ++ [e₁])) (parseBlock limit d (A ++ B)) := by
  have ih := expect_agree (B := B) he (k := .lbrace) (by decide) A
  rw [parseBlock.eq_def, parseBlock.eq_def]
  split
  · next err hx => exact agree_propagate ih hx le_rfl (fun h => by rw [h])
  · next r h hx =>
    obtain rfl | ⟨u, A₂, h', rfl, hlen, hy⟩ := ih.of_ok hx
    · -- `{` ends the input: the block is unclosed, or past the nesting limit
      refine Stops.agree ?_ _ _
      split
      · next err hen => exact stops_error (enter_notLasting hen)
      · rw [parseBlockBody.eq_def]
        dsimp only
        rw [if_neg (by rw [he]; decide), if_pos he]
        exact stops_error (failAt_eof_notLasting he)
    rw [hy]
    dsimp only
    split
    · next err hen => exact agree_error fun hl => absurd hl (enter_notLasting hen)
    · next d' hen =>
      rw [enter_ok_of_ok hen]
      have hlt : A₂.length + 1 < A.length := by simp at h; omega
      exact (parseBlockBody_agree he d' _ _ (u :: A₂) _ _ #[]).mono hlen
termination_by (A.length, 0)
decreasing_by all_goals ((try simp only [List.length_cons]); apply lex_of_lt_or; omega)

theorem parseBlockBody_agree (he : e₁.kind = .eof) (d : Nat) (L R : List Token) (A : List Token)
    (hL : (A ++ [e₁]).length < L.length) (hR : (A ++ B).length < R.length) (acc : Array Stmt) :
    Agree e₁ B A (parseBlockBody limit d L (A ++ [e₁]) hL acc)
      (parseBlockBody limit d R (A ++ B) hR acc) := by
  match A, hL, hR with
  | [], hL, hR =>
    refine Stops.agree ?_ _ _
    rw [parseBlockBody.eq_def]
    dsimp only [List.nil_append]
    rw [if_neg (by rw [he]; decide), if_pos he]
    exact stops_error (failAt_eof_notLasting he)
  | t :: A₂, hL, hR =>
    rw [parseBlockBody.eq_def, parseBlockBody.eq_def]
    dsimp only [List.cons_append]
    by_cases hb : t.kind = .rbrace
    · rw [if_pos hb, if_pos hb]
      exact agree_ok (by simp) fun _ => ⟨_, rfl⟩
    rw [if_neg hb, if_neg hb]
    by_cases hf : t.kind = .eof
    · rw [if_pos hf, if_pos hf]
      exact agree_error fun _ => ⟨List.cons_ne_nil _ _, rfl⟩
    rw [if_neg hf, if_neg hf]
    by_cases hs : t.kind = .semicolon
    · rw [if_pos hs, if_pos hs]
      exact (parseBlockBody_agree he d L R A₂ _ _ acc).mono (by simp)
    rw [if_neg hs, if_neg hs]
    have ih := parseStatement_agree he d (t :: A₂)
    dsimp only [List.cons_append] at ih
    split
    · next err hx => exact agree_propagate ih hx le_rfl (fun h => by rw [h])
    · next s r h hx =>
      obtain rfl | ⟨u, A₃, h', rfl, hlen, hy⟩ := ih.of_ok hx
      · -- the statement ends the input: the block is unclosed
        refine Stops.agree ?_ _ _
        rw [parseBlockBody.eq_def]
        dsimp only
        rw [if_neg (by rw [he]; decide), if_pos he]
        exact stops_error (failAt_eof_notLasting he)
      rw [hy]
      -- a statement reads at least one token
      have hlt : A₃.length < A₂.length := by simp at h; omega
      exact (parseBlockBody_agree he d L R (u :: A₃) _ _ (acc.push s)).mono hlen
termination_by (A.length, 21)
decreasing_by all_goals ((try simp only [List.length_cons]); apply lex_of_lt_or; omega)

end

end Statements

/-! ### Programs -/

/-- A lasting failure of a program read from `A ++ [e₁]` is met again on `A ++ B`, whatever `B`
is: more input after a lasting failure cannot make the program parse. -/
theorem parseProgramFrom_lasting (he : e₁.kind = .eof) (A : List Token) (acc : Array Stmt)
    {err : Error} (h : parseProgramFrom limit (A ++ [e₁]) acc = .error err) (hl : Lasting err) :
    parseProgramFrom limit (A ++ B) acc = .error err := by
  match A with
  | [] =>
    rw [List.nil_append, parseProgramFrom, if_pos he] at h
    cases h
  | t :: A₂ =>
    rw [List.cons_append, parseProgramFrom] at h
    rw [List.cons_append, parseProgramFrom]
    by_cases hf : t.kind = .eof
    · rw [if_pos hf] at h
      cases h
    rw [if_neg hf] at h ⊢
    by_cases hs : t.kind = .semicolon
    · rw [if_pos hs] at h ⊢
      exact parseProgramFrom_lasting he A₂ acc h hl
    rw [if_neg hs] at h ⊢
    have ih := parseStatement_agree limit (B := B) he 0 (t :: A₂)
    dsimp only [List.cons_append] at ih
    split at h
    · next err' hx =>
      cases h
      rw [(ih.2 _ hx hl).2]
    · next s r hr hx =>
      obtain rfl | ⟨u, A₃, h', rfl, hlen, hy⟩ := ih.of_ok hx
      · -- the statement ends the input, and the program with it
        rw [parseProgramFrom, if_pos he] at h
        cases h
      rw [hy]
      have hlt : A₃.length < A₂.length := by simp at hr; omega
      exact parseProgramFrom_lasting he (u :: A₃) (acc.push s) h hl
termination_by A.length
decreasing_by all_goals (simp only [List.length_cons]; omega)

end Treewalk.Parser
