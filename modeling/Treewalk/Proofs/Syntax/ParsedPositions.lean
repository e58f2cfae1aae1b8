import Mathlib
import Treewalk.Proofs.Syntax.ParsedNames
import Treewalk.Proofs.Syntax.TokenPositions
/-!
# The parser cites only the positions of its tokens

Every position in a parsed program, and the position of every failure the parser reports, is
the position of a token it was given. The parser copies positions from tokens and makes up just
one, that of the end of an empty list, on line 0; it never gets there, because it consumes no
end of input, and the lexer ends every token list with one.

`Expr.Within S` says that every position of a tree lies in `S`. The proof follows the parser's
own recursion, as in the other files about the parser: each parsing function has one lemma
saying that when its tokens stand at positions of `S` and end in an end of input (`Ended`), its
value lies within `S`, the rest it leaves is again such a list, and its failure is at a position
of `S` (`Placed`). With `S` the positions of a text's tokens, every program `parse` returns
lies within the text, and every failure it reports is at one of the text's tokens or, for a
lexical failure, at the quote or `/*` that is never closed.
-/
namespace Treewalk

mutual

def Expr.Within (S : Pos → Prop) : Expr → Prop
  | .num _ p | .str _ p | .ident _ p => S p
  | .binary _ l r p => l.Within S ∧ r.Within S ∧ S p
  | .assign t v => t.Within S ∧ v.Within S
  | .array es p => Expr.AllWithin S es ∧ S p
  | .object fs p => Field.AllWithin S fs ∧ S p
  | .member o _ np p => o.Within S ∧ S np ∧ S p
  | .index o k p => o.Within S ∧ k.Within S ∧ S p
  | .call f as p => f.Within S ∧ Expr.AllWithin S as ∧ S p

def Target.Within (S : Pos → Prop) : Target → Prop
  | .var _ p => S p
  | .member o _ np p => o.Within S ∧ S np ∧ S p
  | .index o k p => o.Within S ∧ k.Within S ∧ S p

def Field.Within (S : Pos → Prop) : Field → Prop
  | .keyed _ p v => S p ∧ v.Within S
  | .shorthand _ p => S p

def Expr.AllWithin (S : Pos → Prop) : List Expr → Prop
  | [] => True
  | e :: es => e.Within S ∧ Expr.AllWithin S es

def Field.AllWithin (S : Pos → Prop) : List Field → Prop
  | [] => True
  | f :: fs => f.Within S ∧ Field.AllWithin S fs

end

mutual

def Stmt.Within (S : Pos → Prop) : Stmt → Prop
  | .expr e => e.Within S
  | .letDecl _ none p => S p
  | .letDecl _ (some e) p => e.Within S ∧ S p
  | .constDecl _ e p => e.Within S ∧ S p
  | .funcDecl _ _ body p => Stmt.AllWithin S body ∧ S p
  | .ret none p => S p
  | .ret (some e) p => e.Within S ∧ S p
  | .ifElse c t none p => c.Within S ∧ Stmt.AllWithin S t ∧ S p
  | .ifElse c t (some b) p => c.Within S ∧ Stmt.AllWithin S t ∧ Stmt.AllWithin S b ∧ S p
  | .forIn _ it body p => it.Within S ∧ Stmt.AllWithin S body ∧ S p

def Stmt.AllWithin (S : Pos → Prop) : List Stmt → Prop
  | [] => True
  | s :: ss => s.Within S ∧ Stmt.AllWithin S ss

end

section Within

variable {S : Pos → Prop}

theorem Expr.allWithin_iff (es : List Expr) : Expr.AllWithin S es ↔ ∀ e ∈ es, e.Within S := by
  induction es with
  | nil => simp [Expr.AllWithin]
  | cons e es ih => simp [Expr.AllWithin, ih]

theorem Field.allWithin_iff (fs : List Field) :
    Field.AllWithin S fs ↔ ∀ f ∈ fs, f.Within S := by
  induction fs with
  | nil => simp [Field.AllWithin]
  | cons f fs ih => simp [Field.AllWithin, ih]

theorem Stmt.allWithin_iff (ss : List Stmt) : Stmt.AllWithin S ss ↔ ∀ s ∈ ss, s.Within S := by
  induction ss with
  | nil => simp [Stmt.AllWithin]
  | cons s ss ih => simp [Stmt.AllWithin, ih]

theorem Expr.allWithin_push {acc : Array Expr} {e : Expr} (hacc : Expr.AllWithin S acc.toList)
    (he : e.Within S) : Expr.AllWithin S (acc.push e).toList := by
  rw [Expr.allWithin_iff] at hacc ⊢
  simpa [or_imp, forall_and] using And.intro hacc he

theorem Field.allWithin_push {acc : Array Field} {f : Field} (hacc : Field.AllWithin S acc.toList)
    (hf : f.Within S) : Field.AllWithin S (acc.push f).toList := by
  rw [Field.allWithin_iff] at hacc ⊢
  simpa [or_imp, forall_and] using And.intro hacc hf

theorem Stmt.allWithin_push {acc : Array Stmt} {s : Stmt} (hacc : Stmt.AllWithin S acc.toList)
    (hs : s.Within S) : Stmt.AllWithin S (acc.push s).toList := by
  rw [Stmt.allWithin_iff] at hacc ⊢
  simpa [or_imp, forall_and] using And.intro hacc hs

mutual

theorem Expr.Within.mono {S' : Pos → Prop} (hS : ∀ q, S q → S' q) :
    (e : Expr) → e.Within S → e.Within S'
  | .num _ _, h | .str _ _, h | .ident _ _, h => hS _ h
  | .binary _ l r _, h => ⟨Expr.Within.mono hS l h.1, Expr.Within.mono hS r h.2.1, hS _ h.2.2⟩
  | .assign t v, h => ⟨Target.Within.mono hS t h.1, Expr.Within.mono hS v h.2⟩
  | .array es _, h => ⟨Expr.AllWithin.mono hS es h.1, hS _ h.2⟩
  | .object fs _, h => ⟨Field.AllWithin.mono hS fs h.1, hS _ h.2⟩
  | .member o _ _ _, h => ⟨Expr.Within.mono hS o h.1, hS _ h.2.1, hS _ h.2.2⟩
  | .index o k _, h => ⟨Expr.Within.mono hS o h.1, Expr.Within.mono hS k h.2.1, hS _ h.2.2⟩
  | .call f as _, h => ⟨Expr.Within.mono hS f h.1, Expr.AllWithin.mono hS as h.2.1, hS _ h.2.2⟩

theorem Target.Within.mono {S' : Pos → Prop} (hS : ∀ q, S q → S' q) :
    (t : Target) → t.Within S → t.Within S'
  | .var _ _, h => hS _ h
  | .member o _ _ _, h => ⟨Expr.Within.mono hS o h.1, hS _ h.2.1, hS _ h.2.2⟩
  | .index o k _, h => ⟨Expr.Within.mono hS o h.1, Expr.Within.mono hS k h.2.1, hS _ h.2.2⟩

theorem Field.Within.mono {S' : Pos → Prop} (hS : ∀ q, S q → S' q) :
    (f : Field) → f.Within S → f.Within S'
  | .keyed _ _ v, h => ⟨hS _ h.1, Expr.Within.mono hS v h.2⟩
  | .shorthand _ _, h => hS _ h

theorem Expr.AllWithin.mono {S' : Pos → Prop} (hS : ∀ q, S q → S' q) :
    (es : List Expr) → Expr.AllWithin S es → Expr.AllWithin S' es
  | [], _ => trivial
  | e :: es, h => ⟨Expr.Within.mono hS e h.1, Expr.AllWithin.mono hS es h.2⟩

theorem Field.AllWithin.mono {S' : Pos → Prop} (hS : ∀ q, S q → S' q) :
    (fs : List Field) → Field.AllWithin S fs → Field.AllWithin S' fs
  | [], _ => trivial
  | f :: fs, h => ⟨Field.Within.mono hS f h.1, Field.AllWithin.mono hS fs h.2⟩

end

mutual

theorem Stmt.Within.mono {S' : Pos → Prop} (hS : ∀ q, S q → S' q) :
    (s : Stmt) → s.Within S → s.Within S'
  | .expr e, h => Expr.Within.mono hS e h
  | .letDecl _ none _, h => hS _ h
  | .letDecl _ (some e) _, h => ⟨Expr.Within.mono hS e h.1, hS _ h.2⟩
  | .constDecl _ e _, h => ⟨Expr.Within.mono hS e h.1, hS _ h.2⟩
  | .funcDecl _ _ body _, h => ⟨Stmt.AllWithin.mono hS body h.1, hS _ h.2⟩
  | .ret none _, h => hS _ h
  | .ret (some e) _, h => ⟨Expr.Within.mono hS e h.1, hS _ h.2⟩
  | .ifElse c t none _, h =>
    ⟨Expr.Within.mono hS c h.1, Stmt.AllWithin.mono hS t h.2.1, hS _ h.2.2⟩
  | .ifElse c t (some b) _, h =>
    ⟨Expr.Within.mono hS c h.1, Stmt.AllWithin.mono hS t h.2.1, Stmt.AllWithin.mono hS b h.2.2.1,
      hS _ h.2.2.2⟩
  | .forIn _ it body _, h =>
    ⟨Expr.Within.mono hS it h.1, Stmt.AllWithin.mono hS body h.2.1, hS _ h.2.2⟩

theorem Stmt.AllWithin.mono {S' : Pos → Prop} (hS : ∀ q, S q → S' q) :
    (ss : List Stmt) → Stmt.AllWithin S ss → Stmt.AllWithin S' ss
  | [], _ => trivial
  | s :: ss, h => ⟨Stmt.Within.mono hS s h.1, Stmt.AllWithin.mono hS ss h.2⟩

end

theorem Expr.Within.pos {e : Expr} (h : e.Within S) : S e.pos :=
  match e, h with
  | .num _ _, h | .str _ _, h | .ident _ _, h => h
  | .binary _ _ _ _, h => h.2.2
  | .assign (.var _ _) _, h => h.1
  | .assign (.member _ _ _ _) _, h => h.1.2.2
  | .assign (.index _ _ _) _, h => h.1.2.2
  | .array _ _, h | .object _ _, h => h.2
  | .member _ _ _ _, h | .index _ _ _, h | .call _ _ _, h => h.2.2

theorem Target.within_of_toTarget? {e : Expr} {t : Target} (h : e.toTarget? = some t)
    (he : e.Within S) : t.Within S := by
  cases e <;> simp only [Expr.toTarget?, Option.some.injEq, reduceCtorEq] at h <;> subst h <;>
    exact he

end Within

def Error.At (S : Pos → Prop) (e : Error) : Prop := ∃ q, e.pos = some q ∧ S q

namespace Parser

variable {limit : Option Nat} {S : Pos → Prop}

/-! ### Token lists that end in an end of input -/

/-- Tokens at positions of `S`, the last of them an end of input. -/
def Ended (S : Pos → Prop) (ts : List Token) : Prop :=
  (∀ t ∈ ts, S t.pos) ∧ ∃ e, ts.getLast? = some e ∧ e.kind = .eof

section Ended

variable {ts rest : List Token} {t : Token}

theorem Ended.ne_nil (h : Ended S ts) : ts ≠ [] := by
  rintro rfl
  obtain ⟨-, e, he, -⟩ := h
  cases he

theorem Ended.head (h : Ended S (t :: rest)) : S t.pos := h.1 t List.mem_cons_self

theorem Ended.tail (h : Ended S (t :: rest)) (hk : t.kind ≠ .eof) : Ended S rest := by
  obtain ⟨hS, e, he, hke⟩ := h
  refine ⟨fun u hu => hS u (List.mem_cons_of_mem t hu), e, ?_, hke⟩
  cases rest with
  | nil =>
    simp only [List.getLast?_singleton, Option.some.injEq] at he
    subst he
    exact absurd hke hk
  | cons u rest => rwa [List.getLast?_cons_cons] at he

theorem Ended.tail_of_eq {k : TokenKind} (h : Ended S (t :: rest)) (hk : t.kind = k)
    (hne : k ≠ .eof) : Ended S rest :=
  h.tail (hk ▸ hne)

theorem Ended.current (h : Ended S ts) : S (current ts).pos := by
  cases ts with
  | nil => exact absurd rfl h.ne_nil
  | cons t rest => exact h.head

theorem Ended.failAt (h : Ended S ts) (f : Fault) : Error.At S (failAt ts f) :=
  ⟨_, rfl, h.current⟩

theorem Ended.enter_error {d : Nat} {e : Error} (h : Ended S ts)
    (he : enter limit d ts = .error e) : Error.At S e := by
  unfold enter at he
  split at he
  · split at he
    · cases he
      exact ⟨_, rfl, h.current⟩
    · cases he
  · cases he

theorem Ended.expect_error {k : TokenKind} {e : Error} (h : Ended S ts)
    (he : expect k ts = .error e) : Error.At S e := by
  unfold expect at he
  split at he
  · split at he
    · cases he
    · cases he
      exact h.failAt _
  · cases he
    exact h.failAt _

theorem Ended.of_expect {k : TokenKind} {r : List Token} {hr : r.length < ts.length}
    (h : Ended S ts) (hk : k ≠ .eof) (he : expect k ts = .ok (t, ⟨r, hr⟩)) :
    S t.pos ∧ Ended S r := by
  obtain ⟨rfl, hkt⟩ := expect_ok he
  exact ⟨h.head, h.tail_of_eq hkt hk⟩

theorem Ended.drop_one (h : Ended S ts) (hk : kindAt ts ≠ .eof) : Ended S (ts.drop 1) := by
  cases ts with
  | nil => exact absurd rfl h.ne_nil
  | cons t rest => exact h.tail hk

end Ended

/-! ### Parse steps -/

/-- A parse step whose value satisfies `V` and whose rest is still `Ended`, or which fails at
a position of `S`. -/
def Placed (S : Pos → Prop) {α : Type} {P : List Token → Prop} (V : α → Prop)
    (x : Except Error (α × Subtype P)) : Prop :=
  (∀ a r h, x = .ok (a, ⟨r, h⟩) → V a ∧ Ended S r) ∧
    ∀ e, x = .error e → Error.At S e

section Placed

variable {α : Type} {P : List Token → Prop} {V : α → Prop}

theorem Placed.ok {a : α} {r : List Token} {h : P r} (ha : V a) (hr : Ended S r) :
    Placed S V (.ok (a, ⟨r, h⟩) : Except Error (α × Subtype P)) := by
  refine ⟨fun _ _ _ heq => ?_, fun _ heq => by cases heq⟩
  cases heq
  exact ⟨ha, hr⟩

theorem Placed.error {e : Error} (he : Error.At S e) :
    Placed S V (.error e : Except Error (α × Subtype P)) := by
  refine ⟨fun _ _ _ heq => (by cases heq), fun _ heq => ?_⟩
  cases heq
  exact he

end Placed

theorem additiveOp_ne_eof {k : TokenKind} {op : BinOp} (h : additiveOp k = some op) :
    k ≠ .eof := by
  rintro rfl
  cases h

theorem multiplicativeOp_ne_eof {k : TokenKind} {op : BinOp} (h : multiplicativeOp k = some op) :
    k ≠ .eof := by
  rintro rfl
  cases h

-- Each lemma below mirrors one parsing function, as in `ParsedNames`: it takes the lemma of a
-- called function before splitting on its result, so that the failure of the call and the
-- success of the call are both at hand; a list matched on is split with `match` first.
mutual

theorem parseExpression_placed (d : Nat) (ts : List Token) (hN : Ended S ts) :
    Placed S (Expr.Within S) (parseExpression limit d ts) := by
  rw [parseExpression.eq_def]
  split
  · next e he => exact Placed.error (hN.enter_error he)
  · exact parseAssignment_placed _ ts hN
termination_by (ts.length, 15)
decreasing_by all_goals (apply lex_of_lt_or; omega)

theorem parseAssignment_placed (d : Nat) (ts : List Token) (hN : Ended S ts) :
    Placed S (Expr.Within S) (parseAssignment limit d ts) := by
  rw [parseAssignment.eq_def]
  have h₁ := parseOperand_placed d ts hN
  split
  · next e he => exact Placed.error (h₁.2 e he)
  · next lhs r₁ hr₁ hop =>
    obtain ⟨hl, hN₁⟩ := h₁.1 lhs r₁ hr₁ hop
    cases r₁ with
    | nil => exact absurd rfl hN₁.ne_nil
    | cons t rest =>
      have hlt : rest.length < ts.length := Nat.lt_of_succ_lt hr₁
      dsimp only
      split
      · next hk =>
        split
        · exact Placed.error (hN₁.failAt _)
        · next target ht =>
          have h₂ := parseExpression_placed d rest (hN₁.tail_of_eq hk (by decide))
          split
          · next e he => exact Placed.error (h₂.2 e he)
          · next v r₂ hr₂ hv =>
            obtain ⟨hv', hN₂⟩ := h₂.1 v r₂ hr₂ hv
            exact Placed.ok ⟨Target.within_of_toTarget? ht hl, hv'⟩ hN₂
      · exact Placed.ok hl hN₁
termination_by (ts.length, 14)
decreasing_by all_goals (apply lex_of_lt_or; omega)

theorem parseOperand_placed (d : Nat) (ts : List Token) (hN : Ended S ts) :
    Placed S (Expr.Within S) (parseOperand limit d ts) := by
  match ts, hN with
  | [], hN => exact absurd rfl hN.ne_nil
  | t :: rest, hN =>
    rw [parseOperand.eq_def]
    dsimp only
    split
    · next hk =>
      exact parseFields_placed d _ t.pos rest _ #[] trivial hN.head
        (hN.tail_of_eq hk (by decide))
    · exact parseAdditive_placed d _ hN
termination_by (ts.length, 13)
decreasing_by all_goals ((try simp only [List.length_cons]); apply lex_of_lt_or; omega)

theorem parseFields_placed (d : Nat) (ts : List Token) (bp : Pos) (r : List Token)
    (hr : r.length < ts.length) (acc : Array Field) (hacc : Field.AllWithin S acc.toList)
    (hbp : S bp) (hN : Ended S r) :
    Placed S (Expr.Within S) (parseFields limit d ts bp r hr acc) := by
  match r, hr, hN with
  | [], _, hN => exact absurd rfl hN.ne_nil
  | t :: rest, hr, hN =>
    rw [parseFields.eq_def]
    dsimp only
    split
    · next hk => exact Placed.ok ⟨hacc, hbp⟩ (hN.tail_of_eq hk (by decide))
    · split
      · next hk =>
        have hN₁ : Ended S rest := hN.tail (by rcases hk with hk | hk <;> rw [hk] <;> decide)
        match rest, hr, hN₁ with
        | [], _, hN₁ => exact absurd rfl hN₁.ne_nil
        | c :: rest', _, hN₁ =>
          dsimp only
          split
          · next hc =>
            have h₂ := parseExpression_placed d rest' (hN₁.tail_of_eq hc (by decide))
            split
            · next e he => exact Placed.error (h₂.2 e he)
            · next v r₂ hr₂ hv =>
              obtain ⟨hv', hN₂⟩ := h₂.1 v r₂ hr₂ hv
              exact parseFieldsNext_placed d ts bp r₂ _ _
                (Field.allWithin_push hacc ⟨hN.head, hv'⟩) hbp hN₂
          · split
            · exact Placed.error (hN₁.failAt _)
            · exact parseFieldsNext_placed d ts bp _ _ _
                (Field.allWithin_push hacc hN.head) hbp hN₁
      · exact Placed.error (hN.failAt _)
termination_by (r.length, 0)
decreasing_by all_goals ((try simp only [List.length_cons]); apply lex_of_lt_or; omega)

theorem parseFieldsNext_placed (d : Nat) (ts : List Token) (bp : Pos) (r : List Token)
    (hr : r.length < ts.length) (acc : Array Field) (hacc : Field.AllWithin S acc.toList)
    (hbp : S bp) (hN : Ended S r) :
    Placed S (Expr.Within S) (parseFieldsNext limit d ts bp r hr acc) := by
  match r, hr, hN with
  | [], _, hN => exact absurd rfl hN.ne_nil
  | t :: rest, hr, hN =>
    rw [parseFieldsNext.eq_def]
    dsimp only
    split
    · next hk =>
      exact parseFields_placed d ts bp rest _ acc hacc hbp (hN.tail_of_eq hk (by decide))
    · split
      · next e he => exact Placed.error (hN.expect_error he)
      · next hx => exact Placed.ok ⟨hacc, hbp⟩ (hN.of_expect (by decide) hx).2
termination_by (r.length, 0)
decreasing_by all_goals ((try simp only [List.length_cons]); apply lex_of_lt_or; omega)

theorem parseAdditive_placed (d : Nat) (ts : List Token) (hN : Ended S ts) :
    Placed S (Expr.Within S) (parseAdditive limit d ts) := by
  rw [parseAdditive.eq_def]
  have h₁ := parseMultiplicative_placed d ts hN
  split
  · next e he => exact Placed.error (h₁.2 e he)
  · next lhs r₁ hr₁ hl =>
    obtain ⟨hl', hN₁⟩ := h₁.1 lhs r₁ hr₁ hl
    exact additiveTail_placed d ts lhs r₁ hr₁ hl' hN₁
termination_by (ts.length, 12)
decreasing_by all_goals (apply lex_of_lt_or; omega)

theorem additiveTail_placed (d : Nat) (ts : List Token) (lhs : Expr) (r : List Token)
    (hr : r.length < ts.length) (hl : lhs.Within S) (hN : Ended S r) :
    Placed S (Expr.Within S) (additiveTail limit d ts lhs r hr) := by
  match r, hr, hN with
  | [], _, hN => exact absurd rfl hN.ne_nil
  | t :: rest, hr, hN =>
    rw [additiveTail.eq_def]
    dsimp only
    split
    · next op hop =>
      have h₂ := parseMultiplicative_placed d rest (hN.tail (additiveOp_ne_eof hop))
      split
      · next e he => exact Placed.error (h₂.2 e he)
      · next rhs r₂ hr₂ hrhs =>
        obtain ⟨hrhs', hN₂⟩ := h₂.1 rhs r₂ hr₂ hrhs
        exact additiveTail_placed d ts _ r₂ _ ⟨hl, hrhs', hN.head⟩ hN₂
    · exact Placed.ok hl hN
termination_by (r.length, 0)
decreasing_by all_goals ((try simp only [List.length_cons]); apply lex_of_lt_or; omega)

theorem parseMultiplicative_placed (d : Nat) (ts : List Token) (hN : Ended S ts) :
    Placed S (Expr.Within S) (parseMultiplicative limit d ts) := by
  rw [parseMultiplicative.eq_def]
  have h₁ := parsePostfix_placed d ts hN
  split
  · next e he => exact Placed.error (h₁.2 e he)
  · next lhs r₁ hr₁ hl =>
    obtain ⟨hl', hN₁⟩ := h₁.1 lhs r₁ hr₁ hl
    exact multiplicativeTail_placed d ts lhs r₁ hr₁ hl' hN₁
termination_by (ts.length, 11)
decreasing_by all_goals (apply lex_of_lt_or; omega)

theorem multiplicativeTail_placed (d : Nat) (ts : List Token) (lhs : Expr) (r : List Token)
    (hr : r.length < ts.length) (hl : lhs.Within S) (hN : Ended S r) :
    Placed S (Expr.Within S) (multiplicativeTail limit d ts lhs r hr) := by
  match r, hr, hN with
  | [], _, hN => exact absurd rfl hN.ne_nil
  | t :: rest, hr, hN =>
    rw [multiplicativeTail.eq_def]
    dsimp only
    split
    · next op hop =>
      have h₂ := parsePostfix_placed d rest (hN.tail (multiplicativeOp_ne_eof hop))
      split
      · next e he => exact Placed.error (h₂.2 e he)
      · next rhs r₂ hr₂ hrhs =>
        obtain ⟨hrhs', hN₂⟩ := h₂.1 rhs r₂ hr₂ hrhs
        exact multiplicativeTail_placed d ts _ r₂ _ ⟨hl, hrhs', hN.head⟩ hN₂
    · exact Placed.ok hl hN
termination_by (r.length, 0)
decreasing_by all_goals ((try simp only [List.length_cons]); apply lex_of_lt_or; omega)

theorem parsePostfix_placed (d : Nat) (ts : List Token) (hN : Ended S ts) :
    Placed S (Expr.Within S) (parsePostfix limit d ts) := by
  rw [parsePostfix.eq_def]
  have h₁ := parsePrimary_placed d ts hN
  split
  · next e he => exact Placed.error (h₁.2 e he)
  · next a r₁ hr₁ ha =>
    obtain ⟨ha', hN₁⟩ := h₁.1 a r₁ hr₁ ha
    exact postfixTail_placed d ts a r₁ hr₁ ha' hN₁
termination_by (ts.length, 10)
decreasing_by all_goals (apply lex_of_lt_or; omega)

theorem postfixTail_placed (d : Nat) (ts : List Token) (a : Expr) (r : List Token)
    (hr : r.length < ts.length) (ha : a.Within S) (hN : Ended S r) :
    Placed S (Expr.Within S) (postfixTail limit d ts a r hr) := by
  match r, hr, hN with
  | [], _, hN => exact absurd rfl hN.ne_nil
  | t :: rest, hr, hN =>
    rw [postfixTail.eq_def]
    dsimp only
    split
    · -- a member `.name`
      next hk =>
      have hN₁ := hN.tail_of_eq hk (by decide)
      split
      · next e he => exact Placed.error (hN₁.expect_error he)
      · next name r₂ hr₂ hname =>
        obtain ⟨hn, hN₂⟩ := hN₁.of_expect (by decide) hname
        exact postfixTail_placed d ts _ r₂ _ ⟨ha, hn, hN.head⟩ hN₂
    · split
      · -- an index `[key]`
        next hk =>
        have h₂ := parseExpression_placed d rest (hN.tail_of_eq hk (by decide))
        split
        · next e he => exact Placed.error (h₂.2 e he)
        · next key r₂ hr₂ hkey =>
          obtain ⟨hkey', hN₂⟩ := h₂.1 key r₂ hr₂ hkey
          split
          · next e he => exact Placed.error (hN₂.expect_error he)
          · next r₃ hr₃ hclose =>
            exact postfixTail_placed d ts _ r₃ _ ⟨ha, hkey', hN.head⟩
              (hN₂.of_expect (by decide) hclose).2
      · split
        · -- a call `(args)`
          next hk =>
          have h₂ := parseArgs_placed d .rparen (by decide) rest rest (Nat.le_refl _) #[] trivial
            (hN.tail_of_eq hk (by decide))
          split
          · next e he => exact Placed.error (h₂.2 e he)
          · next args r₂ hr₂ hargs =>
            obtain ⟨hargs', hN₂⟩ := h₂.1 args r₂ hr₂ hargs
            exact postfixTail_placed d ts _ r₂ _ ⟨ha, hargs', hN.head⟩ hN₂
        · exact Placed.ok ha hN
termination_by (r.length, 0)
decreasing_by all_goals ((try simp only [List.length_cons]); apply lex_of_lt_or; omega)

theorem parseArgs_placed (d : Nat) (closer : TokenKind) (hc : closer ≠ .eof) (ts r : List Token)
    (hr : r.length ≤ ts.length) (acc : Array Expr) (hacc : Expr.AllWithin S acc.toList)
    (hN : Ended S r) :
    Placed S (Expr.AllWithin S) (parseArgs limit d closer ts r hr acc) := by
  rw [parseArgs.eq_def]
  split
  · split
    · next e he => exact Placed.error (hN.expect_error he)
    · next hclose => exact Placed.ok hacc (hN.of_expect hc hclose).2
  · have h₁ := parseExpression_placed d r hN
    split
    · next e he => exact Placed.error (h₁.2 e he)
    · next arg r₁ hr₁ harg =>
      obtain ⟨harg', hN₁⟩ := h₁.1 arg r₁ hr₁ harg
      have hpush := Expr.allWithin_push hacc harg'
      cases r₁ with
      | nil => exact absurd rfl hN₁.ne_nil
      | cons t rest =>
        have hlt : rest.length < r.length := Nat.lt_of_succ_lt hr₁
        dsimp only
        split
        · next hk =>
          exact parseArgs_placed d closer hc ts rest _ _ hpush (hN₁.tail_of_eq hk (by decide))
        · split
          · next e he => exact Placed.error (hN₁.expect_error he)
          · next hclose => exact Placed.ok hpush (hN₁.of_expect hc hclose).2
termination_by (r.length, 16)
decreasing_by all_goals (apply lex_of_lt_or; omega)

theorem parsePrimary_placed (d : Nat) (ts : List Token) (hN : Ended S ts) :
    Placed S (Expr.Within S) (parsePrimary limit d ts) := by
  match ts, hN with
  | [], hN => exact absurd rfl hN.ne_nil
  | t :: rest, hN =>
    rw [parsePrimary.eq_def]
    dsimp only
    split
    · next hk => exact Placed.ok hN.head (hN.tail_of_eq hk (by decide))
    · next hk => exact Placed.ok hN.head (hN.tail_of_eq hk (by decide))
    · next hk => exact Placed.ok hN.head (hN.tail_of_eq hk (by decide))
    · next hk =>
      have h₁ := parseExpression_placed d rest (hN.tail_of_eq hk (by decide))
      split
      · next e he => exact Placed.error (h₁.2 e he)
      · next a r₁ hr₁ ha =>
        obtain ⟨ha', hN₁⟩ := h₁.1 a r₁ hr₁ ha
        split
        · next e he => exact Placed.error (hN₁.expect_error he)
        · next hclose => exact Placed.ok ha' (hN₁.of_expect (by decide) hclose).2
    · next hk =>
      have h₁ := parseArgs_placed d .rbracket (by decide) rest rest (Nat.le_refl _) #[] trivial
        (hN.tail_of_eq hk (by decide))
      split
      · next e he => exact Placed.error (h₁.2 e he)
      · next es r₁ hr₁ hes =>
        obtain ⟨hes', hN₁⟩ := h₁.1 es r₁ hr₁ hes
        exact Placed.ok ⟨hes', hN.head⟩ hN₁
    · exact Placed.error (hN.failAt _)
termination_by (ts.length, 9)
decreasing_by all_goals ((try simp only [List.length_cons]); apply lex_of_lt_or; omega)

end

/-! ### Statements -/

theorem parseParams_placed (ts : List Token) (acc : Array String) (hN : Ended S ts) :
    Placed S (fun _ => True) (parseParams ts acc) := by
  rw [parseParams.eq_def]
  split
  · exact Placed.ok trivial hN
  · split
    · next e he => exact Placed.error (hN.expect_error he)
    · next name r hr hname =>
      have hN₁ := (hN.of_expect (by decide) hname).2
      cases r with
      | nil => exact absurd rfl hN₁.ne_nil
      | cons t rest =>
        have hlt : rest.length < ts.length := Nat.lt_of_succ_lt hr
        dsimp only
        split
        · next hk =>
          have h₂ :=
            parseParams_placed rest (acc.push name.lexeme) (hN₁.tail_of_eq hk (by decide))
          split
          · next e he => exact Placed.error (h₂.2 e he)
          · next ps r' hr' hps => exact Placed.ok trivial (h₂.1 ps r' hr' hps).2
        · exact Placed.ok trivial hN₁
termination_by ts.length

theorem parseExprStmt_placed (d : Nat) (ts : List Token) (hN : Ended S ts) :
    Placed S (Stmt.Within S) (parseExprStmt limit d ts) := by
  rw [parseExprStmt.eq_def]
  have h₁ : Placed S (Expr.Within S) (parseExpression limit d ts) :=
    parseExpression_placed d ts hN
  split
  · next e he => exact Placed.error (h₁.2 e he)
  · next e r₁ hr₁ he =>
    obtain ⟨he', hN₁⟩ := h₁.1 e r₁ hr₁ he
    cases r₁ with
    | nil => exact absurd rfl hN₁.ne_nil
    | cons t rest =>
      dsimp only
      split
      · next hk => exact Placed.ok he' (hN₁.tail_of_eq hk (by decide))
      · exact Placed.ok he' hN₁

theorem parseVarTail_placed (d : Nat) (ts : List Token) (start : Pos) (isConst : Bool)
    (r : List Token) (hr : r.length < ts.length) (hstart : S start) (hN : Ended S r) :
    Placed S (Stmt.Within S) (parseVarTail limit d ts start isConst r hr) := by
  rw [parseVarTail.eq_def]
  split
  · next e he => exact Placed.error (hN.expect_error he)
  · next name r₁ h₁ hname =>
    have hN₁ := (hN.of_expect (by decide) hname).2
    cases r₁ with
    | nil => exact absurd rfl hN₁.ne_nil
    | cons t rest =>
      dsimp only
      split
      · next hk =>
        have h₂ : Placed S (Expr.Within S) (parseExpression limit d rest) :=
          parseExpression_placed d rest (hN₁.tail_of_eq hk (by decide))
        split
        · next e he => exact Placed.error (h₂.2 e he)
        · next e r₂ hr₂ he =>
          obtain ⟨he', hN₂⟩ := h₂.1 e r₂ hr₂ he
          split
          · next e he => exact Placed.error (hN₂.expect_error he)
          · next hsemi =>
            refine Placed.ok ?_ (hN₂.of_expect (by decide) hsemi).2
            cases isConst <;> exact ⟨he', hstart⟩
      · split
        · exact Placed.error (hN₁.failAt _)
        · split
          · next e he => exact Placed.error (hN₁.expect_error he)
          · next hsemi => exact Placed.ok hstart (hN₁.of_expect (by decide) hsemi).2

theorem parseRet_placed (d : Nat) (ts : List Token) (start : Pos) (r : List Token)
    (hr : r.length < ts.length) (hstart : S start) (hN : Ended S r) :
    Placed S (Stmt.Within S) (parseRet limit d ts start r hr) := by
  rw [parseRet.eq_def]
  split
  · split
    · next e he => exact Placed.error (hN.expect_error he)
    · next hsemi => exact Placed.ok hstart (hN.of_expect (by decide) hsemi).2
  · have h₁ : Placed S (Expr.Within S) (parseExpression limit d r) :=
      parseExpression_placed d r hN
    split
    · next e he => exact Placed.error (h₁.2 e he)
    · next e r₁ hr₁ he =>
      obtain ⟨he', hN₁⟩ := h₁.1 e r₁ hr₁ he
      split
      · next e he => exact Placed.error (hN₁.expect_error he)
      · next hsemi => exact Placed.ok ⟨he', hstart⟩ (hN₁.of_expect (by decide) hsemi).2

mutual

theorem parseStatement_placed (d : Nat) (ts : List Token) (hN : Ended S ts) :
    Placed S (Stmt.Within S) (parseStatement limit d ts) := by
  match ts, hN with
  | [], hN => exact absurd rfl hN.ne_nil
  | t :: rest, hN =>
    rw [parseStatement.eq_def]
    dsimp only
    split
    · -- `let`, with or without `mut`
      next hk =>
      have hN₁ := hN.tail_of_eq hk (by decide)
      cases rest with
      | nil => exact absurd rfl hN₁.ne_nil
      | cons m rest' =>
        dsimp only
        split
        · next hm =>
          exact parseVarTail_placed d _ _ _ rest' _ hN.head (hN₁.tail_of_eq hm (by decide))
        · exact parseVarTail_placed d _ _ _ _ _ hN.head hN₁
    · next hk => exact parseVarTail_placed d _ _ true rest _ hN.head (hN.tail_of_eq hk (by decide))
    · next hk => exact parseFunc_placed d _ _ rest _ hN.head (hN.tail_of_eq hk (by decide))
    · next hk => exact parseRet_placed d _ _ rest _ hN.head (hN.tail_of_eq hk (by decide))
    · exact parseIf_placed d _ hN
    · next hk => exact parseFor_placed d _ _ rest _ hN.head (hN.tail_of_eq hk (by decide))
    · exact parseExprStmt_placed d _ hN
termination_by (ts.length, 20)
decreasing_by all_goals ((try simp only [List.length_cons]); apply lex_of_lt_or; omega)

theorem parseFunc_placed (d : Nat) (ts : List Token) (start : Pos) (r : List Token)
    (hr : r.length < ts.length) (hstart : S start) (hN : Ended S r) :
    Placed S (Stmt.Within S) (parseFunc limit d ts start r hr) := by
  rw [parseFunc.eq_def]
  split
  · next e he => exact Placed.error (hN.expect_error he)
  · next name r₁ h₁ hname =>
    have hN₁ := (hN.of_expect (by decide) hname).2
    split
    · next e he => exact Placed.error (hN₁.expect_error he)
    · next r₂ h₂ hl =>
      have h₃ := parseParams_placed r₂ #[] (hN₁.of_expect (by decide) hl).2
      split
      · next e he => exact Placed.error (h₃.2 e he)
      · next ps r₃ hr₃ hps =>
        have hN₃ := (h₃.1 ps r₃ hr₃ hps).2
        split
        · next e he => exact Placed.error (hN₃.expect_error he)
        · next r₄ h₄ hrp =>
          have h₅ := parseBlock_placed d r₄ (hN₃.of_expect (by decide) hrp).2
          split
          · next e he => exact Placed.error (h₅.2 e he)
          · next body r₅ hr₅ hbody =>
            obtain ⟨hbody', hN₅⟩ := h₅.1 body r₅ hr₅ hbody
            exact Placed.ok ⟨hbody', hstart⟩ hN₅
termination_by (r.length, 0)
decreasing_by all_goals (apply lex_of_lt_or; omega)

theorem parseIf_placed (d : Nat) (ts : List Token) (hN : Ended S ts) :
    Placed S (Stmt.Within S) (parseIf limit d ts) := by
  rw [parseIf.eq_def]
  split
  · next e he => exact Placed.error (hN.expect_error he)
  · next ifTok r₁ h₁ hif =>
    obtain ⟨hp, hN₁⟩ := hN.of_expect (by decide) hif
    have h₂ : Placed S (Expr.Within S) (parseExpression limit d r₁) :=
      parseExpression_placed d r₁ hN₁
    split
    · next e he => exact Placed.error (h₂.2 e he)
    · next c r₂ hr₂ hc =>
      obtain ⟨hc', hN₂⟩ := h₂.1 c r₂ hr₂ hc
      have h₃ := parseBlock_placed d r₂ hN₂
      split
      · next e he => exact Placed.error (h₃.2 e he)
      · next th r₃ hr₃ hth =>
        obtain ⟨hth', hN₃⟩ := h₃.1 th r₃ hr₃ hth
        cases r₃ with
        | nil => exact absurd rfl hN₃.ne_nil
        | cons t rest =>
          have hlt : rest.length < r₂.length := Nat.lt_of_succ_lt hr₃
          dsimp only
          split
          · next hk =>
            have hN₄ := hN₃.tail_of_eq hk (by decide)
            split
            · -- `else if`: one level deeper
              split
              · next e he => exact Placed.error (hN₄.enter_error he)
              · next d' _ =>
                have h₄ := parseIf_placed d' rest hN₄
                split
                · next e he => exact Placed.error (h₄.2 e he)
                · next nested r₄ hr₄ hn =>
                  obtain ⟨hn', hN₅⟩ := h₄.1 nested r₄ hr₄ hn
                  exact Placed.ok ⟨hc', hth', ⟨hn', trivial⟩, hp⟩ hN₅
            · have h₄ := parseBlock_placed d rest hN₄
              split
              · next e he => exact Placed.error (h₄.2 e he)
              · next eb r₄ hr₄ heb =>
                obtain ⟨heb', hN₅⟩ := h₄.1 eb r₄ hr₄ heb
                exact Placed.ok ⟨hc', hth', heb', hp⟩ hN₅
          · exact Placed.ok ⟨hc', hth', hp⟩ hN₃
termination_by (ts.length, 19)
decreasing_by all_goals (apply lex_of_lt_or; omega)

theorem parseFor_placed (d : Nat) (ts : List Token) (start : Pos) (r : List Token)
    (hr : r.length < ts.length) (hstart : S start) (hN : Ended S r) :
    Placed S (Stmt.Within S) (parseFor limit d ts start r hr) := by
  rw [parseFor.eq_def]
  dsimp only
  have hN₀ : Ended S (if kindAt r = .lparen then r.drop 1 else r) := by
    split
    · next hk => exact hN.drop_one (by rw [hk]; decide)
    · exact hN
  have h₀ : (if kindAt r = .lparen then r.drop 1 else r).length ≤ r.length := by
    split <;> simp
  split
  · next e he => exact Placed.error (hN₀.expect_error he)
  · next name r₁ h₁ hname =>
    have hN₁ := (hN₀.of_expect (by decide) hname).2
    split
    · next e he => exact Placed.error (hN₁.expect_error he)
    · next r₂ h₂ hin =>
      have h₃ : Placed S (Expr.Within S) (parseExpression limit d r₂) :=
        parseExpression_placed d r₂ (hN₁.of_expect (by decide) hin).2
      split
      · next e he => exact Placed.error (h₃.2 e he)
      · next it r₃ hr₃ hit =>
        obtain ⟨hit', hN₃⟩ := h₃.1 it r₃ hr₃ hit
        split
        · -- with parentheses, and no `)` after the iterable
          next e hcl =>
          split at hcl
          · split at hcl
            · next e' he' =>
              cases hcl
              exact Placed.error (hN₃.expect_error he')
            · cases hcl
          · cases hcl
        · next r₄ h₄ hcl =>
          have hN₄ : Ended S r₄ := by
            split at hcl
            · split at hcl
              · cases hcl
              · next hx =>
                cases hcl
                exact (hN₃.of_expect (by decide) hx).2
            · cases hcl
          have h₅ := parseBlock_placed d r₄ hN₄
          split
          · next e he => exact Placed.error (h₅.2 e he)
          · next body r₅ hr₅ hbody =>
            obtain ⟨hbody', hN₅⟩ := h₅.1 body r₅ hr₅ hbody
            exact Placed.ok ⟨hit', hbody', hstart⟩ hN₅
        · have h₅ := parseBlock_placed d r₃ hN₃
          split
          · next e he => exact Placed.error (h₅.2 e he)
          · next body r₅ hr₅ hbody =>
            obtain ⟨hbody', hN₅⟩ := h₅.1 body r₅ hr₅ hbody
            exact Placed.ok ⟨hit', hbody', hstart⟩ hN₅
termination_by (r.length, 0)
decreasing_by all_goals (apply lex_of_lt_or; omega)

theorem parseBlock_placed (d : Nat) (ts : List Token) (hN : Ended S ts) :
    Placed S (Stmt.AllWithin S) (parseBlock limit d ts) := by
  rw [parseBlock.eq_def]
  split
  · next e he => exact Placed.error (hN.expect_error he)
  · next r₁ h₁ hl =>
    have hN₁ := (hN.of_expect (by decide) hl).2
    split
    · next e he => exact Placed.error (hN₁.enter_error he)
    · next d' _ => exact parseBlockBody_placed d' ts r₁ h₁ #[] trivial hN₁
termination_by (ts.length, 0)
decreasing_by all_goals (apply lex_of_lt_or; omega)

theorem parseBlockBody_placed (d : Nat) (ts r : List Token) (hr : r.length < ts.length)
    (acc : Array Stmt) (hacc : Stmt.AllWithin S acc.toList) (hN : Ended S r) :
    Placed S (Stmt.AllWithin S) (parseBlockBody limit d ts r hr acc) := by
  match r, hr, hN with
  | [], _, hN => exact absurd rfl hN.ne_nil
  | t :: rest, hr, hN =>
    rw [parseBlockBody.eq_def]
    dsimp only
    split
    · next hk => exact Placed.ok hacc (hN.tail_of_eq hk (by decide))
    · split
      · exact Placed.error (hN.failAt _)
      · split
        · next hk =>
          exact parseBlockBody_placed d ts rest _ acc hacc (hN.tail_of_eq hk (by decide))
        · have h₁ := parseStatement_placed d (t :: rest) hN
          split
          · next e he => exact Placed.error (h₁.2 e he)
          · next s r₁ hr₁ hs =>
            obtain ⟨hs', hN₁⟩ := h₁.1 s r₁ hr₁ hs
            have hlt : r₁.length < rest.length + 1 := hr₁
            exact
              parseBlockBody_placed d ts r₁ _ (acc.push s) (Stmt.allWithin_push hacc hs') hN₁
termination_by (r.length, 21)
decreasing_by all_goals ((try simp only [List.length_cons]); apply lex_of_lt_or; omega)

end

/-! ### Programs -/

theorem parseProgramFrom_placed (ts : List Token) (acc : Array Stmt) :
    Ended S ts → Stmt.AllWithin S acc.toList →
    (∀ p, parseProgramFrom limit ts acc = .ok p → Stmt.AllWithin S p) ∧
    ∀ e, parseProgramFrom limit ts acc = .error e → Error.At S e := by
  fun_induction parseProgramFrom limit ts acc with
  | case1 acc t tail hk =>
    intro _ hacc
    exact ⟨fun p h => (by cases h; exact hacc), fun e h => (by cases h)⟩
  | case2 acc t tail hk hsemi ih =>
    intro hN hacc
    exact ih (hN.tail_of_eq hsemi (by decide)) hacc
  | case3 acc t tail hk hsemi e he =>
    intro hN _
    refine ⟨fun p h => (by cases h), fun e' h => ?_⟩
    cases h
    exact (parseStatement_placed 0 (t :: tail) hN).2 e he
  | case4 acc t tail hk hsemi s r' hr' hs ih =>
    intro hN hacc
    obtain ⟨hs', hN'⟩ := (parseStatement_placed 0 (t :: tail) hN).1 s r' hr' hs
    exact ih hN' (Stmt.allWithin_push hacc hs')
  | case5 acc =>
    intro _ hacc
    exact ⟨fun p h => (by cases h; exact hacc), fun e h => (by cases h)⟩

theorem closeTokens_of_ended {ts : List Token} (h : Ended S ts) : closeTokens ts = ts := by
  obtain ⟨-, e, he, hk⟩ := h
  unfold closeTokens
  rw [he]
  simp [hk]

theorem parseTokensWith_placed (limit : Option Nat) {ts : List Token} (hN : Ended S ts) :
    (∀ p, parseTokensWith limit ts = .ok p → Stmt.AllWithin S p) ∧
    ∀ e, parseTokensWith limit ts = .error e → Error.At S e := by
  unfold parseTokensWith
  rw [closeTokens_of_ended hN]
  exact parseProgramFrom_placed ts #[] hN trivial

end Parser

/-! ### Texts -/

namespace Lexer

/-- The positions of the tokens of a text that lexes. -/
def TokenAt (src : String) (q : Pos) : Prop :=
  ∃ ts, tokenize src = .ok ts ∧ ∃ t ∈ ts, t.pos = q

theorem ended_tokenize {src : String} {ts : List Token} (h : tokenize src = .ok ts) :
    Parser.Ended (TokenAt src) ts := by
  refine ⟨fun t ht => ⟨ts, h, t, ht, rfl⟩, ?_⟩
  rw [tokenize_eq] at h
  obtain ⟨A, rfl, -⟩ := tokenizeRunes_ends h
  exact ⟨_, List.getLast?_concat, rfl⟩

theorem TokenAt.one_le_line {src : String} {q : Pos} (h : TokenAt src q) : 1 ≤ q.line := by
  obtain ⟨ts, hts, t, ht, rfl⟩ := h
  exact one_le_line_of_tokenize hts t ht

/-- A program read from a text lies within the positions of the text's tokens, and a failure
to read one is at one of those tokens or, when the text does not lex, at the quote or `/*`
that it never closes. -/
theorem parse_placed (src : String) :
    (∀ p, Parser.parse src = .ok p → Stmt.AllWithin (TokenAt src) p) ∧
    ∀ e, Parser.parse src = .error e → e.At (TokenAt src) ∨
      ∃ pre rest, src.toList = pre ++ rest ∧ e.pos = some (Pos.ofPrefix pre) ∧
        e.fault.OpensAt rest := by
  unfold Parser.parse
  cases hts : tokenize src with
  | error e =>
    refine ⟨fun p h => (by cases h), fun e' h => ?_⟩
    cases h
    exact .inr (tokenize_error_opens hts)
  | ok ts =>
    have h := Parser.parseTokensWith_placed (some Parser.maxNesting) (ended_tokenize hts)
    exact ⟨h.1, fun e he => .inl (h.2 e he)⟩

end Lexer

end Treewalk
