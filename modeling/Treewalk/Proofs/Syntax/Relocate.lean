import Mathlib
import Treewalk.Proofs.Syntax.ParseSteps
/-!
# Moving every position

The parser decides on the kinds and lexemes of tokens alone, and copies their positions into
the trees it builds and the errors it reports. So moving every token's position by a map `g`
moves every position of the result by `g`: the same tree, or the same error, at the moved
places. The one position the parser makes up, that of the end of an empty token list, has to
stay where it is.
-/
namespace Treewalk

def Token.mapPos (g : Pos → Pos) (t : Token) : Token := { t with pos := g t.pos }

def Error.mapPos (g : Pos → Pos) (e : Error) : Error := { e with pos := e.pos.map g }

@[simp] theorem Token.kind_mapPos (g : Pos → Pos) (t : Token) : (t.mapPos g).kind = t.kind := rfl

@[simp] theorem Token.lexeme_mapPos (g : Pos → Pos) (t : Token) :
    (t.mapPos g).lexeme = t.lexeme := rfl

@[simp] theorem Token.pos_mapPos (g : Pos → Pos) (t : Token) : (t.mapPos g).pos = g t.pos := rfl

mutual

def Expr.mapPos (g : Pos → Pos) : Expr → Expr
  | .num n p => .num n (g p)
  | .str s p => .str s (g p)
  | .ident x p => .ident x (g p)
  | .binary op l r p => .binary op (l.mapPos g) (r.mapPos g) (g p)
  | .assign t v => .assign (t.mapPos g) (v.mapPos g)
  | .array es p => .array (Expr.mapPosList g es) (g p)
  | .object fs p => .object (Field.mapPosList g fs) (g p)
  | .member o x np p => .member (o.mapPos g) x (g np) (g p)
  | .index o k p => .index (o.mapPos g) (k.mapPos g) (g p)
  | .call f as p => .call (f.mapPos g) (Expr.mapPosList g as) (g p)

def Target.mapPos (g : Pos → Pos) : Target → Target
  | .var x p => .var x (g p)
  | .member o x np p => .member (o.mapPos g) x (g np) (g p)
  | .index o k p => .index (o.mapPos g) (k.mapPos g) (g p)

def Field.mapPos (g : Pos → Pos) : Field → Field
  | .keyed k p v => .keyed k (g p) (v.mapPos g)
  | .shorthand k p => .shorthand k (g p)

def Expr.mapPosList (g : Pos → Pos) : List Expr → List Expr
  | [] => []
  | e :: es => e.mapPos g :: Expr.mapPosList g es

def Field.mapPosList (g : Pos → Pos) : List Field → List Field
  | [] => []
  | f :: fs => f.mapPos g :: Field.mapPosList g fs

end

mutual

def Stmt.mapPos (g : Pos → Pos) : Stmt → Stmt
  | .expr e => .expr (e.mapPos g)
  | .letDecl x none p => .letDecl x none (g p)
  | .letDecl x (some e) p => .letDecl x (some (e.mapPos g)) (g p)
  | .constDecl x e p => .constDecl x (e.mapPos g) (g p)
  | .funcDecl f ps body p => .funcDecl f ps (Stmt.mapPosList g body) (g p)
  | .ret none p => .ret none (g p)
  | .ret (some e) p => .ret (some (e.mapPos g)) (g p)
  | .ifElse c t none p => .ifElse (c.mapPos g) (Stmt.mapPosList g t) none (g p)
  | .ifElse c t (some b) p =>
    .ifElse (c.mapPos g) (Stmt.mapPosList g t) (some (Stmt.mapPosList g b)) (g p)
  | .forIn x it body p => .forIn x (it.mapPos g) (Stmt.mapPosList g body) (g p)

def Stmt.mapPosList (g : Pos → Pos) : List Stmt → List Stmt
  | [] => []
  | s :: ss => s.mapPos g :: Stmt.mapPosList g ss

end

@[simp] theorem Expr.mapPosList_eq_map (g : Pos → Pos) (es : List Expr) :
    Expr.mapPosList g es = es.map (Expr.mapPos g) := by
  induction es with
  | nil => rfl
  | cons e es ih => simp [Expr.mapPosList, ih]

@[simp] theorem Field.mapPosList_eq_map (g : Pos → Pos) (fs : List Field) :
    Field.mapPosList g fs = fs.map (Field.mapPos g) := by
  induction fs with
  | nil => rfl
  | cons f fs ih => simp [Field.mapPosList, ih]

@[simp] theorem Stmt.mapPosList_eq_map (g : Pos → Pos) (ss : List Stmt) :
    Stmt.mapPosList g ss = ss.map (Stmt.mapPos g) := by
  induction ss with
  | nil => rfl
  | cons s ss ih => simp [Stmt.mapPosList, ih]

theorem Expr.toTarget?_mapPos (g : Pos → Pos) (e : Expr) :
    (e.mapPos g).toTarget? = e.toTarget?.map (Target.mapPos g) := by
  cases e <;> rfl

namespace Parser

variable {α β : Type} {P Q : List Token → Prop} (g : Pos → Pos)

/-- The outcome of a parse step with every position moved by `g`: the value through `F`, the
rest of the tokens moved, the error moved. -/
def mapOutcome (F : α → β) (hPQ : ∀ r, P r → Q (r.map (Token.mapPos g))) :
    Except Error (α × Subtype P) → Except Error (β × Subtype Q)
  | .ok (a, ⟨r, h⟩) => .ok (F a, ⟨r.map (Token.mapPos g), hPQ r h⟩)
  | .error e => .error (e.mapPos g)

abbrev mapParsed {ts : List Token} (F : α → β) :
    Parsed ts α → Parsed (ts.map (Token.mapPos g)) β :=
  mapOutcome g F fun _ h => by simpa using h

@[simp] theorem mapParsed_ok {ts : List Token} (F : α → β) (a : α) (r : List Token)
    (h : r.length < ts.length) :
    mapParsed g F (.ok (a, ⟨r, h⟩) : Parsed ts α) =
      .ok (F a, ⟨r.map (Token.mapPos g), by simpa using h⟩) := rfl

@[simp] theorem mapParsed_error {ts : List Token} (F : α → β) (e : Error) :
    mapParsed g F (.error e : Parsed ts α) = .error (e.mapPos g) := rfl

variable {g} (hg : g (current []).pos = (current []).pos)
include hg

theorem current_map (ts : List Token) :
    current (ts.map (Token.mapPos g)) = (current ts).mapPos g := by
  cases ts with
  | nil => simp only [List.map_nil, Token.mapPos, hg]
  | cons t ts => rfl

theorem failAt_map (ts : List Token) (f : Fault) :
    failAt (ts.map (Token.mapPos g)) f = (failAt ts f).mapPos g := by
  simp only [failAt, current_map hg, Token.pos_mapPos, Token.kind_mapPos, Error.mapPos,
    Option.map_some]

theorem enter_map (limit : Option Nat) (d : Nat) (ts : List Token) :
    enter limit d (ts.map (Token.mapPos g)) =
      match enter limit d ts with
      | .ok n => .ok n
      | .error e => .error (e.mapPos g) := by
  unfold enter
  split
  · split <;> simp [current_map hg, Error.mapPos]
  · rfl

theorem expect_map (k : TokenKind) (ts : List Token) :
    expect k (ts.map (Token.mapPos g)) = mapParsed g (Token.mapPos g) (expect k ts) := by
  cases ts with
  | nil => exact congrArg Except.error (failAt_map hg [] _)
  | cons t ts =>
    dsimp only [List.map, expect]
    by_cases hk : t.kind = k
    · simp only [Token.kind_mapPos, hk, ↓reduceIte]
      rfl
    · simp only [Token.kind_mapPos, hk, ↓reduceIte]
      exact congrArg Except.error (failAt_map hg (t :: ts) _)

theorem expect_map_cons (k : TokenKind) (t : Token) (ts : List Token) :
    expect k (t.mapPos g :: ts.map (Token.mapPos g)) =
      mapParsed g (Token.mapPos g) (expect k (t :: ts)) :=
  expect_map hg k (t :: ts)

theorem expect_map_of_eq {k : TokenKind} {X Y : List Token} (hX : X = Y.map (Token.mapPos g)) :
    (∀ e, expect k Y = .error e → expect k X = .error (e.mapPos g)) ∧
      ∀ t r h, expect k Y = .ok (t, ⟨r, h⟩) →
        ∃ h', expect k X = .ok (t.mapPos g, ⟨r.map (Token.mapPos g), h'⟩) := by
  subst hX
  refine ⟨fun e he => ?_, fun t r h he => ?_⟩
  · rw [expect_map hg, he]
    rfl
  · rw [expect_map hg, he]
    exact ⟨_, rfl⟩

theorem kindAt_map (ts : List Token) : kindAt (ts.map (Token.mapPos g)) = kindAt ts := by
  simp only [kindAt, current_map hg, Token.kind_mapPos]

theorem failAt_mapParsed {ts : List Token} {F : α → β} (ts' : List Token) (f : Fault) :
    (Except.error (failAt (ts'.map (Token.mapPos g)) f) : Parsed (ts.map (Token.mapPos g)) β) =
      mapParsed g F (Except.error (failAt ts' f)) :=
  congrArg Except.error (failAt_map hg ts' f)

section Expressions

variable (limit : Option Nat)

-- every lemma of the mutual blocks takes `hg`, some only to pass it on to the others
set_option linter.unusedSectionVars false

/-! Every expression parser commutes with moving positions: parsing the moved tokens gives the
moved result. The induction follows the parser's own recursion and measures. -/

mutual

theorem parseExpression_map (d : Nat) (ts : List Token) :
    parseExpression limit d (ts.map (Token.mapPos g)) =
      mapParsed g (Expr.mapPos g) (parseExpression limit d ts) := by
  rw [parseExpression.eq_def, parseExpression.eq_def, enter_map hg]
  cases enter limit d ts with
  | error e => rfl
  | ok d' => exact parseAssignment_map d' ts
termination_by (ts.length, 15)
decreasing_by all_goals (apply lex_of_lt_or; omega)

theorem parseAssignment_map (d : Nat) (ts : List Token) :
    parseAssignment limit d (ts.map (Token.mapPos g)) =
      mapParsed g (Expr.mapPos g) (parseAssignment limit d ts) := by
  rw [parseAssignment.eq_def, parseAssignment.eq_def, parseOperand_map d ts]
  rcases parseOperand limit d ts with e | ⟨lhs, r, hr⟩
  · rfl
  match r, hr with
  | [], _ => rfl
  | t :: rest, hr =>
    dsimp only [mapParsed_ok, List.map]
    by_cases hk : t.kind = .assign
    · simp only [Token.kind_mapPos, hk, ↓reduceIte, Expr.toTarget?_mapPos]
      cases lhs.toTarget? with
      | none => exact failAt_mapParsed hg (t :: rest) _
      | some target =>
        dsimp only [Option.map]
        rw [parseExpression_map d rest]
        rcases parseExpression limit d rest with e | ⟨v, r', hr'⟩
        · rfl
        · rfl
    · simp only [Token.kind_mapPos, hk, ↓reduceIte]
      rfl
termination_by (ts.length, 14)
decreasing_by all_goals (apply lex_of_lt_or; first | omega | (simp only [List.length_cons] at *; omega))

theorem parseOperand_map (d : Nat) (ts : List Token) :
    parseOperand limit d (ts.map (Token.mapPos g)) =
      mapParsed g (Expr.mapPos g) (parseOperand limit d ts) := by
  rw [parseOperand.eq_def, parseOperand.eq_def]
  match ts with
  | [] => exact parseAdditive_map d []
  | t :: rest =>
    dsimp only [List.map]
    by_cases hk : t.kind = .lbrace
    · simp only [Token.kind_mapPos, hk, ↓reduceIte]
      exact parseFields_map d (t :: rest) t.pos rest _ #[] #[] (by simp)
    · simp only [Token.kind_mapPos, hk, ↓reduceIte]
      exact parseAdditive_map d (t :: rest)
termination_by (ts.length, 13)
decreasing_by all_goals ((try simp only [List.length_cons]); apply lex_of_lt_or; omega)

theorem parseFields_map (d : Nat) (L : List Token) (bp : Pos) (R : List Token)
    (hR : R.length < L.length) (acc acc' : Array Field) (hacc : acc' = acc.map (Field.mapPos g)) :
    parseFields limit d (L.map (Token.mapPos g)) (g bp) (R.map (Token.mapPos g))
        (by simpa using hR) acc' =
      mapParsed g (Expr.mapPos g) (parseFields limit d L bp R hR acc) := by
  subst hacc
  rw [parseFields.eq_def, parseFields.eq_def]
  match R, hR with
  | [], _ => exact failAt_mapParsed hg [] _
  | t :: rest, hR =>
    dsimp only [List.map]
    by_cases hb : t.kind = .rbrace
    · simp only [Token.kind_mapPos, hb, ↓reduceIte, mapParsed_ok]
      simp [Expr.mapPos]
    simp only [Token.kind_mapPos, hb, ↓reduceIte]
    by_cases hk : t.kind = .ident ∨ t.kind = .string
    · simp only [hk, ↓reduceIte]
      match rest, hR with
      | [], hR =>
        dsimp only [List.map]
        by_cases hs : t.kind = .string
        · simp only [hs, ↓reduceIte]
          exact failAt_mapParsed hg [] _
        · simp only [hs, ↓reduceIte]
          exact parseFieldsNext_map d L bp [] _ _ _ (by simp [Field.mapPos])
      | c :: rest', hR =>
        dsimp only [List.map]
        by_cases hc : c.kind = .colon
        · simp only [Token.kind_mapPos, hc, ↓reduceIte]
          rw [parseExpression_map d rest']
          rcases parseExpression limit d rest' with e | ⟨v, r', hr'⟩
          · rfl
          · exact parseFieldsNext_map d L bp r' _ _ _ (by simp [Field.mapPos])
        · simp only [Token.kind_mapPos, hc, ↓reduceIte]
          by_cases hs : t.kind = .string
          · simp only [hs, ↓reduceIte]
            exact failAt_mapParsed hg (c :: rest') _
          · simp only [hs, ↓reduceIte]
            exact parseFieldsNext_map d L bp (c :: rest') _ _ _ (by simp [Field.mapPos])
    · simp only [hk, ↓reduceIte]
      exact failAt_mapParsed hg (t :: rest) _
termination_by (R.length, 0)
decreasing_by all_goals (apply lex_of_lt_or; first | omega | (simp only [List.length_cons] at *; omega))

theorem parseFieldsNext_map (d : Nat) (L : List Token) (bp : Pos) (R : List Token)
    (hR : R.length < L.length) (acc acc' : Array Field) (hacc : acc' = acc.map (Field.mapPos g)) :
    parseFieldsNext limit d (L.map (Token.mapPos g)) (g bp) (R.map (Token.mapPos g))
        (by simpa using hR) acc' =
      mapParsed g (Expr.mapPos g) (parseFieldsNext limit d L bp R hR acc) := by
  subst hacc
  rw [parseFieldsNext.eq_def, parseFieldsNext.eq_def]
  match R, hR with
  | [], _ => exact failAt_mapParsed hg [] _
  | t :: rest, hR =>
    dsimp only [List.map]
    by_cases hc : t.kind = .comma
    · simp only [Token.kind_mapPos, hc, ↓reduceIte]
      exact parseFields_map d L bp rest _ acc _ rfl
    · simp only [Token.kind_mapPos, hc, ↓reduceIte]
      rw [expect_map_cons hg]
      rcases expect .rbrace (t :: rest) with e | ⟨u, r', hr'⟩
      · rfl
      · simp [Expr.mapPos]
termination_by (R.length, 0)
decreasing_by all_goals (apply lex_of_lt_or; first | omega | (simp only [List.length_cons] at *; omega))

theorem parseAdditive_map (d : Nat) (ts : List Token) :
    parseAdditive limit d (ts.map (Token.mapPos g)) =
      mapParsed g (Expr.mapPos g) (parseAdditive limit d ts) := by
  rw [parseAdditive.eq_def, parseAdditive.eq_def, parseMultiplicative_map d ts]
  rcases parseMultiplicative limit d ts with e | ⟨lhs, r, hr⟩
  · rfl
  · exact additiveTail_map d ts lhs r hr
termination_by (ts.length, 12)
decreasing_by all_goals (apply lex_of_lt_or; omega)

theorem additiveTail_map (d : Nat) (L : List Token) (lhs : Expr) (R : List Token)
    (hR : R.length < L.length) :
    additiveTail limit d (L.map (Token.mapPos g)) (lhs.mapPos g) (R.map (Token.mapPos g))
        (by simpa using hR) =
      mapParsed g (Expr.mapPos g) (additiveTail limit d L lhs R hR) := by
  rw [additiveTail.eq_def, additiveTail.eq_def]
  match R, hR with
  | [], _ => rfl
  | t :: rest, hR =>
    dsimp only [List.map]
    simp only [Token.kind_mapPos]
    cases additiveOp t.kind with
    | none => rfl
    | some op =>
      dsimp only
      rw [parseMultiplicative_map d rest]
      rcases parseMultiplicative limit d rest with e | ⟨rhs, r', hr'⟩
      · rfl
      · exact additiveTail_map d L (.binary op lhs rhs t.pos) r' _
termination_by (R.length, 0)
decreasing_by all_goals (apply lex_of_lt_or; first | omega | (simp only [List.length_cons] at *; omega))

theorem parseMultiplicative_map (d : Nat) (ts : List Token) :
    parseMultiplicative limit d (ts.map (Token.mapPos g)) =
      mapParsed g (Expr.mapPos g) (parseMultiplicative limit d ts) := by
  rw [parseMultiplicative.eq_def, parseMultiplicative.eq_def, parsePostfix_map d ts]
  rcases parsePostfix limit d ts with e | ⟨lhs, r, hr⟩
  · rfl
  · exact multiplicativeTail_map d ts lhs r hr
termination_by (ts.length, 11)
decreasing_by all_goals (apply lex_of_lt_or; omega)

theorem multiplicativeTail_map (d : Nat) (L : List Token) (lhs : Expr) (R : List Token)
    (hR : R.length < L.length) :
    multiplicativeTail limit d (L.map (Token.mapPos g)) (lhs.mapPos g) (R.map (Token.mapPos g))
        (by simpa using hR) =
      mapParsed g (Expr.mapPos g) (multiplicativeTail limit d L lhs R hR) := by
  rw [multiplicativeTail.eq_def, multiplicativeTail.eq_def]
  match R, hR with
  | [], _ => rfl
  | t :: rest, hR =>
    dsimp only [List.map]
    simp only [Token.kind_mapPos]
    cases multiplicativeOp t.kind with
    | none => rfl
    | some op =>
      dsimp only
      rw [parsePostfix_map d rest]
      rcases parsePostfix limit d rest with e | ⟨rhs, r', hr'⟩
      · rfl
      · exact multiplicativeTail_map d L (.binary op lhs rhs t.pos) r' _
termination_by (R.length, 0)
decreasing_by all_goals (apply lex_of_lt_or; first | omega | (simp only [List.length_cons] at *; omega))

theorem parsePostfix_map (d : Nat) (ts : List Token) :
    parsePostfix limit d (ts.map (Token.mapPos g)) =
      mapParsed g (Expr.mapPos g) (parsePostfix limit d ts) := by
  rw [parsePostfix.eq_def, parsePostfix.eq_def, parsePrimary_map d ts]
  rcases parsePrimary limit d ts with e | ⟨a, r, hr⟩
  · rfl
  · exact postfixTail_map d ts a r hr
termination_by (ts.length, 10)
decreasing_by all_goals (apply lex_of_lt_or; omega)

theorem postfixTail_map (d : Nat) (L : List Token) (a : Expr) (R : List Token)
    (hR : R.length < L.length) :
    postfixTail limit d (L.map (Token.mapPos g)) (a.mapPos g) (R.map (Token.mapPos g))
        (by simpa using hR) =
      mapParsed g (Expr.mapPos g) (postfixTail limit d L a R hR) := by
  rw [postfixTail.eq_def, postfixTail.eq_def]
  match R, hR with
  | [], _ => rfl
  | t :: rest, hR =>
    dsimp only [List.map]
    by_cases hdot : t.kind = .dot
    · simp only [Token.kind_mapPos, hdot, ↓reduceIte]
      rw [expect_map hg]
      rcases expect .ident rest with e | ⟨name, r', hr'⟩
      · rfl
      · exact postfixTail_map d L (.member a name.lexeme name.pos t.pos) r' _
    simp only [Token.kind_mapPos, hdot, ↓reduceIte]
    by_cases hbr : t.kind = .lbracket
    · simp only [hbr, ↓reduceIte]
      rw [parseExpression_map d rest]
      rcases parseExpression limit d rest with e | ⟨key, r', hr'⟩
      · rfl
      · dsimp only [mapParsed_ok]
        rw [expect_map hg]
        rcases expect .rbracket r' with e | ⟨u, r'', hr''⟩
        · rfl
        · exact postfixTail_map d L (.index a key t.pos) r'' _
    simp only [hbr, ↓reduceIte]
    by_cases hpar : t.kind = .lparen
    · simp only [hpar, ↓reduceIte]
      rw [parseArgs_map d .rparen rest rest le_rfl #[] #[] (by simp)]
      rcases parseArgs limit d .rparen rest rest le_rfl #[] with e | ⟨args, r', hr'⟩
      · rfl
      · have ih := postfixTail_map d L (.call a args t.pos) r' (by simp at hR hr' ⊢; omega)
        simp only [Expr.mapPos, Expr.mapPosList_eq_map] at ih
        exact ih
    · simp only [hpar, ↓reduceIte]
      rfl
termination_by (R.length, 0)
decreasing_by all_goals (apply lex_of_lt_or; first | omega | (simp only [List.length_cons] at *; omega))

theorem parseArgs_map (d : Nat) (closer : TokenKind) (L R : List Token) (hR : R.length ≤ L.length)
    (acc acc' : Array Expr) (hacc : acc' = acc.map (Expr.mapPos g)) :
    parseArgs limit d closer (L.map (Token.mapPos g)) (R.map (Token.mapPos g))
        (by simpa using hR) acc' =
      mapParsed g (List.map (Expr.mapPos g)) (parseArgs limit d closer L R hR acc) := by
  subst hacc
  rw [parseArgs.eq_def, parseArgs.eq_def, kindAt_map hg]
  by_cases hk : kindAt R = closer
  · rw [if_pos hk, if_pos hk, expect_map hg]
    rcases expect closer R with e | ⟨u, r', hr'⟩
    · rfl
    · simp
  rw [if_neg hk, if_neg hk, parseExpression_map d R]
  rcases parseExpression limit d R with e | ⟨arg, r', hr'⟩
  · rfl
  dsimp only [mapParsed_ok]
  match r', hr' with
  | [], _ => exact failAt_mapParsed hg [] _
  | t :: rest, hr' =>
    dsimp only [List.map]
    by_cases hc : t.kind = .comma
    · simp only [Token.kind_mapPos, hc, ↓reduceIte]
      exact parseArgs_map d closer L rest _ (acc.push arg) _ (by simp)
    · simp only [Token.kind_mapPos, hc, ↓reduceIte]
      rw [expect_map_cons hg]
      rcases expect closer (t :: rest) with e | ⟨u, r'', hr''⟩
      · rfl
      · simp
termination_by (R.length, 16)
decreasing_by all_goals (apply lex_of_lt_or; first | omega | (simp only [List.length_cons] at *; omega))

theorem parsePrimary_map (d : Nat) (ts : List Token) :
    parsePrimary limit d (ts.map (Token.mapPos g)) =
      mapParsed g (Expr.mapPos g) (parsePrimary limit d ts) := by
  rw [parsePrimary.eq_def, parsePrimary.eq_def]
  match ts with
  | [] => exact congrArg Except.error (failAt_map hg [] _)
  | t :: rest =>
    dsimp only [List.map]
    simp only [Token.kind_mapPos]
    cases hk : t.kind
    case lparen =>
      dsimp only
      rw [parseExpression_map d rest]
      rcases parseExpression limit d rest with e | ⟨e, r, hr⟩
      · rfl
      · dsimp only [mapParsed_ok]
        rw [expect_map hg]
        rcases expect .rparen r with e' | ⟨u, r', hr'⟩
        · rfl
        · rfl
    case lbracket =>
      dsimp only
      rw [parseArgs_map d .rbracket rest rest le_rfl #[] #[] (by simp)]
      rcases parseArgs limit d .rbracket rest rest le_rfl #[] with e | ⟨elems, r, hr⟩
      · rfl
      · simp [Expr.mapPos]
    all_goals rfl
termination_by (ts.length, 9)
decreasing_by all_goals (simp only [List.length_cons]; apply lex_of_lt_or; omega)

end

end Expressions

section Statements

variable (limit : Option Nat)

theorem parseParams_map (ts : List Token) (acc : Array String) :
    parseParams (ts.map (Token.mapPos g)) acc =
      mapOutcome g id (fun _ h => by simpa using h) (parseParams ts acc) := by
  rw [parseParams.eq_def, parseParams.eq_def, kindAt_map hg]
  by_cases hk : kindAt ts = .rparen
  · rw [if_pos hk, if_pos hk]
    rfl
  rw [if_neg hk, if_neg hk, expect_map hg]
  rcases expect .ident ts with e | ⟨name, r, hr⟩
  · rfl
  dsimp only [mapParsed_ok]
  match r, hr with
  | [], _ => rfl
  | t :: rest, hr =>
    dsimp only [List.map]
    by_cases hc : t.kind = .comma
    · simp only [Token.kind_mapPos, hc, ↓reduceIte, Token.lexeme_mapPos]
      rw [parseParams_map rest]
      rcases parseParams rest (acc.push name.lexeme) with e | ⟨ps, r', hr'⟩
      · rfl
      · rfl
    · simp only [Token.kind_mapPos, hc, ↓reduceIte]
      rfl
termination_by ts.length
decreasing_by simp at hr; omega

theorem parseExprStmt_map (d : Nat) (ts : List Token) :
    parseExprStmt limit d (ts.map (Token.mapPos g)) =
      mapParsed g (Stmt.mapPos g) (parseExprStmt limit d ts) := by
  unfold parseExprStmt
  rw [parseExpression_map hg limit d ts]
  rcases parseExpression limit d ts with e | ⟨e, r, hr⟩
  · rfl
  dsimp only [mapParsed_ok]
  match r, hr with
  | [], _ => rfl
  | t :: rest, hr =>
    dsimp only [List.map]
    by_cases hs : t.kind = .semicolon
    · simp only [Token.kind_mapPos, hs, ↓reduceIte]
      rfl
    · simp only [Token.kind_mapPos, hs, ↓reduceIte]
      rfl

theorem parseVarTail_map (d : Nat) (ts : List Token) (start : Pos) (isConst : Bool)
    (R : List Token) (hR : R.length < ts.length) :
    parseVarTail limit d (ts.map (Token.mapPos g)) (g start) isConst (R.map (Token.mapPos g))
        (by simpa using hR) =
      mapParsed g (Stmt.mapPos g) (parseVarTail limit d ts start isConst R hR) := by
  unfold parseVarTail
  rw [expect_map hg]
  rcases expect .ident R with e | ⟨name, r1, h1⟩
  · rfl
  dsimp only [mapParsed_ok]
  match r1, h1 with
  | [], _ =>
    cases isConst
    · exact congrArg Except.error (failAt_map hg [] _)
    · exact congrArg Except.error (failAt_map hg [] _)
  | t :: rest, h1 =>
    dsimp only [List.map]
    by_cases ha : t.kind = .assign
    · simp only [Token.kind_mapPos, ha, ↓reduceIte]
      rw [parseExpression_map hg limit d rest]
      rcases parseExpression limit d rest with e | ⟨init, r2, h2⟩
      · rfl
      dsimp only [mapParsed_ok]
      rw [expect_map hg]
      rcases expect .semicolon r2 with e | ⟨u, r3, h3⟩
      · rfl
      · cases isConst <;> rfl
    · simp only [Token.kind_mapPos, ha, ↓reduceIte]
      cases isConst
      · simp only [Bool.false_eq_true, ↓reduceIte]
        rw [expect_map_cons hg]
        rcases expect .semicolon (t :: rest) with e | ⟨u, r3, h3⟩
        · rfl
        · rfl
      · simp only [↓reduceIte]
        exact failAt_mapParsed hg (t :: rest) _

theorem parseRet_map (d : Nat) (ts : List Token) (start : Pos) (R : List Token)
    (hR : R.length < ts.length) :
    parseRet limit d (ts.map (Token.mapPos g)) (g start) (R.map (Token.mapPos g))
        (by simpa using hR) =
      mapParsed g (Stmt.mapPos g) (parseRet limit d ts start R hR) := by
  unfold parseRet
  rw [kindAt_map hg]
  by_cases hk : kindAt R = .semicolon
  · rw [if_pos hk, if_pos hk, expect_map hg]
    rcases expect .semicolon R with e | ⟨u, r1, h1⟩
    · rfl
    · rfl
  · rw [if_neg hk, if_neg hk, parseExpression_map hg limit d R]
    rcases parseExpression limit d R with e | ⟨e, r1, h1⟩
    · rfl
    dsimp only [mapParsed_ok]
    rw [expect_map hg]
    rcases expect .semicolon r1 with e' | ⟨u, r2, h2⟩
    · rfl
    · rfl

mutual

theorem parseStatement_map (d : Nat) (ts : List Token) :
    parseStatement limit d (ts.map (Token.mapPos g)) =
      mapParsed g (Stmt.mapPos g) (parseStatement limit d ts) := by
  rw [parseStatement.eq_def, parseStatement.eq_def]
  match ts with
  | [] => exact parseExprStmt_map hg limit d []
  | t :: rest =>
    dsimp only [List.map]
    simp only [Token.kind_mapPos]
    cases hk : t.kind
    case keyword k =>
      cases k
      case letKw =>
        match rest with
        | [] => exact parseVarTail_map hg limit d [t] t.pos false [] _
        | m :: rest' =>
          dsimp only [List.map]
          by_cases hm : m.kind = .keyword .mutKw
          · simp only [Token.kind_mapPos, hm, ↓reduceIte]
            exact parseVarTail_map hg limit d (t :: m :: rest') t.pos false rest' _
          · simp only [Token.kind_mapPos, hm, ↓reduceIte]
            exact parseVarTail_map hg limit d (t :: m :: rest') t.pos false (m :: rest') _
      case constKw => exact parseVarTail_map hg limit d (t :: rest) t.pos true rest _
      case funcKw => exact parseFunc_map d (t :: rest) t.pos rest _
      case retKw => exact parseRet_map hg limit d (t :: rest) t.pos rest _
      case ifKw => exact parseIf_map d (t :: rest)
      case forKw => exact parseFor_map d (t :: rest) t.pos rest _
      all_goals exact parseExprStmt_map hg limit d (t :: rest)
    all_goals exact parseExprStmt_map hg limit d (t :: rest)
termination_by (ts.length, 20)
decreasing_by all_goals (simp only [List.length_cons]; apply lex_of_lt_or; omega)

theorem parseFunc_map (d : Nat) (ts : List Token) (start : Pos) (R : List Token)
    (hR : R.length < ts.length) :
    parseFunc limit d (ts.map (Token.mapPos g)) (g start) (R.map (Token.mapPos g))
        (by simpa using hR) =
      mapParsed g (Stmt.mapPos g) (parseFunc limit d ts start R hR) := by
  rw [parseFunc.eq_def, parseFunc.eq_def, expect_map hg]
  rcases expect .ident R with e | ⟨name, r1, h1⟩
  · rfl
  dsimp only [mapParsed_ok]
  rw [expect_map hg]
  rcases expect .lparen r1 with e | ⟨u, r2, h2⟩
  · rfl
  dsimp only [mapParsed_ok]
  rw [parseParams_map hg r2 #[]]
  rcases parseParams r2 #[] with e | ⟨params, r3, h3⟩
  · rfl
  dsimp only [mapOutcome]
  rw [expect_map hg]
  rcases expect .rparen r3 with e | ⟨u', r4, h4⟩
  · rfl
  dsimp only [mapParsed_ok]
  rw [parseBlock_map d r4]
  rcases parseBlock limit d r4 with e | ⟨body, r5, h5⟩
  · rfl
  · simp [Stmt.mapPos]
termination_by (R.length, 0)
decreasing_by all_goals (apply lex_of_lt_or; omega)

theorem parseIf_map (d : Nat) (ts : List Token) :
    parseIf limit d (ts.map (Token.mapPos g)) =
      mapParsed g (Stmt.mapPos g) (parseIf limit d ts) := by
  rw [parseIf.eq_def, parseIf.eq_def, expect_map hg]
  rcases expect (.keyword .ifKw) ts with e | ⟨ifTok, r1, h1⟩
  · rfl
  dsimp only [mapParsed_ok]
  rw [parseExpression_map hg limit d r1]
  rcases parseExpression limit d r1 with e | ⟨cond, r2, h2⟩
  · rfl
  dsimp only [mapParsed_ok]
  rw [parseBlock_map d r2]
  rcases parseBlock limit d r2 with e | ⟨thenBody, r3, h3⟩
  · rfl
  dsimp only [mapParsed_ok]
  match r3, h3 with
  | [], _ =>
    simp [Stmt.mapPos]
    rfl
  | t :: rest, h3 =>
    dsimp only [List.map]
    by_cases he : t.kind = .keyword .elseKw
    · simp only [Token.kind_mapPos, he, ↓reduceIte, kindAt_map hg]
      by_cases hi : kindAt rest = .keyword .ifKw
      · simp only [hi, ↓reduceIte]
        rw [enter_map hg]
        cases enter limit d rest with
        | error e => rfl
        | ok d' =>
          dsimp only
          rw [parseIf_map d' rest]
          rcases parseIf limit d' rest with e | ⟨nested, r4, h4⟩
          · rfl
          · simp [Stmt.mapPos]
      · simp only [hi, ↓reduceIte]
        rw [parseBlock_map d rest]
        rcases parseBlock limit d rest with e | ⟨elseBody, r4, h4⟩
        · rfl
        · simp [Stmt.mapPos]
    · simp only [Token.kind_mapPos, he, ↓reduceIte]
      simp [Stmt.mapPos]
termination_by (ts.length, 19)
decreasing_by all_goals (apply lex_of_lt_or; first | omega | (simp only [List.length_cons] at *; omega))

theorem parseFor_map (d : Nat) (ts : List Token) (start : Pos) (R : List Token)
    (hR : R.length < ts.length) :
    parseFor limit d (ts.map (Token.mapPos g)) (g start) (R.map (Token.mapPos g))
        (by simpa using hR) =
      mapParsed g (Stmt.mapPos g) (parseFor limit d ts start R hR) := by
  rw [parseFor.eq_def, parseFor.eq_def]
  extract_lets paren r0 h0 paren' r0' h0'
  -- the header's first token is read off before the name, alike in both runs; the goal depends
  -- on `r0`, so the name's outcome is moved along `e0` rather than rewritten
  have ep : paren = paren' := by simp only [paren, paren', kindAt_map hg]
  have e0 : r0 = r0'.map (Token.mapPos g) := by
    simp only [r0, r0', ep]
    split <;> simp
  obtain ⟨herr, hok⟩ := expect_map_of_eq hg (k := .ident) e0
  rcases hx : expect .ident r0' with e | ⟨name, r1, h1⟩
  · rw [herr e hx]
    rfl
  obtain ⟨h1', hy⟩ := hok name r1 h1 hx
  rw [hy]
  dsimp only
  rw [expect_map hg]
  rcases expect (.keyword .inKw) r1 with e | ⟨u, r2, h2⟩
  · rfl
  dsimp only [mapParsed_ok]
  rw [parseExpression_map hg limit d r2]
  rcases parseExpression limit d r2 with e | ⟨iterable, r3, h3⟩
  · rfl
  dsimp only [mapParsed_ok]
  by_cases hp : paren'
  · rw [if_pos (ep.mpr hp), if_pos hp, expect_map hg]
    rcases expect .rparen r3 with e | ⟨u', r4, h4⟩
    · rfl
    dsimp only [mapParsed_ok]
    rw [parseBlock_map d r4]
    rcases parseBlock limit d r4 with e | ⟨body, r5, h5⟩
    · rfl
    · simp [Stmt.mapPos]
  · rw [if_neg (fun h => hp (ep ▸ h)), if_neg hp]
    dsimp only
    rw [parseBlock_map d r3]
    rcases parseBlock limit d r3 with e | ⟨body, r5, h5⟩
    · rfl
    · simp [Stmt.mapPos]
termination_by (R.length, 0)
decreasing_by all_goals (apply lex_of_lt_or; omega)

theorem parseBlock_map (d : Nat) (ts : List Token) :
    parseBlock limit d (ts.map (Token.mapPos g)) =
      mapParsed g (List.map (Stmt.mapPos g)) (parseBlock limit d ts) := by
  rw [parseBlock.eq_def, parseBlock.eq_def, expect_map hg]
  rcases expect .lbrace ts with e | ⟨u, r, hr⟩
  · rfl
  dsimp only [mapParsed_ok]
  rw [enter_map hg]
  cases enter limit d r with
  | error e => rfl
  | ok d' => exact parseBlockBody_map d' ts r hr #[] #[] (by simp)
termination_by (ts.length, 0)
decreasing_by all_goals (apply lex_of_lt_or; omega)

theorem parseBlockBody_map (d : Nat) (L R : List Token) (hR : R.length < L.length)
    (acc acc' : Array Stmt) (hacc : acc' = acc.map (Stmt.mapPos g)) :
    parseBlockBody limit d (L.map (Token.mapPos g)) (R.map (Token.mapPos g))
        (by simpa using hR) acc' =
      mapParsed g (List.map (Stmt.mapPos g)) (parseBlockBody limit d L R hR acc) := by
  subst hacc
  rw [parseBlockBody.eq_def, parseBlockBody.eq_def]
  match R, hR with
  | [], _ => exact congrArg Except.error (failAt_map hg [] _)
  | t :: rest, hR =>
    dsimp only [List.map]
    by_cases hb : t.kind = .rbrace
    · simp only [Token.kind_mapPos, hb, ↓reduceIte]
      simp
    simp only [Token.kind_mapPos, hb, ↓reduceIte]
    by_cases he : t.kind = .eof
    · simp only [he, ↓reduceIte]
      exact failAt_mapParsed hg (t :: rest) _
    simp only [he, ↓reduceIte]
    by_cases hs : t.kind = .semicolon
    · simp only [hs, ↓reduceIte]
      exact parseBlockBody_map d L rest _ acc _ rfl
    simp only [hs, ↓reduceIte]
    have ih : parseStatement limit d (t.mapPos g :: rest.map (Token.mapPos g)) =
        mapParsed g (Stmt.mapPos g) (parseStatement limit d (t :: rest)) :=
      parseStatement_map d (t :: rest)
    rw [ih]
    rcases parseStatement limit d (t :: rest) with e | ⟨s, r', hr'⟩
    · rfl
    · exact parseBlockBody_map d L r' _ (acc.push s) _ (by simp)
termination_by (R.length, 21)
decreasing_by all_goals (apply lex_of_lt_or; first | omega | (simp only [List.length_cons] at *; omega))

end

def mapProgram (g : Pos → Pos) : Except Error Program → Except Error Program
  | .ok prog => .ok (prog.map (Stmt.mapPos g))
  | .error e => .error (e.mapPos g)

theorem parseProgramFrom_map (ts : List Token) (acc acc' : Array Stmt)
    (hacc : acc' = acc.map (Stmt.mapPos g)) :
    parseProgramFrom limit (ts.map (Token.mapPos g)) acc' =
      mapProgram g (parseProgramFrom limit ts acc) := by
  subst hacc
  rw [parseProgramFrom.eq_def, parseProgramFrom.eq_def]
  match ts with
  | [] => simp [mapProgram]
  | t :: rest =>
    dsimp only [List.map]
    by_cases he : t.kind = .eof
    · simp [he, mapProgram]
    simp only [Token.kind_mapPos, he, ↓reduceIte]
    by_cases hs : t.kind = .semicolon
    · simp only [hs, ↓reduceIte]
      exact parseProgramFrom_map rest acc _ rfl
    simp only [hs, ↓reduceIte]
    have ih : parseStatement limit 0 (t.mapPos g :: rest.map (Token.mapPos g)) =
        mapParsed g (Stmt.mapPos g) (parseStatement limit 0 (t :: rest)) :=
      parseStatement_map hg limit 0 (t :: rest)
    rw [ih]
    rcases parseStatement limit 0 (t :: rest) with e | ⟨st, r, hr⟩
    · rfl
    · exact parseProgramFrom_map r (acc.push st) _ (by simp)
termination_by ts.length
decreasing_by all_goals (simp only [List.length_cons] at *; omega)

end Statements

end Parser

end Treewalk
