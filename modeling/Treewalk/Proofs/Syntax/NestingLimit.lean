import Mathlib
import Treewalk.Proofs.Syntax.ParseErrors
import Treewalk.Proofs.Syntax.ParsedPositions
/-!
# The nesting counter and the nesting limit

The parser counts the levels it enters: every expression, every block after its `{`, every
`else if`. The count is an argument of each parsing function, handed down to the parts it calls
and never handed back, so when a part has been read the caller goes on at the level it was at
before. Under a limit, entering a level past it fails with the depth error at the current token.

`peakExpression` and its companions read the counter off a run with no limit: the deepest level
the run enters, following the run part by part, each part starting at the level of the part
that calls it. `nestingPeak` is this peak for a whole token list.

`overExpression` and its companions follow the same run and answer where its counter first
passes a limit `l`: the position of the current token at that moment, `none` if it never does.
`Capped l p o x y` says that the run `x` under the limit `l` is the run `y` with no limit cut
with the depth error at `o`, and that `o` is `none` exactly when the peak `p` is within `l`.
Every parsing function has a lemma saying so, proved by the parser's own recursion; for a token
list it says that `parseTokens` returns what the parser returns with no limit when the nesting
peak is at most `maxNesting`, and fails with the depth error at the current token of the moment
the counter first passes `maxNesting` when it is not.
-/
namespace Treewalk.Parser

/-! ### The counter of a run with no limit -/

mutual

/-- The deepest level the run of `parseExpression` enters from level `d`: its own level, and the
levels its assignment enters. -/
def peakExpression (d : Nat) (ts : List Token) : Nat :=
  max (d + 1) (peakAssignment (d + 1) ts)
termination_by (ts.length, 15)
decreasing_by all_goals (apply lex_of_lt_or; omega)

def peakAssignment (d : Nat) (ts : List Token) : Nat :=
  max (peakOperand d ts)
    (match parseOperand none d ts with
     | .error _ => 0
     | .ok (lhs, ⟨r, _⟩) =>
       match r with
       | t :: rest =>
         if t.kind = .assign then
           match lhs.toTarget? with
           | none => 0
           | some _ => peakExpression d rest
         else 0
       | [] => 0)
termination_by (ts.length, 14)
decreasing_by all_goals ((try simp only [List.length_cons] at *); apply lex_of_lt_or; omega)

def peakOperand (d : Nat) (ts : List Token) : Nat :=
  match ts with
  | t :: rest => if t.kind = .lbrace then peakFields d rest else peakAdditive d (t :: rest)
  | [] => peakAdditive d []
termination_by (ts.length, 13)
decreasing_by all_goals ((try simp only [List.length_cons] at *); apply lex_of_lt_or; omega)

def peakFields (d : Nat) (r : List Token) : Nat :=
  match r with
  | t :: rest =>
    if t.kind = .rbrace then 0
    else if t.kind = .ident ∨ t.kind = .string then
      match rest with
      | c :: rest' =>
        if c.kind = .colon then
          max (peakExpression d rest')
            (match parseExpression none d rest' with
             | .error _ => 0
             | .ok (_, ⟨r', _⟩) => peakFieldsNext d r')
        else if t.kind = .string then 0
        else peakFieldsNext d (c :: rest')
      | [] => if t.kind = .string then 0 else peakFieldsNext d []
    else 0
  | [] => 0
termination_by (r.length, 1)
decreasing_by all_goals ((try simp only [List.length_cons] at *); apply lex_of_lt_or; omega)

def peakFieldsNext (d : Nat) (r : List Token) : Nat :=
  match r with
  | t :: rest => if t.kind = .comma then peakFields d rest else 0
  | [] => 0
termination_by (r.length, 0)
decreasing_by all_goals ((try simp only [List.length_cons] at *); apply lex_of_lt_or; omega)

def peakAdditive (d : Nat) (ts : List Token) : Nat :=
  max (peakMultiplicative d ts)
    (match parseMultiplicative none d ts with
     | .error _ => 0
     | .ok (_, ⟨r, _⟩) => peakAdditiveTail d r)
termination_by (ts.length, 12)
decreasing_by all_goals (apply lex_of_lt_or; omega)

def peakAdditiveTail (d : Nat) (r : List Token) : Nat :=
  match r with
  | t :: rest =>
    match additiveOp t.kind with
    | some _ =>
      max (peakMultiplicative d rest)
        (match parseMultiplicative none d rest with
         | .error _ => 0
         | .ok (_, ⟨r', _⟩) => peakAdditiveTail d r')
    | none => 0
  | [] => 0
termination_by (r.length, 0)
decreasing_by all_goals ((try simp only [List.length_cons] at *); apply lex_of_lt_or; omega)

def peakMultiplicative (d : Nat) (ts : List Token) : Nat :=
  max (peakPostfix d ts)
    (match parsePostfix none d ts with
     | .error _ => 0
     | .ok (_, ⟨r, _⟩) => peakMultiplicativeTail d r)
termination_by (ts.length, 11)
decreasing_by all_goals (apply lex_of_lt_or; omega)

def peakMultiplicativeTail (d : Nat) (r : List Token) : Nat :=
  match r with
  | t :: rest =>
    match multiplicativeOp t.kind with
    | some _ =>
      max (peakPostfix d rest)
        (match parsePostfix none d rest with
         | .error _ => 0
         | .ok (_, ⟨r', _⟩) => peakMultiplicativeTail d r')
    | none => 0
  | [] => 0
termination_by (r.length, 0)
decreasing_by all_goals ((try simp only [List.length_cons] at *); apply lex_of_lt_or; omega)

def peakPostfix (d : Nat) (ts : List Token) : Nat :=
  max (peakPrimary d ts)
    (match parsePrimary none d ts with
     | .error _ => 0
     | .ok (_, ⟨r, _⟩) => peakPostfixTail d r)
termination_by (ts.length, 10)
decreasing_by all_goals (apply lex_of_lt_or; omega)

def peakPostfixTail (d : Nat) (r : List Token) : Nat :=
  match r with
  | t :: rest =>
    if t.kind = .dot then
      match expect .ident rest with
      | .error _ => 0
      | .ok (_, ⟨r', _⟩) => peakPostfixTail d r'
    else if t.kind = .lbracket then
      max (peakExpression d rest)
        (match parseExpression none d rest with
         | .error _ => 0
         | .ok (_, ⟨r', _⟩) =>
           match expect .rbracket r' with
           | .error _ => 0
           | .ok (_, ⟨r'', _⟩) => peakPostfixTail d r'')
    else if t.kind = .lparen then
      max (peakArgs d .rparen rest)
        (match parseArgs none d .rparen rest rest (Nat.le_refl _) #[] with
         | .error _ => 0
         | .ok (_, ⟨r', _⟩) => peakPostfixTail d r')
    else 0
  | [] => 0
termination_by (r.length, 0)
decreasing_by all_goals ((try simp only [List.length_cons] at *); apply lex_of_lt_or; omega)

def peakArgs (d : Nat) (closer : TokenKind) (r : List Token) : Nat :=
  if kindAt r = closer then 0
  else
    max (peakExpression d r)
      (match parseExpression none d r with
       | .error _ => 0
       | .ok (_, ⟨r', _⟩) =>
         match r' with
         | t :: rest => if t.kind = .comma then peakArgs d closer rest else 0
         | [] => 0)
termination_by (r.length, 16)
decreasing_by all_goals ((try simp only [List.length_cons] at *); apply lex_of_lt_or; omega)

def peakPrimary (d : Nat) (ts : List Token) : Nat :=
  match ts with
  | t :: rest =>
    match t.kind with
    | .ident => 0
    | .number => 0
    | .string => 0
    | .lparen => peakExpression d rest
    | .lbracket => peakArgs d .rbracket rest
    | _ => 0
  | [] => 0
termination_by (ts.length, 9)
decreasing_by all_goals ((try simp only [List.length_cons] at *); apply lex_of_lt_or; omega)

end

def peakVarTail (d : Nat) (r : List Token) : Nat :=
  match expect .ident r with
  | .error _ => 0
  | .ok (_, ⟨r1, _⟩) =>
    match r1 with
    | t :: rest => if t.kind = .assign then peakExpression d rest else 0
    | [] => 0

def peakRet (d : Nat) (r : List Token) : Nat :=
  if kindAt r = .semicolon then 0 else peakExpression d r

mutual

def peakStatement (d : Nat) (ts : List Token) : Nat :=
  match ts with
  | t :: rest =>
    match t.kind with
    | .keyword .letKw =>
      match rest with
      | m :: rest' =>
        if m.kind = .keyword .mutKw then peakVarTail d rest' else peakVarTail d (m :: rest')
      | [] => peakVarTail d []
    | .keyword .constKw => peakVarTail d rest
    | .keyword .funcKw => peakFunc d rest
    | .keyword .retKw => peakRet d rest
    | .keyword .ifKw => peakIf d (t :: rest)
    | .keyword .forKw => peakFor d rest
    | _ => peakExpression d (t :: rest)
  | [] => peakExpression d []
termination_by (ts.length, 20)
decreasing_by all_goals ((try simp only [List.length_cons] at *); apply lex_of_lt_or; omega)

def peakFunc (d : Nat) (r : List Token) : Nat :=
  match expect .ident r with
  | .error _ => 0
  | .ok (_, ⟨r1, _⟩) =>
    match expect .lparen r1 with
    | .error _ => 0
    | .ok (_, ⟨r2, _⟩) =>
      match parseParams r2 #[] with
      | .error _ => 0
      | .ok (_, ⟨r3, _⟩) =>
        match expect .rparen r3 with
        | .error _ => 0
        | .ok (_, ⟨r4, _⟩) => peakBlock d r4
termination_by (r.length, 1)
decreasing_by all_goals (apply lex_of_lt_or; omega)

def peakIf (d : Nat) (ts : List Token) : Nat :=
  match expect (.keyword .ifKw) ts with
  | .error _ => 0
  | .ok (_, ⟨r1, _⟩) =>
    max (peakExpression d r1)
      (match parseExpression none d r1 with
       | .error _ => 0
       | .ok (_, ⟨r2, _⟩) =>
         max (peakBlock d r2)
           (match parseBlock none d r2 with
            | .error _ => 0
            | .ok (_, ⟨r3, _⟩) =>
              match r3 with
              | t :: rest =>
                if t.kind = .keyword .elseKw then
                  if kindAt rest = .keyword .ifKw then max (d + 1) (peakIf (d + 1) rest)
                  else peakBlock d rest
                else 0
              | [] => 0))
termination_by (ts.length, 19)
decreasing_by all_goals ((try simp only [List.length_cons] at *); apply lex_of_lt_or; omega)

def peakFor (d : Nat) (r : List Token) : Nat :=
  let r0 := if kindAt r = .lparen then r.drop 1 else r
  have h0 : r0.length ≤ r.length := by
    simp only [r0]; split <;> simp
  match expect .ident r0 with
  | .error _ => 0
  | .ok (_, ⟨r1, _⟩) =>
    match expect (.keyword .inKw) r1 with
    | .error _ => 0
    | .ok (_, ⟨r2, _⟩) =>
      max (peakExpression d r2)
        (match parseExpression none d r2 with
         | .error _ => 0
         | .ok (_, ⟨r3, _⟩) =>
           if kindAt r = .lparen then
             match expect .rparen r3 with
             | .error _ => 0
             | .ok (_, ⟨r4, _⟩) => peakBlock d r4
           else peakBlock d r3)
termination_by (r.length, 1)
decreasing_by all_goals (apply lex_of_lt_or; omega)

def peakBlock (d : Nat) (ts : List Token) : Nat :=
  match expect .lbrace ts with
  | .error _ => 0
  | .ok (_, ⟨r, _⟩) => max (d + 1) (peakBlockBody (d + 1) r)
termination_by (ts.length, 0)
decreasing_by all_goals (apply lex_of_lt_or; omega)

def peakBlockBody (d : Nat) (r : List Token) : Nat :=
  match r with
  | t :: rest =>
    if t.kind = .rbrace then 0
    else if t.kind = .eof then 0
    else if t.kind = .semicolon then peakBlockBody d rest
    else
      max (peakStatement d (t :: rest))
        (match parseStatement none d (t :: rest) with
         | .error _ => 0
         | .ok (_, ⟨r', _⟩) => peakBlockBody d r')
  | [] => 0
termination_by (r.length, 21)
decreasing_by all_goals ((try simp only [List.length_cons] at *); apply lex_of_lt_or; omega)

end

def peakProgramFrom (ts : List Token) : Nat :=
  match ts with
  | t :: rest =>
    if t.kind = .eof then 0
    else if t.kind = .semicolon then peakProgramFrom rest
    else
      max (peakStatement 0 (t :: rest))
        (match parseStatement none 0 (t :: rest) with
         | .error _ => 0
         | .ok (_, ⟨r, _⟩) => peakProgramFrom r)
  | [] => 0
termination_by ts.length
decreasing_by all_goals (simp_all; try omega)

/-- The deepest level the parser enters on a token list when it has no limit. -/
def nestingPeak (ts : List Token) : Nat :=
  peakProgramFrom (closeTokens ts)

/-! ### Where the counter of a run with no limit first passes a limit -/

def enterPasses (l d : Nat) (ts : List Token) : Option Pos :=
  if l < d + 1 then some (current ts).pos else none

mutual

/-- Where the run of `parseExpression` from level `d` first enters a level above `l`: the
position of the current token at that moment, or `none` when it never does. Each part is asked
in the order the parser reads it, so `Option.or` keeps the first answer. -/
def overExpression (l d : Nat) (ts : List Token) : Option Pos :=
  (enterPasses l d ts).or (overAssignment l (d + 1) ts)
termination_by (ts.length, 15)
decreasing_by all_goals (apply lex_of_lt_or; omega)

def overAssignment (l d : Nat) (ts : List Token) : Option Pos :=
  (overOperand l d ts).or
    (match parseOperand none d ts with
     | .error _ => none
     | .ok (lhs, ⟨r, _⟩) =>
       match r with
       | t :: rest =>
         if t.kind = .assign then
           match lhs.toTarget? with
           | none => none
           | some _ => overExpression l d rest
         else none
       | [] => none)
termination_by (ts.length, 14)
decreasing_by all_goals ((try simp only [List.length_cons] at *); apply lex_of_lt_or; omega)

def overOperand (l d : Nat) (ts : List Token) : Option Pos :=
  match ts with
  | t :: rest => if t.kind = .lbrace then overFields l d rest else overAdditive l d (t :: rest)
  | [] => overAdditive l d []
termination_by (ts.length, 13)
decreasing_by all_goals ((try simp only [List.length_cons] at *); apply lex_of_lt_or; omega)

def overFields (l d : Nat) (r : List Token) : Option Pos :=
  match r with
  | t :: rest =>
    if t.kind = .rbrace then none
    else if t.kind = .ident ∨ t.kind = .string then
      match rest with
      | c :: rest' =>
        if c.kind = .colon then
          (overExpression l d rest').or
            (match parseExpression none d rest' with
             | .error _ => none
             | .ok (_, ⟨r', _⟩) => overFieldsNext l d r')
        else if t.kind = .string then none
        else overFieldsNext l d (c :: rest')
      | [] => if t.kind = .string then none else overFieldsNext l d []
    else none
  | [] => none
termination_by (r.length, 1)
decreasing_by all_goals ((try simp only [List.length_cons] at *); apply lex_of_lt_or; omega)

def overFieldsNext (l d : Nat) (r : List Token) : Option Pos :=
  match r with
  | t :: rest => if t.kind = .comma then overFields l d rest else none
  | [] => none
termination_by (r.length, 0)
decreasing_by all_goals ((try simp only [List.length_cons] at *); apply lex_of_lt_or; omega)

def overAdditive (l d : Nat) (ts : List Token) : Option Pos :=
  (overMultiplicative l d ts).or
    (match parseMultiplicative none d ts with
     | .error _ => none
     | .ok (_, ⟨r, _⟩) => overAdditiveTail l d r)
termination_by (ts.length, 12)
decreasing_by all_goals (apply lex_of_lt_or; omega)

def overAdditiveTail (l d : Nat) (r : List Token) : Option Pos :=
  match r with
  | t :: rest =>
    match additiveOp t.kind with
    | some _ =>
      (overMultiplicative l d rest).or
        (match parseMultiplicative none d rest with
         | .error _ => none
         | .ok (_, ⟨r', _⟩) => overAdditiveTail l d r')
    | none => none
  | [] => none
termination_by (r.length, 0)
decreasing_by all_goals ((try simp only [List.length_cons] at *); apply lex_of_lt_or; omega)

def overMultiplicative (l d : Nat) (ts : List Token) : Option Pos :=
  (overPostfix l d ts).or
    (match parsePostfix none d ts with
     | .error _ => none
     | .ok (_, ⟨r, _⟩) => overMultiplicativeTail l d r)
termination_by (ts.length, 11)
decreasing_by all_goals (apply lex_of_lt_or; omega)

def overMultiplicativeTail (l d : Nat) (r : List Token) : Option Pos :=
  match r with
  | t :: rest =>
    match multiplicativeOp t.kind with
    | some _ =>
      (overPostfix l d rest).or
        (match parsePostfix none d rest with
         | .error _ => none
         | .ok (_, ⟨r', _⟩) => overMultiplicativeTail l d r')
    | none => none
  | [] => none
termination_by (r.length, 0)
decreasing_by all_goals ((try simp only [List.length_cons] at *); apply lex_of_lt_or; omega)

def overPostfix (l d : Nat) (ts : List Token) : Option Pos :=
  (overPrimary l d ts).or
    (match parsePrimary none d ts with
     | .error _ => none
     | .ok (_, ⟨r, _⟩) => overPostfixTail l d r)
termination_by (ts.length, 10)
decreasing_by all_goals (apply lex_of_lt_or; omega)

def overPostfixTail (l d : Nat) (r : List Token) : Option Pos :=
  match r with
  | t :: rest =>
    if t.kind = .dot then
      match expect .ident rest with
      | .error _ => none
      | .ok (_, ⟨r', _⟩) => overPostfixTail l d r'
    else if t.kind = .lbracket then
      (overExpression l d rest).or
        (match parseExpression none d rest with
         | .error _ => none
         | .ok (_, ⟨r', _⟩) =>
           match expect .rbracket r' with
           | .error _ => none
           | .ok (_, ⟨r'', _⟩) => overPostfixTail l d r'')
    else if t.kind = .lparen then
      (overArgs l d .rparen rest).or
        (match parseArgs none d .rparen rest rest (Nat.le_refl _) #[] with
         | .error _ => none
         | .ok (_, ⟨r', _⟩) => overPostfixTail l d r')
    else none
  | [] => none
termination_by (r.length, 0)
decreasing_by all_goals ((try simp only [List.length_cons] at *); apply lex_of_lt_or; omega)

def overArgs (l d : Nat) (closer : TokenKind) (r : List Token) : Option Pos :=
  if kindAt r = closer then none
  else
    (overExpression l d r).or
      (match parseExpression none d r with
       | .error _ => none
       | .ok (_, ⟨r', _⟩) =>
         match r' with
         | t :: rest => if t.kind = .comma then overArgs l d closer rest else none
         | [] => none)
termination_by (r.length, 16)
decreasing_by all_goals ((try simp only [List.length_cons] at *); apply lex_of_lt_or; omega)

def overPrimary (l d : Nat) (ts : List Token) : Option Pos :=
  match ts with
  | t :: rest =>
    match t.kind with
    | .ident => none
    | .number => none
    | .string => none
    | .lparen => overExpression l d rest
    | .lbracket => overArgs l d .rbracket rest
    | _ => none
  | [] => none
termination_by (ts.length, 9)
decreasing_by all_goals ((try simp only [List.length_cons] at *); apply lex_of_lt_or; omega)

end

def overVarTail (l d : Nat) (r : List Token) : Option Pos :=
  match expect .ident r with
  | .error _ => none
  | .ok (_, ⟨r1, _⟩) =>
    match r1 with
    | t :: rest => if t.kind = .assign then overExpression l d rest else none
    | [] => none

def overRet (l d : Nat) (r : List Token) : Option Pos :=
  if kindAt r = .semicolon then none else overExpression l d r

mutual

/-- Where the run of `parseStatement` from level `d` first enters a level above `l`. -/
def overStatement (l d : Nat) (ts : List Token) : Option Pos :=
  match ts with
  | t :: rest =>
    match t.kind with
    | .keyword .letKw =>
      match rest with
      | m :: rest' =>
        if m.kind = .keyword .mutKw then overVarTail l d rest' else overVarTail l d (m :: rest')
      | [] => overVarTail l d []
    | .keyword .constKw => overVarTail l d rest
    | .keyword .funcKw => overFunc l d rest
    | .keyword .retKw => overRet l d rest
    | .keyword .ifKw => overIf l d (t :: rest)
    | .keyword .forKw => overFor l d rest
    | _ => overExpression l d (t :: rest)
  | [] => overExpression l d []
termination_by (ts.length, 20)
decreasing_by all_goals ((try simp only [List.length_cons] at *); apply lex_of_lt_or; omega)

def overFunc (l d : Nat) (r : List Token) : Option Pos :=
  match expect .ident r with
  | .error _ => none
  | .ok (_, ⟨r1, _⟩) =>
    match expect .lparen r1 with
    | .error _ => none
    | .ok (_, ⟨r2, _⟩) =>
      match parseParams r2 #[] with
      | .error _ => none
      | .ok (_, ⟨r3, _⟩) =>
        match expect .rparen r3 with
        | .error _ => none
        | .ok (_, ⟨r4, _⟩) => overBlock l d r4
termination_by (r.length, 1)
decreasing_by all_goals (apply lex_of_lt_or; omega)

def overIf (l d : Nat) (ts : List Token) : Option Pos :=
  match expect (.keyword .ifKw) ts with
  | .error _ => none
  | .ok (_, ⟨r1, _⟩) =>
    (overExpression l d r1).or
      (match parseExpression none d r1 with
       | .error _ => none
       | .ok (_, ⟨r2, _⟩) =>
         (overBlock l d r2).or
           (match parseBlock none d r2 with
            | .error _ => none
            | .ok (_, ⟨r3, _⟩) =>
              match r3 with
              | t :: rest =>
                if t.kind = .keyword .elseKw then
                  if kindAt rest = .keyword .ifKw then
                    (enterPasses l d rest).or (overIf l (d + 1) rest)
                  else overBlock l d rest
                else none
              | [] => none))
termination_by (ts.length, 19)
decreasing_by all_goals ((try simp only [List.length_cons] at *); apply lex_of_lt_or; omega)

def overFor (l d : Nat) (r : List Token) : Option Pos :=
  let r0 := if kindAt r = .lparen then r.drop 1 else r
  have h0 : r0.length ≤ r.length := by
    simp only [r0]; split <;> simp
  match expect .ident r0 with
  | .error _ => none
  | .ok (_, ⟨r1, _⟩) =>
    match expect (.keyword .inKw) r1 with
    | .error _ => none
    | .ok (_, ⟨r2, _⟩) =>
      (overExpression l d r2).or
        (match parseExpression none d r2 with
         | .error _ => none
         | .ok (_, ⟨r3, _⟩) =>
           if kindAt r = .lparen then
             match expect .rparen r3 with
             | .error _ => none
             | .ok (_, ⟨r4, _⟩) => overBlock l d r4
           else overBlock l d r3)
termination_by (r.length, 1)
decreasing_by all_goals (apply lex_of_lt_or; omega)

def overBlock (l d : Nat) (ts : List Token) : Option Pos :=
  match expect .lbrace ts with
  | .error _ => none
  | .ok (_, ⟨r, _⟩) => (enterPasses l d r).or (overBlockBody l (d + 1) r)
termination_by (ts.length, 0)
decreasing_by all_goals (apply lex_of_lt_or; omega)

def overBlockBody (l d : Nat) (r : List Token) : Option Pos :=
  match r with
  | t :: rest =>
    if t.kind = .rbrace then none
    else if t.kind = .eof then none
    else if t.kind = .semicolon then overBlockBody l d rest
    else
      (overStatement l d (t :: rest)).or
        (match parseStatement none d (t :: rest) with
         | .error _ => none
         | .ok (_, ⟨r', _⟩) => overBlockBody l d r')
  | [] => none
termination_by (r.length, 21)
decreasing_by all_goals ((try simp only [List.length_cons] at *); apply lex_of_lt_or; omega)

end

def overProgramFrom (l : Nat) (ts : List Token) : Option Pos :=
  match ts with
  | t :: rest =>
    if t.kind = .eof then none
    else if t.kind = .semicolon then overProgramFrom l rest
    else
      (overStatement l 0 (t :: rest)).or
        (match parseStatement none 0 (t :: rest) with
         | .error _ => none
         | .ok (_, ⟨r, _⟩) => overProgramFrom l r)
  | [] => none
termination_by ts.length
decreasing_by all_goals (simp_all; try omega)

/-- The position of the current token at the moment the counter of the parser, run with no
limit on a token list, first passes `l`; `none` when it never does. -/
def firstPassing (l : Nat) (ts : List Token) : Option Pos :=
  overProgramFrom l (closeTokens ts)

/-! ### A limit cuts a run where its counter first passes it -/

def depthError (l : Nat) (q : Pos) : Error := { fault := .nestingTooDeep l, pos := some q }

/-- The run `y` cut at `o`: the depth error of `l` there when there is such a place, else `y`. -/
def cutAt {γ : Type} (l : Nat) : Option Pos → Except Error γ → Except Error γ
  | none, y => y
  | some q, _ => .error (depthError l q)

/-- The run `x` under the limit `l` is the run `y` with no limit cut at `o`, where the counter
of `y` first passes `l`; and it passes `l` somewhere exactly when the peak `p` of `y` is above
`l`. -/
def Capped {γ : Type} (l p : Nat) (o : Option Pos) (x y : Except Error γ) : Prop :=
  (o = none ↔ p ≤ l) ∧ x = cutAt l o y

section Capped

variable {γ : Type} {l p p₁ : Nat} {o o₁ : Option Pos} {x y : Except Error γ}

theorem Capped.within (hp : p ≤ l) (x : Except Error γ) : Capped l p none x x :=
  ⟨iff_of_true rfl hp, rfl⟩

theorem Capped.same (x : Except Error γ) : Capped l 0 none x x :=
  Capped.within (Nat.zero_le l) x

theorem Capped.passes (hp : l < p) (q : Pos) (y : Except Error γ) :
    Capped l p (some q) (.error (depthError l q)) y :=
  ⟨iff_of_false (by simp) (by omega), rfl⟩

/-- What the part read first decides: either its counter stays within the limit and its two
runs agree, or it passes the limit at some `q` and the run under the limit stops there. -/
theorem Capped.first {α : Type} {x₁ y₁ : Except Error α} (h : Capped l p₁ o₁ x₁ y₁) :
    (p₁ ≤ l ∧ o₁ = none ∧ x₁ = y₁) ∨
      (l < p₁ ∧ ∃ q, o₁ = some q ∧ x₁ = .error (depthError l q)) := by
  obtain ⟨hiff, hx⟩ := h
  cases o₁ with
  | none => exact .inl ⟨hiff.1 rfl, rfl, hx⟩
  | some q =>
    have hp : ¬ p₁ ≤ l := fun hp => by simpa using hiff.2 hp
    exact .inr ⟨by omega, q, rfl, hx⟩

/-- A part read after a first one that stays within the limit: for the limit, the peak of both
is the later part's, and so is the place where the counter passes it. -/
theorem Capped.max_left (hp : p₁ ≤ l) (h : Capped l p o x y) :
    Capped l (max p₁ p) (Option.or none o) x y := by
  refine ⟨?_, h.2⟩
  rw [Option.none_or, h.1, Nat.max_le]
  exact ⟨fun h' => ⟨hp, h'⟩, And.right⟩

theorem Capped.passes_first (hp : l < p₁) (q : Pos) (y : Except Error γ) :
    Capped l (max p₁ p) (Option.or (some q) o) (.error (depthError l q)) y :=
  Capped.passes (lt_max_of_lt_left hp) q y

end Capped

theorem enter_none (d : Nat) (ts : List Token) : enter none d ts = .ok (d + 1) := rfl

theorem enter_capped (l d : Nat) (ts : List Token) :
    Capped l (d + 1) (enterPasses l d ts) (enter (some l) d ts) (enter none d ts) := by
  unfold enterPasses
  by_cases hd : l < d + 1
  · rw [if_pos hd]
    refine ⟨iff_of_false (by simp) (by omega), ?_⟩
    simp [enter, hd, cutAt, depthError]
  · rw [if_neg hd, enter_some (by omega), enter_none]
    exact Capped.within (by omega) _

-- Each lemma below mirrors one parsing function. It takes the lemma of the part the function
-- reads first and splits on what that part decides: if its counter stays within the limit, its
-- two runs agree and the caller's two runs, its peak and its first passing split alike on the
-- common result; if the counter passes the limit, the part stops at the depth error there and
-- so does the caller.
mutual

theorem parseExpression_capped (l d : Nat) (ts : List Token) :
    Capped l (peakExpression d ts) (overExpression l d ts) (parseExpression (some l) d ts)
      (parseExpression none d ts) := by
  rw [peakExpression, overExpression, parseExpression.eq_def, parseExpression.eq_def]
  rcases (enter_capped l d ts).first with ⟨hp, ho, hx⟩ | ⟨hp, q, ho, hx⟩
  · rw [ho, hx, enter_none]
    exact Capped.max_left hp (parseAssignment_capped l (d + 1) ts)
  · rw [ho, hx]
    exact Capped.passes_first hp q _
termination_by (ts.length, 15)
decreasing_by all_goals (apply lex_of_lt_or; omega)

theorem parseAssignment_capped (l d : Nat) (ts : List Token) :
    Capped l (peakAssignment d ts) (overAssignment l d ts) (parseAssignment (some l) d ts)
      (parseAssignment none d ts) := by
  rw [peakAssignment, overAssignment, parseAssignment.eq_def, parseAssignment.eq_def]
  rcases (parseOperand_capped l d ts).first with ⟨hp, ho, hx⟩ | ⟨hp, q, ho, hx⟩
  · rw [ho, hx]
    rcases parseOperand none d ts with e | ⟨lhs, r₁, hr₁⟩
    · exact Capped.max_left hp (Capped.same _)
    · cases r₁ with
      | nil => exact Capped.max_left hp (Capped.same _)
      | cons t rest =>
        have hlt : rest.length < ts.length := Nat.lt_of_succ_lt hr₁
        dsimp only
        split
        · rcases lhs.toTarget? with _ | target
          · exact Capped.max_left hp (Capped.same _)
          · dsimp only
            refine Capped.max_left hp ?_
            rcases (parseExpression_capped l d rest).first with ⟨hp₂, ho₂, hx₂⟩ | ⟨hp₂, q, ho₂, hx₂⟩
            · rw [ho₂, hx₂]
              exact Capped.within hp₂ _
            · rw [ho₂, hx₂]
              exact Capped.passes hp₂ q _
        · exact Capped.max_left hp (Capped.same _)
  · rw [ho, hx]
    exact Capped.passes_first hp q _
termination_by (ts.length, 14)
decreasing_by all_goals (apply lex_of_lt_or; omega)

theorem parseOperand_capped (l d : Nat) (ts : List Token) :
    Capped l (peakOperand d ts) (overOperand l d ts) (parseOperand (some l) d ts)
      (parseOperand none d ts) := by
  match ts with
  | [] =>
    rw [peakOperand.eq_def, overOperand.eq_def, parseOperand.eq_def, parseOperand.eq_def]
    exact parseAdditive_capped l d []
  | t :: rest =>
    rw [peakOperand.eq_def, overOperand.eq_def, parseOperand.eq_def, parseOperand.eq_def]
    dsimp only
    split
    · exact parseFields_capped l d _ t.pos rest (by simp) #[]
    · exact parseAdditive_capped l d _
termination_by (ts.length, 13)
decreasing_by all_goals ((try simp only [List.length_cons]); apply lex_of_lt_or; omega)

theorem parseFields_capped (l d : Nat) (ts : List Token) (bp : Pos) (r : List Token)
    (hr : r.length < ts.length) (acc : Array Field) :
    Capped l (peakFields d r) (overFields l d r) (parseFields (some l) d ts bp r hr acc)
      (parseFields none d ts bp r hr acc) := by
  match r, hr with
  | [], _ =>
    rw [peakFields.eq_def, overFields.eq_def, parseFields.eq_def, parseFields.eq_def]
    exact Capped.same _
  | t :: rest, hr =>
    rw [peakFields.eq_def, overFields.eq_def, parseFields.eq_def, parseFields.eq_def]
    dsimp only
    split
    · exact Capped.same _
    · split
      · match rest, hr with
        | [], _ =>
          dsimp only
          split
          · exact Capped.same _
          · exact parseFieldsNext_capped l d ts bp [] _ _
        | c :: rest', _ =>
          dsimp only
          split
          · -- a value after `:`
            rcases (parseExpression_capped l d rest').first with ⟨hp, ho, hx⟩ | ⟨hp, q, ho, hx⟩
            · rw [ho, hx]
              rcases parseExpression none d rest' with e | ⟨v, r₂, hr₂⟩
              · exact Capped.max_left hp (Capped.same _)
              · exact Capped.max_left hp (parseFieldsNext_capped l d ts bp r₂ _ _)
            · rw [ho, hx]
              exact Capped.passes_first hp q _
          · split
            · exact Capped.same _
            · exact parseFieldsNext_capped l d ts bp _ _ _
      · exact Capped.same _
termination_by (r.length, 0)
decreasing_by all_goals ((try simp only [List.length_cons] at *); apply lex_of_lt_or; omega)

theorem parseFieldsNext_capped (l d : Nat) (ts : List Token) (bp : Pos) (r : List Token)
    (hr : r.length < ts.length) (acc : Array Field) :
    Capped l (peakFieldsNext d r) (overFieldsNext l d r)
      (parseFieldsNext (some l) d ts bp r hr acc) (parseFieldsNext none d ts bp r hr acc) := by
  match r, hr with
  | [], _ =>
    rw [peakFieldsNext.eq_def, overFieldsNext.eq_def, parseFieldsNext.eq_def,
      parseFieldsNext.eq_def]
    exact Capped.same _
  | t :: rest, hr =>
    rw [peakFieldsNext.eq_def, overFieldsNext.eq_def, parseFieldsNext.eq_def,
      parseFieldsNext.eq_def]
    dsimp only
    split
    · exact parseFields_capped l d ts bp rest _ acc
    · exact Capped.same _
termination_by (r.length, 0)
decreasing_by all_goals ((try simp only [List.length_cons]); apply lex_of_lt_or; omega)

theorem parseAdditive_capped (l d : Nat) (ts : List Token) :
    Capped l (peakAdditive d ts) (overAdditive l d ts) (parseAdditive (some l) d ts)
      (parseAdditive none d ts) := by
  rw [peakAdditive, overAdditive, parseAdditive.eq_def, parseAdditive.eq_def]
  rcases (parseMultiplicative_capped l d ts).first with ⟨hp, ho, hx⟩ | ⟨hp, q, ho, hx⟩
  · rw [ho, hx]
    rcases parseMultiplicative none d ts with e | ⟨lhs, r₁, hr₁⟩
    · exact Capped.max_left hp (Capped.same _)
    · exact Capped.max_left hp (additiveTail_capped l d ts lhs r₁ hr₁)
  · rw [ho, hx]
    exact Capped.passes_first hp q _
termination_by (ts.length, 12)
decreasing_by all_goals (apply lex_of_lt_or; omega)

theorem additiveTail_capped (l d : Nat) (ts : List Token) (lhs : Expr) (r : List Token)
    (hr : r.length < ts.length) :
    Capped l (peakAdditiveTail d r) (overAdditiveTail l d r) (additiveTail (some l) d ts lhs r hr)
      (additiveTail none d ts lhs r hr) := by
  match r, hr with
  | [], _ =>
    rw [peakAdditiveTail.eq_def, overAdditiveTail.eq_def, additiveTail.eq_def,
      additiveTail.eq_def]
    exact Capped.same _
  | t :: rest, hr =>
    rw [peakAdditiveTail.eq_def, overAdditiveTail.eq_def, additiveTail.eq_def,
      additiveTail.eq_def]
    dsimp only
    rcases additiveOp t.kind with _ | op
    · exact Capped.same _
    · dsimp only
      rcases (parseMultiplicative_capped l d rest).first with ⟨hp, ho, hx⟩ | ⟨hp, q, ho, hx⟩
      · rw [ho, hx]
        rcases parseMultiplicative none d rest with e | ⟨rhs, r₂, hr₂⟩
        · exact Capped.max_left hp (Capped.same _)
        · exact Capped.max_left hp (additiveTail_capped l d ts _ r₂ _)
      · rw [ho, hx]
        exact Capped.passes_first hp q _
termination_by (r.length, 0)
decreasing_by all_goals ((try simp only [List.length_cons] at *); apply lex_of_lt_or; omega)

theorem parseMultiplicative_capped (l d : Nat) (ts : List Token) :
    Capped l (peakMultiplicative d ts) (overMultiplicative l d ts)
      (parseMultiplicative (some l) d ts) (parseMultiplicative none d ts) := by
  rw [peakMultiplicative, overMultiplicative, parseMultiplicative.eq_def,
    parseMultiplicative.eq_def]
  rcases (parsePostfix_capped l d ts).first with ⟨hp, ho, hx⟩ | ⟨hp, q, ho, hx⟩
  · rw [ho, hx]
    rcases parsePostfix none d ts with e | ⟨lhs, r₁, hr₁⟩
    · exact Capped.max_left hp (Capped.same _)
    · exact Capped.max_left hp (multiplicativeTail_capped l d ts lhs r₁ hr₁)
  · rw [ho, hx]
    exact Capped.passes_first hp q _
termination_by (ts.length, 11)
decreasing_by all_goals (apply lex_of_lt_or; omega)

theorem multiplicativeTail_capped (l d : Nat) (ts : List Token) (lhs : Expr) (r : List Token)
    (hr : r.length < ts.length) :
    Capped l (peakMultiplicativeTail d r) (overMultiplicativeTail l d r)
      (multiplicativeTail (some l) d ts lhs r hr) (multiplicativeTail none d ts lhs r hr) := by
  match r, hr with
  | [], _ =>
    rw [peakMultiplicativeTail.eq_def, overMultiplicativeTail.eq_def,
      multiplicativeTail.eq_def, multiplicativeTail.eq_def]
    exact Capped.same _
  | t :: rest, hr =>
    rw [peakMultiplicativeTail.eq_def, overMultiplicativeTail.eq_def,
      multiplicativeTail.eq_def, multiplicativeTail.eq_def]
    dsimp only
    rcases multiplicativeOp t.kind with _ | op
    · exact Capped.same _
    · dsimp only
      rcases (parsePostfix_capped l d rest).first with ⟨hp, ho, hx⟩ | ⟨hp, q, ho, hx⟩
      · rw [ho, hx]
        rcases parsePostfix none d rest with e | ⟨rhs, r₂, hr₂⟩
        · exact Capped.max_left hp (Capped.same _)
        · exact Capped.max_left hp (multiplicativeTail_capped l d ts _ r₂ _)
      · rw [ho, hx]
        exact Capped.passes_first hp q _
termination_by (r.length, 0)
decreasing_by all_goals ((try simp only [List.length_cons] at *); apply lex_of_lt_or; omega)

theorem parsePostfix_capped (l d : Nat) (ts : List Token) :
    Capped l (peakPostfix d ts) (overPostfix l d ts) (parsePostfix (some l) d ts)
      (parsePostfix none d ts) := by
  rw [peakPostfix, overPostfix, parsePostfix.eq_def, parsePostfix.eq_def]
  rcases (parsePrimary_capped l d ts).first with ⟨hp, ho, hx⟩ | ⟨hp, q, ho, hx⟩
  · rw [ho, hx]
    rcases parsePrimary none d ts with e | ⟨a, r₁, hr₁⟩
    · exact Capped.max_left hp (Capped.same _)
    · exact Capped.max_left hp (postfixTail_capped l d ts a r₁ hr₁)
  · rw [ho, hx]
    exact Capped.passes_first hp q _
termination_by (ts.length, 10)
decreasing_by all_goals (apply lex_of_lt_or; omega)

theorem postfixTail_capped (l d : Nat) (ts : List Token) (a : Expr) (r : List Token)
    (hr : r.length < ts.length) :
    Capped l (peakPostfixTail d r) (overPostfixTail l d r) (postfixTail (some l) d ts a r hr)
      (postfixTail none d ts a r hr) := by
  match r, hr with
  | [], _ =>
    rw [peakPostfixTail.eq_def, overPostfixTail.eq_def, postfixTail.eq_def, postfixTail.eq_def]
    exact Capped.same _
  | t :: rest, hr =>
    rw [peakPostfixTail.eq_def, overPostfixTail.eq_def, postfixTail.eq_def, postfixTail.eq_def]
    dsimp only
    split
    · -- a member `.name`
      rcases expect .ident rest with e | ⟨name, r₂, hr₂⟩
      · exact Capped.same _
      · exact postfixTail_capped l d ts _ r₂ _
    · split
      · -- an index `[key]`
        rcases (parseExpression_capped l d rest).first with ⟨hp, ho, hx⟩ | ⟨hp, q, ho, hx⟩
        · rw [ho, hx]
          rcases parseExpression none d rest with e | ⟨key, r₂, hr₂⟩
          · exact Capped.max_left hp (Capped.same _)
          · dsimp only
            rcases expect .rbracket r₂ with e | ⟨u, r₃, hr₃⟩
            · exact Capped.max_left hp (Capped.same _)
            · exact Capped.max_left hp (postfixTail_capped l d ts _ r₃ _)
        · rw [ho, hx]
          exact Capped.passes_first hp q _
      · split
        · -- a call `(args)`
          rcases (parseArgs_capped l d .rparen rest rest (Nat.le_refl _) #[]).first with
            ⟨hp, ho, hx⟩ | ⟨hp, q, ho, hx⟩
          · rw [ho, hx]
            rcases parseArgs none d .rparen rest rest (Nat.le_refl _) #[] with
              e | ⟨args, r₂, hr₂⟩
            · exact Capped.max_left hp (Capped.same _)
            · exact Capped.max_left hp (postfixTail_capped l d ts _ r₂ _)
          · rw [ho, hx]
            exact Capped.passes_first hp q _
        · exact Capped.same _
termination_by (r.length, 0)
decreasing_by all_goals ((try simp only [List.length_cons] at *); apply lex_of_lt_or; omega)

theorem parseArgs_capped (l d : Nat) (closer : TokenKind) (ts r : List Token)
    (hr : r.length ≤ ts.length) (acc : Array Expr) :
    Capped l (peakArgs d closer r) (overArgs l d closer r)
      (parseArgs (some l) d closer ts r hr acc) (parseArgs none d closer ts r hr acc) := by
  rw [peakArgs.eq_def, overArgs.eq_def, parseArgs.eq_def, parseArgs.eq_def]
  split
  · exact Capped.same _
  · rcases (parseExpression_capped l d r).first with ⟨hp, ho, hx⟩ | ⟨hp, q, ho, hx⟩
    · rw [ho, hx]
      rcases parseExpression none d r with e | ⟨arg, r₁, hr₁⟩
      · exact Capped.max_left hp (Capped.same _)
      · cases r₁ with
        | nil => exact Capped.max_left hp (Capped.same _)
        | cons t rest =>
          have hlt : rest.length < r.length := Nat.lt_of_succ_lt hr₁
          dsimp only
          split
          · exact Capped.max_left hp (parseArgs_capped l d closer ts rest _ _)
          · exact Capped.max_left hp (Capped.same _)
    · rw [ho, hx]
      exact Capped.passes_first hp q _
termination_by (r.length, 16)
decreasing_by all_goals (apply lex_of_lt_or; omega)

theorem parsePrimary_capped (l d : Nat) (ts : List Token) :
    Capped l (peakPrimary d ts) (overPrimary l d ts) (parsePrimary (some l) d ts)
      (parsePrimary none d ts) := by
  match ts with
  | [] =>
    rw [peakPrimary.eq_def, overPrimary.eq_def, parsePrimary.eq_def, parsePrimary.eq_def]
    exact Capped.same _
  | t :: rest =>
    rw [peakPrimary.eq_def, overPrimary.eq_def, parsePrimary.eq_def, parsePrimary.eq_def]
    dsimp only
    -- the kind of the first token chooses the primary; only brackets read more expressions
    cases t.kind
    case lparen =>
      dsimp only
      rcases (parseExpression_capped l d rest).first with ⟨hp, ho, hx⟩ | ⟨hp, q, ho, hx⟩
      · rw [ho, hx]
        exact Capped.within hp _
      · rw [ho, hx]
        exact Capped.passes hp q _
    case lbracket =>
      dsimp only
      rcases (parseArgs_capped l d .rbracket rest rest (Nat.le_refl _) #[]).first with
        ⟨hp, ho, hx⟩ | ⟨hp, q, ho, hx⟩
      · rw [ho, hx]
        exact Capped.within hp _
      · rw [ho, hx]
        exact Capped.passes hp q _
    all_goals exact Capped.same _
termination_by (ts.length, 9)
decreasing_by all_goals ((try simp only [List.length_cons]); apply lex_of_lt_or; omega)

end

/-! ### Statements -/

theorem parseExprStmt_capped (l d : Nat) (ts : List Token) :
    Capped l (peakExpression d ts) (overExpression l d ts) (parseExprStmt (some l) d ts)
      (parseExprStmt none d ts) := by
  rw [parseExprStmt.eq_def, parseExprStmt.eq_def]
  rcases (parseExpression_capped l d ts).first with ⟨hp, ho, hx⟩ | ⟨hp, q, ho, hx⟩
  · rw [ho, hx]
    exact Capped.within hp _
  · rw [ho, hx]
    exact Capped.passes hp q _

theorem parseVarTail_capped (l d : Nat) (ts : List Token) (start : Pos) (isConst : Bool)
    (r : List Token) (hr : r.length < ts.length) :
    Capped l (peakVarTail d r) (overVarTail l d r) (parseVarTail (some l) d ts start isConst r hr)
      (parseVarTail none d ts start isConst r hr) := by
  rw [peakVarTail.eq_def, overVarTail.eq_def, parseVarTail.eq_def, parseVarTail.eq_def]
  rcases expect .ident r with e | ⟨name, r₁, h₁⟩
  · exact Capped.same _
  · dsimp only
    cases r₁ with
    | nil => exact Capped.same _
    | cons t rest =>
      dsimp only
      split
      · -- the initializer after `=`
        rcases (parseExpression_capped l d rest).first with ⟨hp, ho, hx⟩ | ⟨hp, q, ho, hx⟩
        · rw [ho, hx]
          exact Capped.within hp _
        · rw [ho, hx]
          exact Capped.passes hp q _
      · exact Capped.same _

theorem parseRet_capped (l d : Nat) (ts : List Token) (start : Pos) (r : List Token)
    (hr : r.length < ts.length) :
    Capped l (peakRet d r) (overRet l d r) (parseRet (some l) d ts start r hr)
      (parseRet none d ts start r hr) := by
  rw [peakRet, overRet, parseRet.eq_def, parseRet.eq_def]
  split
  · exact Capped.same _
  · rcases (parseExpression_capped l d r).first with ⟨hp, ho, hx⟩ | ⟨hp, q, ho, hx⟩
    · rw [ho, hx]
      exact Capped.within hp _
    · rw [ho, hx]
      exact Capped.passes hp q _

mutual

theorem parseStatement_capped (l d : Nat) (ts : List Token) :
    Capped l (peakStatement d ts) (overStatement l d ts) (parseStatement (some l) d ts)
      (parseStatement none d ts) := by
  match ts with
  | [] =>
    rw [peakStatement.eq_def, overStatement.eq_def, parseStatement.eq_def,
      parseStatement.eq_def]
    exact parseExprStmt_capped l d []
  | t :: rest =>
    rw [peakStatement.eq_def, overStatement.eq_def, parseStatement.eq_def,
      parseStatement.eq_def]
    dsimp only
    -- the kind of the first token chooses the statement; any other starts an expression
    cases t.kind
    case keyword k =>
      cases k
      case letKw =>
        cases rest with
        | nil => exact parseVarTail_capped l d _ _ _ [] _
        | cons m rest' =>
          dsimp only
          split
          · exact parseVarTail_capped l d _ _ _ rest' _
          · exact parseVarTail_capped l d _ _ _ _ _
      case constKw => exact parseVarTail_capped l d _ _ true rest _
      case funcKw => exact parseFunc_capped l d _ _ rest _
      case retKw => exact parseRet_capped l d _ _ rest _
      case ifKw => exact parseIf_capped l d _
      case forKw => exact parseFor_capped l d _ _ rest _
      all_goals exact parseExprStmt_capped l d _
    all_goals exact parseExprStmt_capped l d _
termination_by (ts.length, 20)
decreasing_by all_goals ((try simp only [List.length_cons]); apply lex_of_lt_or; omega)

theorem parseFunc_capped (l d : Nat) (ts : List Token) (start : Pos) (r : List Token)
    (hr : r.length < ts.length) :
    Capped l (peakFunc d r) (overFunc l d r) (parseFunc (some l) d ts start r hr)
      (parseFunc none d ts start r hr) := by
  rw [peakFunc.eq_def, overFunc.eq_def, parseFunc.eq_def, parseFunc.eq_def]
  rcases expect .ident r with e | ⟨name, r₁, h₁⟩
  · exact Capped.same _
  · dsimp only
    rcases expect .lparen r₁ with e | ⟨u, r₂, h₂⟩
    · exact Capped.same _
    · dsimp only
      rcases parseParams r₂ #[] with e | ⟨ps, r₃, hr₃⟩
      · exact Capped.same _
      · dsimp only
        rcases expect .rparen r₃ with e | ⟨u', r₄, h₄⟩
        · exact Capped.same _
        · -- the body
          dsimp only
          rcases (parseBlock_capped l d r₄).first with ⟨hp, ho, hx⟩ | ⟨hp, q, ho, hx⟩
          · rw [ho, hx]
            exact Capped.within hp _
          · rw [ho, hx]
            exact Capped.passes hp q _
termination_by (r.length, 0)
decreasing_by all_goals (apply lex_of_lt_or; omega)

theorem parseIf_capped (l d : Nat) (ts : List Token) :
    Capped l (peakIf d ts) (overIf l d ts) (parseIf (some l) d ts) (parseIf none d ts) := by
  rw [peakIf.eq_def, overIf.eq_def, parseIf.eq_def, parseIf.eq_def]
  rcases expect (.keyword .ifKw) ts with e | ⟨ifTok, r₁, h₁⟩
  · exact Capped.same _
  · dsimp only
    rcases (parseExpression_capped l d r₁).first with ⟨hpc, hoc, hxc⟩ | ⟨hpc, q, hoc, hxc⟩
    · rw [hoc, hxc]
      rcases parseExpression none d r₁ with e | ⟨c, r₂, hr₂⟩
      · exact Capped.max_left hpc (Capped.same _)
      · dsimp only
        refine Capped.max_left hpc ?_
        rcases (parseBlock_capped l d r₂).first with ⟨hpb, hob, hxb⟩ | ⟨hpb, q, hob, hxb⟩
        · rw [hob, hxb]
          rcases parseBlock none d r₂ with e | ⟨th, r₃, hr₃⟩
          · exact Capped.max_left hpb (Capped.same _)
          · dsimp only
            refine Capped.max_left hpb ?_
            cases r₃ with
            | nil => exact Capped.same _
            | cons t rest =>
              have hlt : rest.length + 1 < r₂.length := hr₃
              dsimp only
              split
              · split
                · -- `else if`: one level deeper, then the nested `if` from there
                  rcases (enter_capped l d rest).first with ⟨hd, hod, hxd⟩ | ⟨hd, q, hod, hxd⟩
                  · rw [hod, hxd, enter_none]
                    dsimp only
                    refine Capped.max_left hd ?_
                    rcases (parseIf_capped l (d + 1) rest).first with
                      ⟨hpn, hon, hxn⟩ | ⟨hpn, q, hon, hxn⟩
                    · rw [hon, hxn]
                      exact Capped.within hpn _
                    · rw [hon, hxn]
                      exact Capped.passes hpn q _
                  · rw [hod, hxd]
                    exact Capped.passes_first hd q _
                · rcases (parseBlock_capped l d rest).first with
                    ⟨hpe, hoe, hxe⟩ | ⟨hpe, q, hoe, hxe⟩
                  · rw [hoe, hxe]
                    exact Capped.within hpe _
                  · rw [hoe, hxe]
                    exact Capped.passes hpe q _
              · exact Capped.same _
        · rw [hob, hxb]
          exact Capped.passes_first hpb q _
    · rw [hoc, hxc]
      exact Capped.passes_first hpc q _
termination_by (ts.length, 19)
decreasing_by all_goals (apply lex_of_lt_or; omega)

theorem parseFor_capped (l d : Nat) (ts : List Token) (start : Pos) (r : List Token)
    (hr : r.length < ts.length) :
    Capped l (peakFor d r) (overFor l d r) (parseFor (some l) d ts start r hr)
      (parseFor none d ts start r hr) := by
  rw [peakFor.eq_def, overFor.eq_def, parseFor.eq_def, parseFor.eq_def]
  dsimp only
  have h₀ : (if kindAt r = .lparen then r.drop 1 else r).length ≤ r.length := by
    split <;> simp
  rcases expect .ident (if kindAt r = .lparen then r.drop 1 else r) with e | ⟨name, r₁, h₁⟩
  · exact Capped.same _
  · dsimp only
    rcases expect (.keyword .inKw) r₁ with e | ⟨u, r₂, h₂⟩
    · exact Capped.same _
    · dsimp only
      rcases (parseExpression_capped l d r₂).first with ⟨hp, ho, hx⟩ | ⟨hp, q, ho, hx⟩
      · rw [ho, hx]
        rcases parseExpression none d r₂ with e | ⟨it, r₃, hr₃⟩
        · exact Capped.max_left hp (Capped.same _)
        · dsimp only
          refine Capped.max_left hp ?_
          split
          · -- with parentheses: the `)` after the iterable, then the body
            rcases expect .rparen r₃ with e | ⟨u', r₄, h₄⟩
            · exact Capped.same _
            · dsimp only
              rcases (parseBlock_capped l d r₄).first with ⟨hp₅, ho₅, hx₅⟩ | ⟨hp₅, q, ho₅, hx₅⟩
              · rw [ho₅, hx₅]
                exact Capped.within hp₅ _
              · rw [ho₅, hx₅]
                exact Capped.passes hp₅ q _
          · rcases (parseBlock_capped l d r₃).first with ⟨hp₅, ho₅, hx₅⟩ | ⟨hp₅, q, ho₅, hx₅⟩
            · rw [ho₅, hx₅]
              exact Capped.within hp₅ _
            · rw [ho₅, hx₅]
              exact Capped.passes hp₅ q _
      · rw [ho, hx]
        exact Capped.passes_first hp q _
termination_by (r.length, 0)
decreasing_by all_goals (apply lex_of_lt_or; omega)

theorem parseBlock_capped (l d : Nat) (ts : List Token) :
    Capped l (peakBlock d ts) (overBlock l d ts) (parseBlock (some l) d ts)
      (parseBlock none d ts) := by
  rw [peakBlock.eq_def, overBlock.eq_def, parseBlock.eq_def, parseBlock.eq_def]
  rcases expect .lbrace ts with e | ⟨u, r₁, h₁⟩
  · exact Capped.same _
  · dsimp only
    rcases (enter_capped l d r₁).first with ⟨hd, ho, hx⟩ | ⟨hd, q, ho, hx⟩
    · rw [ho, hx, enter_none]
      exact Capped.max_left hd (parseBlockBody_capped l (d + 1) ts r₁ h₁ #[])
    · rw [ho, hx]
      exact Capped.passes_first hd q _
termination_by (ts.length, 0)
decreasing_by all_goals (apply lex_of_lt_or; omega)

theorem parseBlockBody_capped (l d : Nat) (ts r : List Token) (hr : r.length < ts.length)
    (acc : Array Stmt) :
    Capped l (peakBlockBody d r) (overBlockBody l d r) (parseBlockBody (some l) d ts r hr acc)
      (parseBlockBody none d ts r hr acc) := by
  match r, hr with
  | [], _ =>
    rw [peakBlockBody.eq_def, overBlockBody.eq_def, parseBlockBody.eq_def,
      parseBlockBody.eq_def]
    exact Capped.same _
  | t :: rest, hr =>
    rw [peakBlockBody.eq_def, overBlockBody.eq_def, parseBlockBody.eq_def,
      parseBlockBody.eq_def]
    dsimp only
    split
    · exact Capped.same _
    · split
      · exact Capped.same _
      · split
        · exact parseBlockBody_capped l d ts rest _ acc
        · rcases (parseStatement_capped l d (t :: rest)).first with
            ⟨hp, ho, hx⟩ | ⟨hp, q, ho, hx⟩
          · rw [ho, hx]
            rcases parseStatement none d (t :: rest) with e | ⟨s, r₁, hr₁⟩
            · exact Capped.max_left hp (Capped.same _)
            · have hlt : r₁.length < rest.length + 1 := hr₁
              exact Capped.max_left hp (parseBlockBody_capped l d ts r₁ _ (acc.push s))
          · rw [ho, hx]
            exact Capped.passes_first hp q _
termination_by (r.length, 21)
decreasing_by all_goals ((try simp only [List.length_cons]); apply lex_of_lt_or; omega)

end

/-! ### Programs -/

theorem parseProgramFrom_capped (l : Nat) (ts : List Token) (acc : Array Stmt) :
    Capped l (peakProgramFrom ts) (overProgramFrom l ts) (parseProgramFrom (some l) ts acc)
      (parseProgramFrom none ts acc) := by
  match ts with
  | [] =>
    rw [peakProgramFrom.eq_def, overProgramFrom.eq_def, parseProgramFrom.eq_def,
      parseProgramFrom.eq_def]
    exact Capped.same _
  | t :: rest =>
    rw [peakProgramFrom.eq_def, overProgramFrom.eq_def, parseProgramFrom.eq_def,
      parseProgramFrom.eq_def]
    dsimp only
    split
    · exact Capped.same _
    · split
      · exact parseProgramFrom_capped l rest acc
      · -- every statement of a program is read from level zero
        rcases (parseStatement_capped l 0 (t :: rest)).first with ⟨hp, ho, hx⟩ | ⟨hp, q, ho, hx⟩
        · rw [ho, hx]
          rcases parseStatement none 0 (t :: rest) with e | ⟨s, r, hr⟩
          · exact Capped.max_left hp (Capped.same _)
          · have hlt : r.length < rest.length + 1 := hr
            exact Capped.max_left hp (parseProgramFrom_capped l r (acc.push s))
        · rw [ho, hx]
          exact Capped.passes_first hp q _
termination_by ts.length
decreasing_by all_goals (simp only [List.length_cons]; omega)

/-- Under the limit `l` the parser returns what it returns with no limit, cut with the depth
error where the counter of the run with no limit first passes `l`; it passes `l` exactly when
the nesting peak is above `l`. -/
theorem parseTokensWith_capped (l : Nat) (ts : List Token) :
    Capped l (nestingPeak ts) (firstPassing l ts) (parseTokensWith (some l) ts)
      (parseTokensWith none ts) :=
  parseProgramFrom_capped l _ #[]

theorem parseTokensWith_of_peak_le {l : Nat} {ts : List Token} (h : nestingPeak ts ≤ l) :
    parseTokensWith (some l) ts = parseTokensWith none ts := by
  obtain ⟨hiff, hx⟩ := parseTokensWith_capped l ts
  rw [hx, hiff.2 h]
  rfl

theorem closeTokens_ends (ts : List Token) :
    ∃ e, (closeTokens ts).getLast? = some e ∧ e.kind = .eof := by
  unfold closeTokens
  cases h : ts.getLast? with
  | none => exact ⟨_, rfl, rfl⟩
  | some t =>
    dsimp only
    split
    · next hk => exact ⟨t, h, hk⟩
    · exact ⟨_, List.getLast?_concat, rfl⟩

/-- Every failure of the parser, under any limit, is placed at one of the tokens it reads. -/
theorem parseTokensWith_error_at (limit : Option Nat) {ts : List Token} {e : Error}
    (he : parseTokensWith limit ts = .error e) : ∃ t ∈ closeTokens ts, e.pos = some t.pos := by
  have hN : Ended (fun q => ∃ t ∈ closeTokens ts, t.pos = q) (closeTokens ts) :=
    ⟨fun t ht => ⟨t, ht, rfl⟩, closeTokens_ends ts⟩
  obtain ⟨q, hq, t, ht, rfl⟩ := (parseProgramFrom_placed (closeTokens ts) #[] hN trivial).2 e he
  exact ⟨t, ht, hq⟩

/-- `parseTokens` returns what the parser returns with no limit when the nesting peak of the
tokens is at most `maxNesting`. Past it, the counter of the run with no limit passes
`maxNesting` somewhere, and `parseTokens` fails with the depth error, not marked incomplete, at
the current token of the moment it first does, which is one of the tokens. -/
theorem parseTokens_nestingLimit (ts : List Token) :
    (nestingPeak ts ≤ maxNesting → parseTokens ts = parseTokensWith none ts) ∧
    (maxNesting < nestingPeak ts → ∃ e p, parseTokens ts = .error e ∧
      firstPassing maxNesting ts = some p ∧ e.pos = some p ∧
      e.fault = .nestingTooDeep maxNesting ∧ e.incomplete = false ∧
      ∃ t ∈ closeTokens ts, p = t.pos) := by
  refine ⟨parseTokensWith_of_peak_le, fun hp => ?_⟩
  rcases (parseTokensWith_capped maxNesting ts).first with ⟨hle, -⟩ | ⟨-, p, ho, hx⟩
  · omega
  · obtain ⟨t, ht, hpos⟩ := parseTokensWith_error_at _ hx
    exact ⟨depthError maxNesting p, p, hx, ho, rfl, rfl, rfl, t, ht, Option.some.inj hpos⟩

end Treewalk.Parser
