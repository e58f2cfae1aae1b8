import Treewalk.Syntax.Ast
import Treewalk.Syntax.Lexer
/-!
# Reading tokens into a program

A recursive descent over the token list. Assignment is right associative and binds loosest;
then an object literal (only where a `{` starts the operand) or the additive level (`+ - == !=
< >`), the multiplicative level (`* / %`), and calls and members applied left to right to a
primary expression. Every failure is reported at the token where it is found, and is marked
incomplete exactly when that token is the end of input.

Expressions, blocks and `else if` raise the nesting count by one; with a limit, a count above
it fails at the token where it is reached. Every parse step returns the remaining tokens with a
proof that at least one was consumed, which is also why the parser terminates.
-/
namespace Treewalk.Parser

set_option linter.unusedSimpArgs false

/-- The deepest nesting of expressions and blocks that a program may have. -/
def maxNesting : Nat := 1000

abbrev Rest (ts : List Token) := { r : List Token // r.length < ts.length }

/-- The outcome of a parse step on `ts`: a result and the rest, or an error. -/
abbrev Parsed (ts : List Token) (α : Type) := Except Error (α × Rest ts)

def current : List Token → Token
  | t :: _ => t
  | [] => ⟨.eof, "", ⟨0, 0, 0⟩⟩

def kindAt (ts : List Token) : TokenKind := (current ts).kind

/-- A failure found at the current token, incomplete when that token is the end of input. -/
def failAt (ts : List Token) (f : Fault) : Error :=
  { fault := f, pos := some (current ts).pos, incomplete := (current ts).kind == .eof }

def expect (k : TokenKind) : (ts : List Token) → Parsed ts Token
  | t :: rest =>
    if t.kind = k then .ok (t, ⟨rest, by simp⟩)
    else .error (failAt (t :: rest) (.expected k t.kind))
  | [] => .error (failAt [] (.expected k .eof))

/-- Enters one more level of nesting, failing past the limit at the current token. -/
def enter (limit : Option Nat) (depth : Nat) (ts : List Token) : Except Error Nat :=
  match limit with
  | some l =>
    if depth + 1 > l then .error { fault := .nestingTooDeep l, pos := some (current ts).pos }
    else .ok (depth + 1)
  | none => .ok (depth + 1)

def additiveOp : TokenKind → Option BinOp
  | .plus => some .add
  | .minus => some .sub
  | .eqEq => some .eq
  | .bangEq => some .ne
  | .less => some .lt
  | .greater => some .gt
  | _ => none

def multiplicativeOp : TokenKind → Option BinOp
  | .star => some .mul
  | .slash => some .div
  | .percent => some .mod
  | _ => none

/-- The parameter names of a function up to its `)`, which is left in place: names separated
by commas, a trailing comma allowed. -/
def parseParams (ts : List Token) (acc : Array String) :
    Except Error (List String × { r : List Token // r.length ≤ ts.length }) :=
  if kindAt ts = .rparen then .ok (acc.toList, ⟨ts, Nat.le_refl _⟩)
  else
    match expect .ident ts with
    | .error e => .error e
    | .ok (name, ⟨r, hr⟩) =>
      match r with
      | t :: rest =>
        if t.kind = .comma then
          match parseParams rest (acc.push name.lexeme) with
          | .error e => .error e
          | .ok (ps, ⟨r', hr'⟩) => .ok (ps, ⟨r', by simp at hr hr' ⊢; omega⟩)
        else .ok ((acc.push name.lexeme).toList, ⟨t :: rest, Nat.le_of_lt hr⟩)
      | [] => .ok ((acc.push name.lexeme).toList, ⟨[], Nat.zero_le _⟩)
termination_by ts.length
decreasing_by simp at hr; omega

theorem lex_of_lt_or {a b c d : Nat} (h : a < c ∨ (a = c ∧ b < d)) :
    Prod.Lex (fun x y : Nat => x < y) (fun x y : Nat => x < y) (a, b) (c, d) :=
  Prod.lex_def.2 h

mutual

/-- An expression, one level of nesting deeper. -/
def parseExpression (limit : Option Nat) (depth : Nat) (ts : List Token) : Parsed ts Expr :=
  match enter limit depth ts with
  | .error e => .error e
  | .ok d => parseAssignment limit d ts
termination_by (ts.length, 15)

/-- An assignment `target = value`, right associative, or the operand alone. -/
def parseAssignment (limit : Option Nat) (depth : Nat) (ts : List Token) : Parsed ts Expr :=
  match parseOperand limit depth ts with
  | .error e => .error e
  | .ok (lhs, ⟨r, hr⟩) =>
    match r with
    | t :: rest =>
      if t.kind = .assign then
        match lhs.toTarget? with
        | none => .error (failAt (t :: rest) .invalidTarget)
        | some target =>
          match parseExpression limit depth rest with
          | .error e => .error e
          | .ok (value, ⟨r', hr'⟩) =>
            .ok (.assign target value, ⟨r', by simp at hr hr'; omega⟩)
      else .ok (lhs, ⟨t :: rest, hr⟩)
    | [] => .ok (lhs, ⟨[], hr⟩)
termination_by (ts.length, 14)
decreasing_by
  all_goals ((try simp only [List.length_cons, List.length_nil] at *); apply lex_of_lt_or; omega)

/-- An object literal where a `{` starts the operand, else the additive level. -/
def parseOperand (limit : Option Nat) (depth : Nat) (ts : List Token) : Parsed ts Expr :=
  match ts with
  | t :: rest =>
    if t.kind = .lbrace then
      parseFields limit depth (t :: rest) t.pos rest (by simp) #[]
    else parseAdditive limit depth (t :: rest)
  | [] => parseAdditive limit depth []
termination_by (ts.length, 13)

/-- The properties of an object literal after its `{`, up to and including its `}`: names or
strings, each followed by `: value` or (for a name) alone, separated by commas. -/
def parseFields (limit : Option Nat) (depth : Nat) (ts : List Token) (bracePos : Pos)
    (r : List Token) (hr : r.length < ts.length) (acc : Array Field) : Parsed ts Expr :=
  match r with
  | t :: rest =>
    if t.kind = .rbrace then .ok (.object acc.toList bracePos, ⟨rest, by simp at hr; omega⟩)
    else if t.kind = .ident ∨ t.kind = .string then
      match rest with
      | c :: rest' =>
        if c.kind = .colon then
          match parseExpression limit depth rest' with
          | .error e => .error e
          | .ok (value, ⟨r', hr'⟩) =>
            parseFieldsNext limit depth ts bracePos r' (by simp at hr hr' ⊢; omega)
              (acc.push (.keyed t.lexeme t.pos value))
        else if t.kind = .string then .error (failAt (c :: rest') (.expectedColon t.lexeme))
        else parseFieldsNext limit depth ts bracePos (c :: rest') (by simp at hr ⊢; omega)
          (acc.push (.shorthand t.lexeme t.pos))
      | [] =>
        if t.kind = .string then .error (failAt [] (.expectedColon t.lexeme))
        else parseFieldsNext limit depth ts bracePos [] (by simp at hr ⊢; omega)
          (acc.push (.shorthand t.lexeme t.pos))
    else .error (failAt (t :: rest) (.expectedPropertyName t.kind))
  | [] => .error (failAt [] (.expectedPropertyName .eof))
termination_by (r.length, 0)
decreasing_by
  all_goals ((try simp only [List.length_cons, List.length_nil] at *); apply lex_of_lt_or; omega)

def parseFieldsNext (limit : Option Nat) (depth : Nat) (ts : List Token) (bracePos : Pos)
    (r : List Token) (hr : r.length < ts.length) (acc : Array Field) : Parsed ts Expr :=
  match r with
  | t :: rest =>
    if t.kind = .comma then parseFields limit depth ts bracePos rest (by simp at hr; omega) acc
    else
      match expect .rbrace (t :: rest) with
      | .error e => .error e
      | .ok (_, ⟨r', hr'⟩) => .ok (.object acc.toList bracePos, ⟨r', by omega⟩)
  | [] => .error (failAt [] (.expected .rbrace .eof))
termination_by (r.length, 0)
decreasing_by
  all_goals ((try simp only [List.length_cons, List.length_nil] at *); apply lex_of_lt_or; omega)

def parseAdditive (limit : Option Nat) (depth : Nat) (ts : List Token) : Parsed ts Expr :=
  match parseMultiplicative limit depth ts with
  | .error e => .error e
  | .ok (lhs, ⟨r, hr⟩) => additiveTail limit depth ts lhs r hr
termination_by (ts.length, 12)

def additiveTail (limit : Option Nat) (depth : Nat) (ts : List Token) (lhs : Expr)
    (r : List Token) (hr : r.length < ts.length) : Parsed ts Expr :=
  match r with
  | t :: rest =>
    match additiveOp t.kind with
    | some op =>
      match parseMultiplicative limit depth rest with
      | .error e => .error e
      | .ok (rhs, ⟨r', hr'⟩) =>
        additiveTail limit depth ts (.binary op lhs rhs t.pos) r' (by simp at hr hr' ⊢; omega)
    | none => .ok (lhs, ⟨t :: rest, hr⟩)
  | [] => .ok (lhs, ⟨[], hr⟩)
termination_by (r.length, 0)
decreasing_by
  all_goals ((try simp only [List.length_cons, List.length_nil] at *); apply lex_of_lt_or; omega)

/-- The multiplicative level: call and member expressions joined left to right. -/
def parseMultiplicative (limit : Option Nat) (depth : Nat) (ts : List Token) : Parsed ts Expr :=
  match parsePostfix limit depth ts with
  | .error e => .error e
  | .ok (lhs, ⟨r, hr⟩) => multiplicativeTail limit depth ts lhs r hr
termination_by (ts.length, 11)

def multiplicativeTail (limit : Option Nat) (depth : Nat) (ts : List Token) (lhs : Expr)
    (r : List Token) (hr : r.length < ts.length) : Parsed ts Expr :=
  match r with
  | t :: rest =>
    match multiplicativeOp t.kind with
    | some op =>
      match parsePostfix limit depth rest with
      | .error e => .error e
      | .ok (rhs, ⟨r', hr'⟩) =>
        multiplicativeTail limit depth ts (.binary op lhs rhs t.pos) r'
          (by simp at hr hr' ⊢; omega)
    | none => .ok (lhs, ⟨t :: rest, hr⟩)
  | [] => .ok (lhs, ⟨[], hr⟩)
termination_by (r.length, 0)
decreasing_by
  all_goals ((try simp only [List.length_cons, List.length_nil] at *); apply lex_of_lt_or; omega)

/-- A primary expression followed by members `.name`, indexes `[key]` and calls `(args)`. -/
def parsePostfix (limit : Option Nat) (depth : Nat) (ts : List Token) : Parsed ts Expr :=
  match parsePrimary limit depth ts with
  | .error e => .error e
  | .ok (e, ⟨r, hr⟩) => postfixTail limit depth ts e r hr
termination_by (ts.length, 10)

def postfixTail (limit : Option Nat) (depth : Nat) (ts : List Token) (e : Expr)
    (r : List Token) (hr : r.length < ts.length) : Parsed ts Expr :=
  match r with
  | t :: rest =>
    if t.kind = .dot then
      match expect .ident rest with
      | .error err => .error err
      | .ok (name, ⟨r', hr'⟩) =>
        postfixTail limit depth ts (.member e name.lexeme name.pos t.pos) r'
          (by simp at hr hr' ⊢; omega)
    else if t.kind = .lbracket then
      match parseExpression limit depth rest with
      | .error err => .error err
      | .ok (key, ⟨r', hr'⟩) =>
        match expect .rbracket r' with
        | .error err => .error err
        | .ok (_, ⟨r'', hr''⟩) =>
          postfixTail limit depth ts (.index e key t.pos) r'' (by simp at hr hr' ⊢; omega)
    else if t.kind = .lparen then
      match parseArgs limit depth .rparen rest rest (Nat.le_refl _) #[] with
      | .error err => .error err
      | .ok (args, ⟨r', hr'⟩) =>
        postfixTail limit depth ts (.call e args t.pos) r' (by simp at hr hr' ⊢; omega)
    else .ok (e, ⟨t :: rest, hr⟩)
  | [] => .ok (e, ⟨[], hr⟩)
termination_by (r.length, 0)
decreasing_by
  all_goals ((try simp only [List.length_cons, List.length_nil] at *); apply lex_of_lt_or; omega)

/-- Expressions separated by commas up to and including the `closer`, a trailing comma
allowed. -/
def parseArgs (limit : Option Nat) (depth : Nat) (closer : TokenKind) (ts : List Token)
    (r : List Token) (hr : r.length ≤ ts.length) (acc : Array Expr) : Parsed ts (List Expr) :=
  if kindAt r = closer then
    match expect closer r with
    | .error e => .error e
    | .ok (_, ⟨r', hr'⟩) => .ok (acc.toList, ⟨r', by omega⟩)
  else
    match parseExpression limit depth r with
    | .error e => .error e
    | .ok (arg, ⟨r', hr'⟩) =>
      match r' with
      | t :: rest =>
        if t.kind = .comma then
          parseArgs limit depth closer ts rest (by simp at hr'; omega) (acc.push arg)
        else
          match expect closer (t :: rest) with
          | .error e => .error e
          | .ok (_, ⟨r'', hr''⟩) => .ok ((acc.push arg).toList, ⟨r'', by omega⟩)
      | [] => .error (failAt [] (.expected closer .eof))
termination_by (r.length, 16)
decreasing_by
  all_goals ((try simp only [List.length_cons, List.length_nil] at *); apply lex_of_lt_or; omega)

def parsePrimary (limit : Option Nat) (depth : Nat) (ts : List Token) : Parsed ts Expr :=
  match ts with
  | t :: rest =>
    match t.kind with
    | .ident => .ok (.ident t.lexeme t.pos, ⟨rest, by simp⟩)
    | .number => .ok (.num (Numeral.ofLexeme t.lexeme).toFloat t.pos, ⟨rest, by simp⟩)
    | .string => .ok (.str t.lexeme t.pos, ⟨rest, by simp⟩)
    | .lparen =>
      match parseExpression limit depth rest with
      | .error e => .error e
      | .ok (e, ⟨r, hr⟩) =>
        match expect .rparen r with
        | .error err => .error err
        | .ok (_, ⟨r', hr'⟩) => .ok (e, ⟨r', by simp; omega⟩)
    | .lbracket =>
      match parseArgs limit depth .rbracket rest rest (Nat.le_refl _) #[] with
      | .error e => .error e
      | .ok (elems, ⟨r, hr⟩) => .ok (.array elems t.pos, ⟨r, by simp; omega⟩)
    | k => .error (failAt (t :: rest) (.unexpectedToken k))
  | [] => .error (failAt [] (.unexpectedToken .eof))
termination_by (ts.length, 9)
decreasing_by
  all_goals ((try simp only [List.length_cons, List.length_nil] at *); apply lex_of_lt_or; omega)

end

def parseExprStmt (limit : Option Nat) (depth : Nat) (ts : List Token) : Parsed ts Stmt :=
  match parseExpression limit depth ts with
  | .error e => .error e
  | .ok (e, ⟨r, hr⟩) =>
    match r with
    | t :: rest =>
      if t.kind = .semicolon then .ok (.expr e, ⟨rest, by simp at hr; omega⟩)
      else .ok (.expr e, ⟨t :: rest, hr⟩)
    | [] => .ok (.expr e, ⟨[], hr⟩)

/-- A declaration after `let [mut]` or `const`: a name, `= value` (required for a constant),
and `;`. -/
def parseVarTail (limit : Option Nat) (depth : Nat) (ts : List Token) (start : Pos)
    (isConst : Bool) (r : List Token) (hr : r.length < ts.length) : Parsed ts Stmt :=
  match expect .ident r with
  | .error e => .error e
  | .ok (name, ⟨r1, h1⟩) =>
    match r1 with
    | t :: rest =>
      if t.kind = .assign then
        match parseExpression limit depth rest with
        | .error e => .error e
        | .ok (init, ⟨r2, h2⟩) =>
          match expect .semicolon r2 with
          | .error e => .error e
          | .ok (_, ⟨r3, h3⟩) =>
            let s := if isConst then Stmt.constDecl name.lexeme init start
              else Stmt.letDecl name.lexeme (some init) start
            .ok (s, ⟨r3, by simp at h1 h2; omega⟩)
      else if isConst then .error (failAt (t :: rest) (.constWithoutValue name.lexeme))
      else
        match expect .semicolon (t :: rest) with
        | .error e => .error e
        | .ok (_, ⟨r3, h3⟩) => .ok (.letDecl name.lexeme none start, ⟨r3, by omega⟩)
    | [] =>
      if isConst then .error (failAt [] (.constWithoutValue name.lexeme))
      else .error (failAt [] (.expected .semicolon .eof))

def parseRet (limit : Option Nat) (depth : Nat) (ts : List Token) (start : Pos)
    (r : List Token) (hr : r.length < ts.length) : Parsed ts Stmt :=
  if kindAt r = .semicolon then
    match expect .semicolon r with
    | .error e => .error e
    | .ok (_, ⟨r1, h1⟩) => .ok (.ret none start, ⟨r1, by omega⟩)
  else
    match parseExpression limit depth r with
    | .error e => .error e
    | .ok (e, ⟨r1, h1⟩) =>
      match expect .semicolon r1 with
      | .error err => .error err
      | .ok (_, ⟨r2, h2⟩) => .ok (.ret (some e) start, ⟨r2, by omega⟩)

mutual

/-- A statement: a declaration, `ret`, `if`, `for`, or an expression with an optional `;`. -/
def parseStatement (limit : Option Nat) (depth : Nat) (ts : List Token) : Parsed ts Stmt :=
  match ts with
  | t :: rest =>
    match t.kind with
    | .keyword .letKw =>
      match rest with
      | m :: rest' =>
        if m.kind = .keyword .mutKw then
          parseVarTail limit depth (t :: m :: rest') t.pos false rest'
            (by simp only [List.length_cons]; omega)
        else parseVarTail limit depth (t :: m :: rest') t.pos false (m :: rest') (by simp)
      | [] => parseVarTail limit depth [t] t.pos false [] (by simp)
    | .keyword .constKw => parseVarTail limit depth (t :: rest) t.pos true rest (by simp)
    | .keyword .funcKw => parseFunc limit depth (t :: rest) t.pos rest (by simp)
    | .keyword .retKw => parseRet limit depth (t :: rest) t.pos rest (by simp)
    | .keyword .ifKw => parseIf limit depth (t :: rest)
    | .keyword .forKw => parseFor limit depth (t :: rest) t.pos rest (by simp)
    | _ => parseExprStmt limit depth (t :: rest)
  | [] => parseExprStmt limit depth []
termination_by (ts.length, 20)
decreasing_by
  all_goals ((try simp only [List.length_cons, List.length_nil] at *); apply lex_of_lt_or; omega)

/-- A function declaration after `func`: name, parameters in parentheses, body. -/
def parseFunc (limit : Option Nat) (depth : Nat) (ts : List Token) (start : Pos)
    (r : List Token) (hr : r.length < ts.length) : Parsed ts Stmt :=
  match expect .ident r with
  | .error e => .error e
  | .ok (name, ⟨r1, h1⟩) =>
    match expect .lparen r1 with
    | .error e => .error e
    | .ok (_, ⟨r2, h2⟩) =>
      match parseParams r2 #[] with
      | .error e => .error e
      | .ok (params, ⟨r3, h3⟩) =>
        match expect .rparen r3 with
        | .error e => .error e
        | .ok (_, ⟨r4, h4⟩) =>
          match parseBlock limit depth r4 with
          | .error e => .error e
          | .ok (body, ⟨r5, h5⟩) =>
            .ok (.funcDecl name.lexeme params body start, ⟨r5, by omega⟩)
termination_by (r.length, 0)
decreasing_by
  all_goals (apply lex_of_lt_or; omega)

/-- `if cond { … }`, optionally followed by `else { … }` or `else if …`; the `else if` is one
level of nesting deeper. -/
def parseIf (limit : Option Nat) (depth : Nat) (ts : List Token) : Parsed ts Stmt :=
  match expect (.keyword .ifKw) ts with
  | .error e => .error e
  | .ok (ifTok, ⟨r1, h1⟩) =>
    match parseExpression limit depth r1 with
    | .error e => .error e
    | .ok (cond, ⟨r2, h2⟩) =>
      match parseBlock limit depth r2 with
      | .error e => .error e
      | .ok (thenBody, ⟨r3, h3⟩) =>
        match r3 with
        | t :: rest =>
          if t.kind = .keyword .elseKw then
            if kindAt rest = .keyword .ifKw then
              match enter limit depth rest with
              | .error e => .error e
              | .ok d =>
                match parseIf limit d rest with
                | .error e => .error e
                | .ok (nested, ⟨r4, h4⟩) =>
                  .ok (.ifElse cond thenBody (some [nested]) ifTok.pos,
                    ⟨r4, by simp at h3 h4; omega⟩)
            else
              match parseBlock limit depth rest with
              | .error e => .error e
              | .ok (elseBody, ⟨r4, h4⟩) =>
                .ok (.ifElse cond thenBody (some elseBody) ifTok.pos,
                  ⟨r4, by simp at h3 h4; omega⟩)
          else .ok (.ifElse cond thenBody none ifTok.pos, ⟨t :: rest, by omega⟩)
        | [] => .ok (.ifElse cond thenBody none ifTok.pos, ⟨[], by omega⟩)
termination_by (ts.length, 19)
decreasing_by
  all_goals ((try simp only [List.length_cons, List.length_nil] at *); apply lex_of_lt_or; omega)

/-- A loop after `for`: `binding in iterable`, optionally in parentheses, then the body. -/
def parseFor (limit : Option Nat) (depth : Nat) (ts : List Token) (start : Pos)
    (r : List Token) (hr : r.length < ts.length) : Parsed ts Stmt :=
  let paren := kindAt r = .lparen
  let r0 := if paren then r.drop 1 else r
  have h0 : r0.length ≤ r.length := by
    simp only [r0]; split <;> simp
  match expect .ident r0 with
  | .error e => .error e
  | .ok (name, ⟨r1, h1⟩) =>
    match expect (.keyword .inKw) r1 with
    | .error e => .error e
    | .ok (_, ⟨r2, h2⟩) =>
      match parseExpression limit depth r2 with
      | .error e => .error e
      | .ok (iterable, ⟨r3, h3⟩) =>
        let closed : Except Error (Rest r3 ⊕ PUnit) :=
          if paren then
            match expect .rparen r3 with
            | .error e => .error e
            | .ok (_, r4) => .ok (.inl r4)
          else .ok (.inr ())
        match closed with
        | .error e => .error e
        | .ok (.inl ⟨r4, h4⟩) =>
          match parseBlock limit depth r4 with
          | .error e => .error e
          | .ok (body, ⟨r5, h5⟩) => .ok (.forIn name.lexeme iterable body start, ⟨r5, by omega⟩)
        | .ok (.inr ()) =>
          match parseBlock limit depth r3 with
          | .error e => .error e
          | .ok (body, ⟨r5, h5⟩) => .ok (.forIn name.lexeme iterable body start, ⟨r5, by omega⟩)
termination_by (r.length, 0)
decreasing_by
  all_goals (apply lex_of_lt_or; omega)

/-- A block `{ statements }`, one level of nesting deeper; stray `;` are skipped. -/
def parseBlock (limit : Option Nat) (depth : Nat) (ts : List Token) : Parsed ts (List Stmt) :=
  match expect .lbrace ts with
  | .error e => .error e
  | .ok (_, ⟨r, hr⟩) =>
    match enter limit depth r with
    | .error e => .error e
    | .ok d => parseBlockBody limit d ts r hr #[]
termination_by (ts.length, 0)
decreasing_by
  all_goals (apply lex_of_lt_or; omega)

def parseBlockBody (limit : Option Nat) (depth : Nat) (ts : List Token) (r : List Token)
    (hr : r.length < ts.length) (acc : Array Stmt) : Parsed ts (List Stmt) :=
  match r with
  | t :: rest =>
    if t.kind = .rbrace then .ok (acc.toList, ⟨rest, by simp at hr; omega⟩)
    else if t.kind = .eof then .error (failAt (t :: rest) .unclosedBlock)
    else if t.kind = .semicolon then
      parseBlockBody limit depth ts rest (by simp at hr; omega) acc
    else
      match parseStatement limit depth (t :: rest) with
      | .error e => .error e
      | .ok (s, ⟨r', hr'⟩) => parseBlockBody limit depth ts r' (by omega) (acc.push s)
  | [] => .error (failAt [] .unclosedBlock)
termination_by (r.length, 21)
decreasing_by
  all_goals ((try simp only [List.length_cons, List.length_nil] at *); apply lex_of_lt_or; omega)

end

/-- The statements of a program up to the end of input; stray `;` are skipped. -/
def parseProgramFrom (limit : Option Nat) (ts : List Token) (acc : Array Stmt) :
    Except Error Program :=
  match ts with
  | t :: rest =>
    if t.kind = .eof then .ok acc.toList
    else if t.kind = .semicolon then parseProgramFrom limit rest acc
    else
      match parseStatement limit 0 (t :: rest) with
      | .error e => .error e
      | .ok (s, ⟨r, _⟩) => parseProgramFrom limit r (acc.push s)
  | [] => .ok acc.toList
termination_by ts.length
decreasing_by all_goals (simp_all; try omega)

/-- The tokens with an end of input at the back: when the last token is not one, an end of
input is added at its position (at position zero for no tokens at all). -/
def closeTokens (ts : List Token) : List Token :=
  match ts.getLast? with
  | some t => if t.kind = .eof then ts else ts ++ [⟨.eof, "", t.pos⟩]
  | none => [⟨.eof, "", ⟨0, 0, 0⟩⟩]

/-- The program that a token list spells, under a nesting limit (`none`: no limit). -/
def parseTokensWith (limit : Option Nat) (ts : List Token) : Except Error Program :=
  parseProgramFrom limit (closeTokens ts) #[]

/-- The program that a token list spells, nesting at most `maxNesting` deep. -/
def parseTokens (ts : List Token) : Except Error Program :=
  parseTokensWith (some maxNesting) ts

/-- The program that the bytes of a source spell: its tokens, then the program they spell. -/
def parseBytes (src : List UInt8) : Except Error Program :=
  match Lexer.tokenizeBytes src with
  | .error e => .error e
  | .ok ts => parseTokens ts

/-- The program that a source text spells, read from the text's UTF-8 bytes. -/
def parse (src : String) : Except Error Program :=
  match Lexer.tokenize src with
  | .error e => .error e
  | .ok ts => parseTokens ts

end Treewalk.Parser
