import Treewalk.Syntax.Position
import Treewalk.Binary64
/-!
# Programs as trees

A program is a list of statements. Expressions carry the position that messages cite: the
operator of a binary expression, the `.` or `[` of a member, the `(` of a call, the first token
of the others. An assignment writes to a name or to a member and has the position of its
target, an expression statement that of its expression, so neither stores one of its own.

A number literal holds the double it stands for, the one nearest to the decimal it is written
with.
-/
namespace Treewalk

/-- A decimal number written with digits and an optional fractional part:
`mantissa / 10^scale`. -/
structure Numeral where
  mantissa : Nat
  scale : Nat
deriving DecidableEq, Repr, Inhabited

namespace Numeral

/-- The numeral written by `s`: ASCII digits with at most one point. -/
def ofLexeme (s : String) : Numeral :=
  let cs := s.toList
  let whole := cs.takeWhile (· != '.')
  let frac := (cs.dropWhile (· != '.')).drop 1
  let digits := whole ++ frac
  ⟨digits.foldl (fun n c => 10 * n + (c.toNat - 48)) 0, frac.length⟩

/-- The double nearest to the numeral; beyond the largest double, infinity. -/
def toFloat (n : Numeral) : Float :=
  Binary64.ofDecimal false n.mantissa (-(n.scale : Int))

end Numeral

/-- The binary operators: arithmetic, equality and order. -/
inductive BinOp
  | add | sub | mul | div | mod | eq | ne | lt | gt
deriving DecidableEq, Repr, Inhabited

def BinOp.symbol : BinOp → String
  | .add => "+"
  | .sub => "-"
  | .mul => "*"
  | .div => "/"
  | .mod => "%"
  | .eq => "=="
  | .ne => "!="
  | .lt => "<"
  | .gt => ">"

mutual

/-- Expressions. -/
inductive Expr
  /-- A number literal. -/
  | num (value : Float) (pos : Pos)
  /-- A string literal, decoded. -/
  | str (value : String) (pos : Pos)
  /-- A name. -/
  | ident (name : String) (pos : Pos)
  /-- `lhs op rhs`, at the operator. -/
  | binary (op : BinOp) (lhs rhs : Expr) (pos : Pos)
  /-- `target = value`. -/
  | assign (target : Target) (value : Expr)
  /-- `[e₁, …, eₙ]`, at the bracket. -/
  | array (elems : List Expr) (pos : Pos)
  /-- `{ fields }`, at the brace. -/
  | object (fields : List Field) (pos : Pos)
  /-- `obj.name`, at the dot; the name has its own position. -/
  | member (obj : Expr) (name : String) (namePos : Pos) (pos : Pos)
  /-- `obj[key]`, at the bracket. -/
  | index (obj key : Expr) (pos : Pos)
  /-- `callee(args)`, at the parenthesis. -/
  | call (callee : Expr) (args : List Expr) (pos : Pos)

/-- What an assignment writes to. -/
inductive Target
  /-- A name. -/
  | var (name : String) (pos : Pos)
  /-- `obj.name`, at the dot. -/
  | member (obj : Expr) (name : String) (namePos : Pos) (pos : Pos)
  /-- `obj[key]`, at the bracket. -/
  | index (obj key : Expr) (pos : Pos)

/-- A property of an object literal. -/
inductive Field
  /-- `key: value`. -/
  | keyed (key : String) (pos : Pos) (value : Expr)
  /-- `key` alone: the value of the name `key`. -/
  | shorthand (key : String) (pos : Pos)

end

def Target.pos : Target → Pos
  | .var _ p | .member _ _ _ p | .index _ _ p => p

def Expr.pos : Expr → Pos
  | .num _ p | .str _ p | .ident _ p | .binary _ _ _ p | .array _ p | .object _ p
  | .member _ _ _ p | .index _ _ p | .call _ _ p => p
  | .assign t _ => t.pos

def Target.toExpr : Target → Expr
  | .var n p => .ident n p
  | .member o n np p => .member o n np p
  | .index o k p => .index o k p

/-- The target an expression can be assigned through: names and members only. -/
def Expr.toTarget? : Expr → Option Target
  | .ident n p => some (.var n p)
  | .member o n np p => some (.member o n np p)
  | .index o k p => some (.index o k p)
  | _ => none

/-- Statements. -/
inductive Stmt
  /-- An expression, evaluated for its value. -/
  | expr (e : Expr)
  /-- `let [mut] name [= init];`, a variable. -/
  | letDecl (name : String) (init : Option Expr) (pos : Pos)
  /-- `const name = init;`, a constant. -/
  | constDecl (name : String) (init : Expr) (pos : Pos)
  /-- `func name(params) { body }`. -/
  | funcDecl (name : String) (params : List String) (body : List Stmt) (pos : Pos)
  /-- `ret [result];`. -/
  | ret (result : Option Expr) (pos : Pos)
  /-- `if cond { thenBody } [else { elseBody }]`; `else if` is an else body of one `if`. -/
  | ifElse (cond : Expr) (thenBody : List Stmt) (elseBody : Option (List Stmt)) (pos : Pos)
  /-- `for binding in iterable { body }`. -/
  | forIn (binding : String) (iterable : Expr) (body : List Stmt) (pos : Pos)

def Stmt.pos : Stmt → Pos
  | .expr e => e.pos
  | .letDecl _ _ p | .constDecl _ _ p | .funcDecl _ _ _ p | .ret _ p | .ifElse _ _ _ p
  | .forIn _ _ _ p => p

abbrev Program := List Stmt

end Treewalk
