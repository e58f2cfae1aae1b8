import Treewalk.Eval.Builtin
/-!
# Evaluating expressions

Operands are evaluated left to right, and every operand of an expression is evaluated before
the expression acts. Arithmetic and order apply to two numbers, `+` also joins two texts, and
`==` and `!=` compare two numbers, two texts or two booleans; any other pairing gives null. A
call evaluates its arguments first and its callee last. Calling a user function is the one step
that leaves the expression at hand, so it is a parameter here: the function that runs a user
function's body.
-/
namespace Treewalk

def BinOp.apply (op : BinOp) (a b : Value) : Value :=
  match a, b with
  | .number x, .number y =>
    match op with
    | .add => .number (x + y)
    | .sub => .number (x - y)
    | .mul => .number (x * y)
    | .div => .number (x / y)
    | .mod => .number (Binary64.fmod x y)
    | .eq => .bool (x == y)
    | .ne => .bool (x != y)
    | .lt => .bool (decide (x < y))
    | .gt => .bool (decide (x > y))
  | .str x, .str y =>
    match op with
    | .add => .str (x ++ y)
    | .eq => .bool (x == y)
    | .ne => .bool (x != y)
    | _ => .null
  | .bool x, .bool y =>
    match op with
    | .eq => .bool (x == y)
    | .ne => .bool (x != y)
    | _ => .null
  | _, _ => .null

/-- How a user function is run: the function's reference and the argument values. -/
abbrev CallFn := Nat → List Value → Eval Value

namespace Eval

/-- Calls `callee` with `args`: a built-in runs directly, a user function through `call`. -/
def apply (call : CallFn) (callee : Value) (args : List Value) : Eval Value :=
  match callee with
  | .native n => runNative n args
  | .function r => call r args
  | v => throw { fault := .notCallable v.kind }

def load (container key : Value) (p : Pos) : Eval Value := do
  match (← store).loadMember container key p with
  | .ok v => return v
  | .error e => throw e

mutual

/-- The value of an expression in the scope at frame `env`. -/
def evalExpr (call : CallFn) (env : Nat) : Expr → Eval Value
  | .num x _ => return .number x
  | .str s _ => return .str s
  | .ident name p => lookupAt env name p
  | .binary op l r _ => do
    let a ← evalExpr call env l
    let b ← evalExpr call env r
    return op.apply a b
  | .assign (.var name p) v => do
    let x ← evalExpr call env v
    assignAt env name x p
    return x
  | .assign (.member o name _ p) v => do
    let c ← evalExpr call env o
    let x ← evalExpr call env v
    update (·.storeMember c (.str name) x p)
    return x
  | .assign (.index o k p) v => do
    let c ← evalExpr call env o
    let key ← evalExpr call env k
    let x ← evalExpr call env v
    update (·.storeMember c key x p)
    return x
  | .array es _ => do
    let xs ← evalExprs call env es
    alloc (·.allocArray xs.toArray)
  | .object fs _ => do
    let entries ← evalFields call env fs
    alloc (·.allocObject (Props.ofList entries))
  | .member o name _ p => do
    let c ← evalExpr call env o
    load c (.str name) p
  | .index o k p => do
    let c ← evalExpr call env o
    let key ← evalExpr call env k
    load c key p
  | .call f as p => do
    let args ← evalExprs call env as
    let callee ← evalExpr call env f
    locating p (apply call callee args)

def evalExprs (call : CallFn) (env : Nat) : List Expr → Eval (List Value)
  | [] => return []
  | e :: es => do
    let x ← evalExpr call env e
    let xs ← evalExprs call env es
    return x :: xs

/-- The properties of an object literal, left to right; a name alone takes the value of the
name. -/
def evalFields (call : CallFn) (env : Nat) : List Field → Eval (List (String × Value))
  | [] => return []
  | .keyed k _ v :: fs => do
    let x ← evalExpr call env v
    let xs ← evalFields call env fs
    return (k, x) :: xs
  | .shorthand k p :: fs => do
    let x ← lookupAt env k p
    let xs ← evalFields call env fs
    return (k, x) :: xs

end

end Eval

end Treewalk
