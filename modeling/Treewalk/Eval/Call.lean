import Treewalk.Eval.Stmt
/-!
# Calling user functions

A call first checks the number of arguments, then the depth limit: with a limit of `d`, a call
made while `d` calls are already active fails. Otherwise the call runs the body in a new frame
whose parent is the frame the function captured, with each parameter bound (mutable) to its
argument, and answers the value of the `ret` that ran, or else of the body's last statement.

The budget of calls that may still nest is what makes evaluation total: a call made with a
budget of `n + 1` runs its body with a budget of `n`, and a call with no budget left is the
depth failure.
-/
namespace Treewalk

def Closure.citedName (c : Closure) : String :=
  if c.name.isEmpty then "function" else c.name

namespace Eval

def bindParams (env : Nat) : List (String × Value) → Eval Unit
  | [] => return ()
  | (p, v) :: rest => do
    update (·.declare env p v true)
    bindParams env rest

/-- Runs user functions with at most `budget` nested calls, under the depth limit `limit`
(cited by the failure). -/
def callWith (limit : Option Nat) : Nat → CallFn
  | 0 => fun ref args => do
    let c := (← store).closures.getD ref default
    if args.length ≠ c.params.length then
      throw { fault := .arity c.citedName c.params.length args.length }
    throw { fault := .callDepth (limit.getD 0) c.citedName }
  | budget + 1 => fun ref args => do
    let c := (← store).closures.getD ref default
    if args.length ≠ c.params.length then
      throw { fault := .arity c.citedName c.params.length args.length }
    let scope ← alloc (·.newFrame (some c.env))
    bindParams scope (c.params.zip args)
    let o ← execBlock (callWith limit budget) scope c.body
    return o.value

def unlimitedBudget : Nat := Nat.pow 2 64

/-- Runs a program in frame `env` under the depth limit `limit` (`none`: no limit) and answers
the value of its last statement, or of a `ret` at its top level. -/
def runProgram (limit : Option Nat) (env : Nat) (prog : Program) : Eval Value := do
  let o ← execBlock (callWith limit (limit.getD unlimitedBudget)) env prog
  return o.value

end Eval

end Treewalk
