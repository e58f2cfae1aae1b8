import Treewalk.Eval.Expr
/-!
# Running statements

A statement gives an outcome: a value, and whether a `ret` ran. A block runs its statements in
order in one frame and gives the outcome of the last one it ran (null for an empty block); it
stops at the first outcome that returns, which then passes up through every enclosing block,
branch and loop to the function call or program that catches it.

Declarations bind in the current frame. A function declaration binds the function first and
then captures a snapshot of the scope, so the function sees itself. `if` runs its then branch
unless the condition is `false` or null, each branch in a new frame. `for` binds its variable
in the current frame for the duration of the loop, runs the body once per element of the array
(as long as the array was when the loop began, reading each element when its turn comes), each
time in a new frame, and removes the binding when the loop ends, whether it ends normally, by
`ret`, or by an error.
-/
namespace Treewalk

/-- What a statement gives: a value, and whether it returns from the enclosing call. -/
structure Outcome where
  value : Value
  returning : Bool
deriving Inhabited

/-- Whether a condition selects the then branch: everything but `false` and null does. -/
def Value.truthy : Value → Bool
  | .bool b => b
  | .null => false
  | _ => true

namespace Eval

/-- Runs `step` on each of `indexes` in order, stopping after an outcome that returns; gives
the last outcome, or `last` when there is none. -/
def iterate (step : Nat → Eval Outcome) : List Nat → Outcome → Eval Outcome
  | [], last => return last
  | i :: is, _ => do
    let o ← step i
    if o.returning then return o else iterate step is o

mutual

/-- Runs a statement in the scope at frame `env`. -/
def execStmt (call : CallFn) (env : Nat) : Stmt → Eval Outcome
  | .expr e => do
    let v ← evalExpr call env e
    return ⟨v, false⟩
  | .letDecl name init p => do
    let v ← match init with
      | some e => evalExpr call env e
      | none => pure .null
    declareAt env name v true p
    return ⟨v, false⟩
  | .constDecl name init p => do
    let v ← evalExpr call env init
    declareAt env name v false p
    return ⟨v, false⟩
  | .funcDecl name params body p => do
    let ref ← alloc (·.allocClosure ⟨name, params, body, env⟩)
    declareAt env name (.function ref) false p
    let snap ← alloc (·.snapshot env)
    setStore ((← store).setClosureEnv ref snap)
    return ⟨.function ref, false⟩
  | .ret result _ => do
    let v ← match result with
      | some e => evalExpr call env e
      | none => pure .null
    return ⟨v, true⟩
  | .ifElse c thenBody elseBody _ => do
    let cv ← evalExpr call env c
    if Value.truthy cv then
      let f ← alloc (·.newFrame (some env))
      execBlock call f thenBody
    else
      match elseBody with
      | none => return ⟨.null, false⟩
      | some b =>
        let f ← alloc (·.newFrame (some env))
        execBlock call f b
  | .forIn binding iterable body p => do
    let iv ← evalExpr call env iterable
    match iv with
    | .array r =>
      declareAt env binding .null true p
      let n := ((← store).elems r).size
      let step (i : Nat) : Eval Outcome := do
        let x := ((← store).elems r).getD i .null
        assignAt env binding x p
        let f ← alloc (·.newFrame (some env))
        execBlock call f body
      let o ← tryCatch (iterate step (List.range n) ⟨.null, false⟩)
        (fun e => do setStore ((← store).remove env binding); throw e)
      setStore ((← store).remove env binding)
      return o
    | v => throw { fault := .notIterable v.kind, pos := some iterable.pos }

/-- Runs the statements of a block in frame `env`, stopping at the first that returns. -/
def execBlock (call : CallFn) (env : Nat) : List Stmt → Eval Outcome
  | [] => return ⟨.null, false⟩
  | s :: rest => do
    let o ← execStmt call env s
    if o.returning then return o
    else
      match rest with
      | [] => return o
      | _ :: _ => execBlock call env rest

end

end Eval

end Treewalk
