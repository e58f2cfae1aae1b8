import Mathlib
import Treewalk.Eval.Call
/-!
# Returns as exceptions

The evaluator hands a `ret` up as an outcome flagged `returning`: a block stops at such an
outcome and passes it on, a loop stops its iterations at it, and a call reads the value off
it. The same behaviour reads more directly with a `ret` as an exception. In `Exec` a `ret`
throws its value as a signal, which unwinds through blocks, branches and loops, the loop still
removing its binding on the way out, until the nearest call or the program catches it and
yields its value.

Both readings agree on every program, from every machine: the same value or error, the same
output and the same final store and heap. So no statement after an executed `ret` runs in its
activation, and a call that runs no `ret` yields the value of the last statement it ran, or
`null` for an empty body.
-/

namespace Treewalk

/-- What unwinds an `Exec` computation: a failure, or a `ret` carrying its value. -/
inductive Signal where
  | fail (e : Error)
  | ret (v : Value)

/-- Evaluation in which a `ret` unwinds as an exception. -/
abbrev Exec := ExceptT Signal (StateM Machine)

namespace Exec
open Eval

/-! ### Evaluator steps in `Exec` -/

def ofEval {α : Type} (x : Eval α) : Exec α := ExceptT.adapt Signal.fail x

@[simp] theorem ofEval_pure {α : Type} (a : α) : ofEval (pure a : Eval α) = pure a := rfl

@[simp] theorem ofEval_throw {α : Type} (e : Error) :
    ofEval (throw e : Eval α) = throw (.fail e) := rfl

@[simp] theorem ofEval_bind {α β : Type} (x : Eval α) (f : α → Eval β) :
    ofEval (x >>= f) = ofEval x >>= fun a => ofEval (f a) := by
  apply ExceptT.ext
  simp only [ofEval, ExceptT.run_adapt, ExceptT.run_bind, map_bind, bind_map_left]
  congr 1
  funext r
  cases r <;> simp [Except.mapError]

theorem store_eq : (store : Eval Store) = ExceptT.lift (fun m => (m.store, m)) := rfl

theorem setStore_eq (s : Store) :
    (setStore s : Eval Unit) = ExceptT.lift (fun m => ((), { m with store := s })) := rfl

@[simp] theorem ofEval_map {α β : Type} (f : α → β) (x : Eval α) :
    ofEval (f <$> x) = f <$> ofEval x := by
  simp only [map_eq_bind_pure_comp, ofEval_bind, Function.comp_def, ofEval_pure]

/-! ### Outcomes as signals -/

/-- An outcome computation read in `Exec`: a returning outcome throws its value. -/
def signal (x : Eval Outcome) : Exec Value := do
  let o ← ofEval x
  if o.returning then throw (.ret o.value) else return o.value

theorem signal_bind {α : Type} (x : Eval α) (f : α → Eval Outcome) :
    signal (x >>= f) = ofEval x >>= fun a => signal (f a) := by
  simp only [signal, ofEval_bind, bind_assoc]

theorem signal_map {α : Type} (f : α → Outcome) (x : Eval α) :
    signal (f <$> x) = ofEval x >>= fun a => signal (pure (f a)) := by
  rw [map_eq_bind_pure_comp, signal_bind]
  rfl

theorem signal_throw (e : Error) : signal (throw e) = throw (.fail e) := by
  simp [signal]

theorem signal_pure (o : Outcome) :
    signal (pure o) = if o.returning then throw (.ret o.value) else pure o.value := by
  simp [signal]

theorem signal_unwind (x : Eval Outcome) (f : Store → Store) :
    signal (do
      let o ← tryCatch x (fun e => do setStore (f (← store)); throw e)
      setStore (f (← store))
      return o) =
    (do
      let v ← tryCatch (signal x) (fun s => do ofEval (setStore (f (← ofEval store))); throw s)
      ofEval (setStore (f (← ofEval store)))
      return v) := by
  apply ExceptT.ext
  simp only [signal, ofEval, store_eq, setStore_eq, ExceptT.run_adapt, ExceptT.run_bind,
    ExceptT.run_tryCatch, map_bind, bind_assoc, bind_map_left]
  refine congrArg (ExceptT.run x >>= ·) (funext fun r => ?_)
  cases r with
  | error e => simp [Except.mapError]
  | ok o =>
    by_cases h : o.returning
    · simp [h, Except.mapError]
    · simp [h, Except.mapError]


def iterate (step : Nat → Exec Value) : List Nat → Value → Exec Value
  | [], last => return last
  | i :: is, _ => do iterate step is (← step i)

theorem signal_iterate (step : Nat → Eval Outcome) (is : List Nat) (last : Outcome)
    (hl : last.returning = false) :
    signal (Eval.iterate step is last) = iterate (fun i => signal (step i)) is last.value := by
  induction is generalizing last with
  | nil => simp [Eval.iterate, iterate, signal_pure, hl]
  | cons i is ih =>
    simp only [Eval.iterate, iterate, signal_bind]
    conv => rhs; rw [signal, bind_assoc]
    refine congrArg (ofEval (step i) >>= ·) (funext fun o => ?_)
    by_cases h : o.returning
    · simp [h, signal_pure]
    · simp [h, ih o (by simpa using h)]

/-! ### Statements -/

variable (call : CallFn)

mutual

/-- A statement in `Exec`. Only `ret` and the statements with a body differ from the
evaluator; declarations and expressions never return, and run as it runs them. -/
def stmt (env : Nat) : Stmt → Exec Value
  | .ret result _ => do
    let v ← ofEval (match result with
      | some e => evalExpr call env e
      | none => pure .null)
    throw (.ret v)
  | .ifElse c thenBody elseBody _ => do
    let cv ← ofEval (evalExpr call env c)
    if Value.truthy cv then
      let f ← ofEval (alloc (·.newFrame (some env)))
      block f thenBody
    else
      match elseBody with
      | none => return .null
      | some b =>
        let f ← ofEval (alloc (·.newFrame (some env)))
        block f b
  | .forIn binding iterable body p => do
    let iv ← ofEval (evalExpr call env iterable)
    match iv with
    | .array r =>
      ofEval (declareAt env binding .null true p)
      let n := ((← ofEval store).elems r).size
      let step (i : Nat) : Exec Value := do
        let x := ((← ofEval store).elems r).getD i .null
        ofEval (assignAt env binding x p)
        let f ← ofEval (alloc (·.newFrame (some env)))
        block f body
      let v ← tryCatch (iterate step (List.range n) .null)
        (fun s => do ofEval (setStore ((← ofEval store).remove env binding)); throw s)
      ofEval (setStore ((← ofEval store).remove env binding))
      return v
    | v => throw (.fail { fault := .notIterable v.kind, pos := some iterable.pos })
  | s => Outcome.value <$> ofEval (execStmt call env s)

def block (env : Nat) : List Stmt → Exec Value
  | [] => return .null
  | s :: rest => do
    let v ← stmt env s
    match rest with
    | [] => return v
    | _ :: _ => block env rest

end

mutual

/-- Each statement and each block behaves in `Exec` as the evaluator's outcome read as a
signal. The two recursions follow the same syntax, each case using the theorem on its bodies. -/
theorem stmt_eq_signal (env : Nat) : (s : Stmt) → stmt call env s = signal (execStmt call env s)
  | .expr e => by
    rw [stmt.eq_def]
    dsimp only
    rw [execStmt.eq_def]
    simp [signal_map, signal_pure]
  | .letDecl name init p => by
    rw [stmt.eq_def]
    dsimp only
    rw [execStmt.eq_def]
    cases init <;> simp [signal_bind, signal_map, signal_pure]
  | .constDecl name init p => by
    rw [stmt.eq_def]
    dsimp only
    rw [execStmt.eq_def]
    simp [signal_bind, signal_map, signal_pure]
  | .funcDecl name params body p => by
    rw [stmt.eq_def]
    dsimp only
    rw [execStmt.eq_def]
    simp [signal_bind, signal_map, signal_pure]
  | .ret result p => by
    rw [stmt.eq_def, execStmt.eq_def]
    cases result <;> simp [signal_map, signal_pure]
  | .ifElse c thenBody elseBody p => by
    have ht : ∀ f, block call f thenBody = signal (execBlock call f thenBody) :=
      fun f => block_eq_signal f thenBody
    rw [stmt.eq_def, execStmt.eq_def]
    dsimp only
    rw [signal_bind]
    refine congrArg (ofEval (evalExpr call env c) >>= ·) (funext fun cv => ?_)
    by_cases hc : Value.truthy cv
    · simp only [hc, if_true, signal_bind, ht]
    · simp only [hc, Bool.false_eq_true, if_false]
      cases elseBody with
      | none => simp [signal_pure]
      | some b =>
        have hb : ∀ f, block call f b = signal (execBlock call f b) :=
          fun f => block_eq_signal f b
        simp only [signal_bind, hb]
  | .forIn binding iterable body p => by
    have hb : ∀ f, block call f body = signal (execBlock call f body) :=
      fun f => block_eq_signal f body
    rw [stmt.eq_def, execStmt.eq_def]
    dsimp only
    rw [signal_bind]
    refine congrArg (ofEval (evalExpr call env iterable) >>= ·) (funext fun iv => ?_)
    cases iv with
    | array r =>
      dsimp only
      rw [signal_bind]
      refine congrArg (ofEval (declareAt env binding .null true p) >>= ·) (funext fun _ => ?_)
      rw [signal_bind]
      refine congrArg (ofEval store >>= ·) (funext fun st => ?_)
      -- the loop's handler removes the binding on a signal as the evaluator's does on a failure
      rw [signal_unwind, signal_iterate _ _ _ rfl]
      simp only [signal_bind, hb]
    | _ =>
      dsimp only
      rw [signal_throw]
termination_by s => sizeOf s

theorem block_eq_signal (env : Nat) :
    (ss : List Stmt) → block call env ss = signal (execBlock call env ss)
  | [] => by
    rw [block.eq_def, execBlock.eq_def]
    simp [signal_pure]
  | s :: rest => by
    rw [block.eq_def, execBlock.eq_def]
    dsimp only
    rw [stmt_eq_signal env s, signal_bind, signal, bind_assoc]
    refine congrArg (ofEval (execStmt call env s) >>= ·) (funext fun o => ?_)
    by_cases h : o.returning
    · simp [h, signal_pure]
    · cases rest with
      | nil => simp [h, signal_pure]
      | cons s' rest' => simp [h, block_eq_signal env (s' :: rest')]
termination_by ss => sizeOf ss

end

/-! ### Calls and programs -/

/-- What a call makes of its body: a `ret`'s value, the body's value when no `ret` ran, or its
failure. -/
def catchRet (x : Exec Value) : Eval Value := ExceptT.mk do
  match ← x.run with
  | .ok v => return .ok v
  | .error (.ret v) => return .ok v
  | .error (.fail e) => return .error e

theorem catchRet_signal (x : Eval Outcome) : catchRet (signal x) = Outcome.value <$> x := by
  apply ExceptT.ext
  simp only [catchRet, signal, ofEval, ExceptT.run_mk, ExceptT.run_bind, ExceptT.run_adapt,
    map_eq_bind_pure_comp, bind_assoc]
  refine congrArg (ExceptT.run x >>= ·) (funext fun r => ?_)
  cases r with
  | error e => simp [Except.mapError]
  | ok o =>
    by_cases h : o.returning
    · simp [h, Except.mapError]
    · simp [h, Except.mapError]

def callWith (limit : Option Nat) : Nat → CallFn
  | 0 => Eval.callWith limit 0
  | budget + 1 => fun ref args => do
    let c := (← store).closures.getD ref default
    if args.length ≠ c.params.length then
      throw { fault := .arity c.citedName c.params.length args.length }
    let scope ← alloc (·.newFrame (some c.env))
    bindParams scope (c.params.zip args)
    catchRet (block (callWith limit budget) scope c.body)

def runProgram (limit : Option Nat) (env : Nat) (prog : Program) : Eval Value :=
  catchRet (block (callWith limit (limit.getD unlimitedBudget)) env prog)

theorem callWith_eq (limit : Option Nat) :
    ∀ budget, callWith limit budget = Eval.callWith limit budget
  | 0 => rfl
  | budget + 1 => by
    funext ref args
    simp only [callWith, Eval.callWith, callWith_eq limit budget, block_eq_signal,
      catchRet_signal, map_eq_bind_pure_comp]
    rfl

/-- The evaluator's calls and programs are those in which a `ret` unwinds to the nearest call,
or to the program, as an exception. -/
theorem runProgram_eq_unwinding (limit : Option Nat) (env : Nat) (prog : Program) :
    (∀ budget, Eval.callWith limit budget = callWith limit budget) ∧
      Eval.runProgram limit env prog = runProgram limit env prog := by
  refine ⟨fun budget => (callWith_eq limit budget).symm, ?_⟩
  rw [runProgram, callWith_eq, block_eq_signal, catchRet_signal, map_eq_bind_pure_comp]
  rfl

end Exec
end Treewalk
