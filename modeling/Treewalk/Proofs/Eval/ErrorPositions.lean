import Mathlib
import Treewalk.Proofs.Eval.StoreSteps
import Treewalk.Proofs.Syntax.ParsedPositions
/-!
# Every failure is placed in a text that ran

A failure that a session reports carries a position on line 1 or later, and the position is in
a text the session has run: at a token of the program being run or of one run before it, or,
when the program does not lex, at the quote or `/*` that it never closes.

The parser places its failures at its tokens (`Lexer.parse_placed`). The evaluator raises many
failures with no position: in the store's operations, in the checks of a call and in the
built-ins. Each of them passes, before it can leave the evaluator, through a site that gives it
the position of the expression or statement at hand: a name, a declaration, an assignment, a
member, a call or a loop. `Eval.Confined S E x` says that `x` keeps the body of every user
function within `S` and fails only with errors satisfying `E`. Expressions and statements whose
positions lie in `S` fail at positions of `S`; calls fail at positions of `S` or at none; and a
session keeps its functions within the positions of the texts it ran, since a function's body
is a part of the program that declared it.
-/
namespace Treewalk

namespace Error

def BareOrAt (S : Pos → Prop) (e : Error) : Prop := e.pos = none ∨ e.At S

variable {S : Pos → Prop} {e : Error}

theorem At.bareOrAt (h : e.At S) : e.BareOrAt S := .inr h

theorem BareOrAt.locate (h : e.BareOrAt S) {p : Pos} (hp : S p) : (e.locate p).At S := by
  unfold Error.locate
  rcases h with h | ⟨q, hq, hS⟩
  · rw [h]
    exact ⟨p, rfl, hp⟩
  · rw [hq]
    exact ⟨q, hq, hS⟩

end Error

namespace Store

/-- Every user function in the store has its body within `S`. -/
def BodiesWithin (S : Pos → Prop) (s : Store) : Prop :=
  ∀ ref, Stmt.AllWithin S (s.closures.getD ref default).body

variable {S : Pos → Prop} {s s' : Store} {e : Error}

theorem BodiesWithin.of_closures (h : s'.closures = s.closures) (hs : s.BodiesWithin S) :
    s'.BodiesWithin S := by
  intro ref
  rw [h]
  exact hs ref

theorem bodiesWithin_empty (h : s.closures = #[]) : s.BodiesWithin S := by
  intro ref
  rw [h]
  exact trivial

theorem bodiesWithin_allocClosure {c : Closure} (hs : s.BodiesWithin S)
    (hc : Stmt.AllWithin S c.body) : (s.allocClosure c).1.BodiesWithin S := by
  intro ref
  have h := hs ref
  rw [Array.getD_eq_getD_getElem?] at h ⊢
  simp only [allocClosure, Array.getElem?_push]
  split
  · exact hc
  · exact h

theorem bodiesWithin_setClosureEnv (hs : s.BodiesWithin S) (ref env : Nat) :
    (s.setClosureEnv ref env).BodiesWithin S := by
  intro i
  have h := hs i
  rw [Array.getD_eq_getD_getElem?] at h ⊢
  simp only [setClosureEnv, Array.getElem?_modify]
  split
  · cases hc : s.closures[i]? with
    | none => exact trivial
    | some c => rw [hc] at h; exact h
  · exact h

theorem lookup_error_bare {i : Nat} {name : String} (h : s.lookup i name = .error e) :
    e.pos = none := by
  rw [lookup_error h]

theorem declare_error_bare {i : Nat} {name : String} {v : Value} {mutable : Bool}
    (h : s.declare i name v mutable = .error e) : e.pos = none := by
  rw [declare_error h]

theorem assign_error_bare {i : Nat} {name : String} {v : Value} (h : s.assign i name v = .error e) :
    e.pos = none := by
  rcases assign_error h with rfl | rfl <;> rfl

end Store

namespace Eval

variable {α β : Type} {S : Pos → Prop} {E E' : Error → Prop}

/-- From every machine whose user functions lie within `S`, `x` leaves such a machine, and a
failure of `x` satisfies `E`. -/
def Confined (S : Pos → Prop) (E : Error → Prop) (x : Eval α) : Prop :=
  ∀ m : Machine, m.store.BodiesWithin S →
    (x.run.run m).2.store.BodiesWithin S ∧ ∀ e, (x.run.run m).1 = .error e → E e

section Monad

theorem Confined.mono {x : Eval α} (hE : ∀ e, E e → E' e) (hx : Confined S E x) :
    Confined S E' x :=
  fun m hm => ⟨(hx m hm).1, fun e he => hE e ((hx m hm).2 e he)⟩

theorem Confined.pure (a : α) : Confined S E (Pure.pure a : Eval α) :=
  fun _ hm => ⟨hm, fun _ h => by cases h⟩

theorem Confined.throw {e : Error} (he : E e) : Confined S E (MonadExcept.throw e : Eval α) := by
  intro _ hm
  refine ⟨hm, fun _ h => ?_⟩
  cases h
  exact he

theorem Confined.bind {x : Eval α} {f : α → Eval β} (hx : Confined S E x)
    (hf : ∀ a, Confined S E (f a)) : Confined S E (x >>= f) := by
  intro m hm
  rw [run_bind]
  obtain ⟨hm₁, he₁⟩ := hx m hm
  rcases hrun : x.run.run m with ⟨r, m₁⟩
  rw [hrun] at hm₁ he₁
  cases r with
  | ok a => exact hf a m₁ hm₁
  | error e =>
    refine ⟨hm₁, fun e' h => ?_⟩
    cases h
    exact he₁ e rfl

theorem Confined.bind_store {f : Store → Eval β}
    (hf : ∀ s : Store, s.BodiesWithin S → Confined S E (f s)) :
    Confined S E (Eval.store >>= f) := by
  intro m hm
  rw [run_bind, run_store]
  exact hf m.store hm m hm

theorem Confined.tryCatch {x : Eval α} {h : Error → Eval α} (hx : Confined S E' x)
    (hh : ∀ e, E' e → Confined S E (h e)) : Confined S E (MonadExcept.tryCatch x h) := by
  intro m hm
  rw [run_tryCatch]
  obtain ⟨hm₁, he₁⟩ := hx m hm
  rcases hrun : x.run.run m with ⟨r, m₁⟩
  rw [hrun] at hm₁ he₁
  cases r with
  | ok a => exact ⟨hm₁, fun _ h' => by cases h'⟩
  | error e => exact hh e (he₁ e rfl) m₁ hm₁

theorem Confined.locating {x : Eval α} {p : Pos} (hx : Confined S (Error.BareOrAt S) x)
    (hp : S p) : Confined S (Error.At S) (Eval.locating p x) :=
  hx.tryCatch fun _ he => .throw (he.locate hp)

theorem Confined.store : Confined S E Eval.store := fun m hm => ⟨hm, fun _ h => by cases h⟩

theorem Confined.get : Confined S E (MonadState.get : Eval Machine) :=
  fun m hm => ⟨hm, fun _ h => by cases h⟩

theorem Confined.write (text : String) : Confined S E (Eval.write text) :=
  fun _ hm => ⟨hm, fun _ h => by cases h⟩

theorem Confined.readClock : Confined S E Eval.readClock := fun _ hm => ⟨hm, fun _ h => by cases h⟩

theorem Confined.update {f : Store → Except Error Store}
    (hf : ∀ s s', f s = .ok s' → s.BodiesWithin S → s'.BodiesWithin S)
    (he : ∀ s e, f s = .error e → E e) : Confined S E (Eval.update f) := by
  intro m hm
  rw [run_update]
  cases h : f m.store with
  | ok s => exact ⟨hf _ s h hm, fun _ h' => by cases h'⟩
  | error e =>
    refine ⟨hm, fun e' h' => ?_⟩
    cases h'
    exact he _ e h

theorem Confined.alloc {f : Store → Store × α}
    (hf : ∀ s : Store, s.BodiesWithin S → (f s).1.BodiesWithin S) :
    Confined S E (Eval.alloc f) :=
  fun m hm => ⟨hf m.store hm, fun _ h => by cases h⟩

theorem Confined.setStore {s : Store} (hs : s.BodiesWithin S) : Confined S E (Eval.setStore s) :=
  fun _ _ => ⟨hs, fun _ h => by cases h⟩

theorem Confined.alloc_of_closures {f : Store → Store × α}
    (hf : ∀ s : Store, (f s).1.closures = s.closures) : Confined S E (Eval.alloc f) :=
  Confined.alloc fun s hs => hs.of_closures (hf s)

end Monad

/-! ### The store's operations and the built-ins -/

section Operations

theorem Confined.lookupAt (env : Nat) (name : String) {p : Pos} (hp : S p) :
    Confined S (Error.At S) (Eval.lookupAt env name p) := by
  unfold Eval.lookupAt
  refine Confined.bind_store fun s _ => ?_
  cases h : s.lookup env name with
  | ok v => exact .pure v
  | error e => exact .throw (Error.BareOrAt.locate (.inl (Store.lookup_error_bare h)) hp)

theorem Confined.declareAt (env : Nat) (name : String) (v : Value) (mutable : Bool) {p : Pos}
    (hp : S p) : Confined S (Error.At S) (Eval.declareAt env name v mutable p) :=
  (Confined.update (fun _ _ h hs => hs.of_closures (Store.closures_declare h))
    (fun _ _ h => .inl (Store.declare_error_bare h))).locating hp

theorem Confined.assignAt (env : Nat) (name : String) (v : Value) {p : Pos} (hp : S p) :
    Confined S (Error.At S) (Eval.assignAt env name v p) :=
  (Confined.update (fun _ _ h hs => hs.of_closures (Store.closures_assign h))
    (fun _ _ h => .inl (Store.assign_error_bare h))).locating hp

theorem Confined.storeMember (c key v : Value) {p : Pos} (hp : S p) :
    Confined S (Error.At S) (Eval.update (·.storeMember c key v p)) :=
  Confined.update (fun _ _ h hs => hs.of_closures (Store.closures_storeMember h))
    (fun _ _ h => ⟨p, (Store.storeMember_error h).2, hp⟩)

theorem Confined.load (c key : Value) {p : Pos} (hp : S p) :
    Confined S (Error.At S) (Eval.load c key p) := by
  unfold Eval.load
  refine Confined.bind_store fun s _ => ?_
  cases h : s.loadMember c key p with
  | ok v => exact .pure v
  | error e => exact .throw ⟨p, (Store.loadMember_error h).2, hp⟩

theorem Confined.bindParams (env : Nat) :
    ∀ ps, Confined S (Error.BareOrAt S) (Eval.bindParams env ps)
  | [] => .pure ()
  | (_, _) :: ps =>
    (Confined.update (fun _ _ h hs => hs.of_closures (Store.closures_declare h))
      (fun _ _ h => .inl (Store.declare_error_bare h))).bind fun _ => Confined.bindParams env ps

theorem Confined.runNative (n : Native) (args : List Value) :
    Confined S (Error.BareOrAt S) (Eval.runNative n args) := by
  have halloc : ∀ xs : Array Value,
      Confined S (Error.BareOrAt S) (Eval.alloc (·.allocArray xs)) :=
    fun _ => Confined.alloc_of_closures fun _ => rfl
  have harity : ∀ want, Confined S (Error.BareOrAt S) (checkArity n args want) := by
    intro want
    unfold Eval.checkArity
    split
    · exact .pure ()
    · exact .throw (.inl rfl)
  unfold Eval.runNative
  cases n with
  | print => exact Confined.store.bind fun _ => (Confined.write _).bind fun _ => .pure _
  | dateNow => exact (harity 0).bind fun _ => Confined.readClock.bind fun _ => .pure _
  | arrayFrom => exact halloc _
  | arrayNew =>
    refine (harity 1).bind fun _ => ?_
    repeat' split
    all_goals first
      | exact halloc _
      | exact .pure _
      | exact .throw (.inl rfl)
  | arrayHas | arrayConcat =>
    refine (harity 2).bind fun _ => ?_
    split
    · exact Confined.store.bind fun _ => by first | exact .pure _ | exact halloc _
    · exact .throw (.inl rfl)
    · exact .pure _

end Operations

/-! ### Expressions, statements and calls -/

section Syntax

variable {call : CallFn}

theorem Confined.apply (hc : ∀ ref args, Confined S (Error.BareOrAt S) (call ref args))
    (callee : Value) (args : List Value) :
    Confined S (Error.BareOrAt S) (Eval.apply call callee args) := by
  cases callee with
  | native n => exact Confined.runNative n args
  | function r => exact hc r args
  | _ => exact .throw (.inl rfl)

theorem iterate_confined {step : Nat → Eval Outcome} (hs : ∀ i, Confined S E (step i)) :
    ∀ is last, Confined S E (iterate step is last)
  | [], last => .pure last
  | i :: is, _ => by
    rw [iterate]
    refine (hs i).bind fun o => ?_
    by_cases h : o.returning
    · simp only [h, if_true]
      exact .pure o
    · simp only [h, Bool.false_eq_true, if_false]
      exact iterate_confined hs is o

-- Expressions fail at their own positions: every failure without one passes a name, an
-- assignment or a call, which places it.
mutual

theorem evalExpr_confined (hc : ∀ ref args, Confined S (Error.BareOrAt S) (call ref args))
    (env : Nat) : (e : Expr) → e.Within S → Confined S (Error.At S) (evalExpr call env e)
  | .num _ _, _ | .str _ _, _ => .pure _
  | .ident name _, h => .lookupAt env name h
  | .binary _ l r _, h =>
    (evalExpr_confined hc env l h.1).bind fun _ =>
      (evalExpr_confined hc env r h.2.1).bind fun _ => .pure _
  | .assign (.var name _) v, h =>
    (evalExpr_confined hc env v h.2).bind fun x =>
      (Confined.assignAt env name x h.1).bind fun _ => .pure x
  | .assign (.member o _ _ _) v, h =>
    (evalExpr_confined hc env o h.1.1).bind fun c => (evalExpr_confined hc env v h.2).bind fun x =>
      (Confined.storeMember c _ x h.1.2.2).bind fun _ => .pure x
  | .assign (.index o k _) v, h =>
    (evalExpr_confined hc env o h.1.1).bind fun c =>
      (evalExpr_confined hc env k h.1.2.1).bind fun key =>
        (evalExpr_confined hc env v h.2).bind fun x =>
          (Confined.storeMember c key x h.1.2.2).bind fun _ => .pure x
  | .array es _, h =>
    (evalExprs_confined hc env es h.1).bind fun _ => Confined.alloc_of_closures fun _ => rfl
  | .object fs _, h =>
    (evalFields_confined hc env fs h.1).bind fun _ => Confined.alloc_of_closures fun _ => rfl
  | .member o _ _ _, h => (evalExpr_confined hc env o h.1).bind fun c => .load c _ h.2.2
  | .index o k _, h =>
    (evalExpr_confined hc env o h.1).bind fun c =>
      (evalExpr_confined hc env k h.2.1).bind fun key => .load c key h.2.2
  | .call f as _, h =>
    (evalExprs_confined hc env as h.2.1).bind fun args =>
      (evalExpr_confined hc env f h.1).bind fun callee =>
        (Confined.apply hc callee args).locating h.2.2

theorem evalExprs_confined (hc : ∀ ref args, Confined S (Error.BareOrAt S) (call ref args))
    (env : Nat) : (es : List Expr) → Expr.AllWithin S es →
      Confined S (Error.At S) (evalExprs call env es)
  | [], _ => .pure _
  | e :: es, h =>
    (evalExpr_confined hc env e h.1).bind fun _ =>
      (evalExprs_confined hc env es h.2).bind fun _ => .pure _

theorem evalFields_confined (hc : ∀ ref args, Confined S (Error.BareOrAt S) (call ref args))
    (env : Nat) : (fs : List Field) → Field.AllWithin S fs →
      Confined S (Error.At S) (evalFields call env fs)
  | [], _ => .pure _
  | .keyed _ _ v :: fs, h =>
    (evalExpr_confined hc env v h.1.2).bind fun _ =>
      (evalFields_confined hc env fs h.2).bind fun _ => .pure _
  | .shorthand k _ :: fs, h =>
    (Confined.lookupAt env k h.1).bind fun _ =>
      (evalFields_confined hc env fs h.2).bind fun _ => .pure _

end

mutual

theorem execStmt_confined (hc : ∀ ref args, Confined S (Error.BareOrAt S) (call ref args))
    (env : Nat) : (s : Stmt) → s.Within S → Confined S (Error.At S) (execStmt call env s)
  | .expr e, h => (evalExpr_confined hc env e h).bind fun _ => .pure _
  | .letDecl name (some e) _, h =>
    (evalExpr_confined hc env e h.1).bind fun v =>
      (Confined.declareAt env name v true h.2).bind fun _ => .pure _
  | .letDecl name none _, h =>
    (Confined.pure _).bind fun v => (Confined.declareAt env name v true h).bind fun _ => .pure _
  | .constDecl name init _, h =>
    (evalExpr_confined hc env init h.1).bind fun v =>
      (Confined.declareAt env name v false h.2).bind fun _ => .pure _
  | .funcDecl name _ _ _, h => by
    rw [execStmt.eq_def]
    dsimp only
    -- the function's body is a part of the statement, so it lies within `S` too
    refine (Confined.alloc fun _ hs => Store.bodiesWithin_allocClosure hs h.1).bind fun ref => ?_
    refine (Confined.declareAt env name _ false h.2).bind fun _ => ?_
    refine (Confined.alloc_of_closures fun s => Store.closures_snapshot s env).bind fun snap => ?_
    exact Confined.bind_store fun _ hs =>
      (Confined.setStore (Store.bodiesWithin_setClosureEnv hs ref snap)).bind fun _ => .pure _
  | .ret (some e) _, h => (evalExpr_confined hc env e h.1).bind fun _ => .pure _
  | .ret none _, _ => (Confined.pure _).bind fun _ => .pure _
  | .ifElse c thenBody none _, h => by
    rw [execStmt.eq_def]
    dsimp only
    refine (evalExpr_confined hc env c h.1).bind fun cv => ?_
    split
    · exact (Confined.alloc_of_closures fun _ => rfl).bind fun f =>
        execBlock_confined hc f thenBody h.2.1
    · exact .pure _
  | .ifElse c thenBody (some b) _, h => by
    rw [execStmt.eq_def]
    dsimp only
    refine (evalExpr_confined hc env c h.1).bind fun cv => ?_
    split
    · exact (Confined.alloc_of_closures fun _ => rfl).bind fun f =>
        execBlock_confined hc f thenBody h.2.1
    · exact (Confined.alloc_of_closures fun _ => rfl).bind fun f =>
        execBlock_confined hc f b h.2.2.1
  | .forIn binding iterable body p, h => by
    rw [execStmt.eq_def]
    dsimp only
    refine (evalExpr_confined hc env iterable h.1).bind fun iv => ?_
    cases iv with
    | array r =>
      have hstep : ∀ i, Confined S (Error.At S) (do
          let x := ((← Eval.store).elems r).getD i .null
          assignAt env binding x p
          let f ← alloc (·.newFrame (some env))
          execBlock call f body) := fun _ =>
        Confined.bind_store fun _ _ => (Confined.assignAt _ _ _ h.2.2).bind fun _ =>
          (Confined.alloc_of_closures fun _ => rfl).bind fun f =>
            execBlock_confined hc f body h.2.1
      refine (Confined.declareAt env binding .null true h.2.2).bind fun _ =>
        Confined.store.bind fun _ => ?_
      refine Confined.bind ?_ fun o => ?_
      · refine Confined.tryCatch (iterate_confined hstep _ _) fun _ he => ?_
        exact Confined.bind_store fun _ hs =>
          (Confined.setStore (hs.of_closures rfl)).bind fun _ => .throw he
      · exact Confined.bind_store fun _ hs =>
          (Confined.setStore (hs.of_closures rfl)).bind fun _ => .pure o
    | _ => exact .throw ⟨iterable.pos, rfl, h.1.pos⟩
termination_by s => sizeOf s

theorem execBlock_confined (hc : ∀ ref args, Confined S (Error.BareOrAt S) (call ref args))
    (env : Nat) : (ss : List Stmt) → Stmt.AllWithin S ss →
      Confined S (Error.At S) (execBlock call env ss)
  | [], _ => .pure _
  | s :: rest, h => by
    rw [execBlock.eq_def]
    dsimp only
    refine (execStmt_confined hc env s h.1).bind fun o => ?_
    split
    · exact .pure o
    · split
      · exact .pure o
      · exact execBlock_confined hc env _ h.2
termination_by ss => sizeOf ss

end

end Syntax

/-- A user call fails at a position of `S` or at none: its own checks raise failures with no
position, and its body, a function of the store, lies within `S`. -/
theorem callWith_confined (limit : Option Nat) :
    ∀ budget ref args, Confined S (Error.BareOrAt S) (callWith limit budget ref args)
  | 0, ref, args => by
    rw [callWith]
    refine Confined.bind_store fun s _ => ?_
    dsimp only
    split <;> exact .throw (.inl rfl)
  | budget + 1, ref, args => by
    rw [callWith]
    refine Confined.bind_store fun s hs => ?_
    dsimp only
    split
    · exact .throw (.inl rfl)
    · exact (Confined.alloc_of_closures fun _ => rfl).bind fun scope =>
        (Confined.bindParams scope _).bind fun _ =>
          ((execBlock_confined (callWith_confined limit budget) scope _ (hs ref)).mono
            fun _ he => he.bareOrAt).bind fun _ => .pure _

/-- A program whose positions lie in `S` fails at a position of `S`, and keeps the store's
functions within `S`. -/
theorem runProgram_confined (limit : Option Nat) (env : Nat) {prog : Program}
    (hp : Stmt.AllWithin S prog) : Confined S (Error.At S) (runProgram limit env prog) :=
  (execBlock_confined (callWith_confined limit _) env prog hp).bind fun _ => .pure _

end Eval

/-! ### Sessions -/

namespace Session

variable {S : Pos → Prop}

/-- A program within `S`, run on a session whose functions lie within `S`, fails at a position
of `S` and leaves the session's functions within `S`. -/
theorem exec_confined (s : Session) {prog : Program} (hs : s.machine.store.BodiesWithin S)
    (hp : Stmt.AllWithin S prog) :
    (∀ e, (s.exec prog).1.result = .error e → e.At S) ∧
      (s.exec prog).2.machine.store.BodiesWithin S := by
  have h := Eval.runProgram_confined s.limit s.global hp { s.machine with out := "" } hs
  simp only [exec]
  rcases hrun : (Eval.runProgram s.limit s.global prog).run.run { s.machine with out := "" }
    with ⟨r, m⟩
  rw [hrun] at h
  exact ⟨h.2, h.1⟩

/-- A text run on a session whose functions lie within `S`, where `S` holds the positions of
the text's tokens: a failure is at a position of `S`, or at the quote or `/*` that the text
never closes, and the session's functions stay within `S`. -/
theorem run_confined (s : Session) {src : String} (hs : s.machine.store.BodiesWithin S)
    (hS : ∀ q, Lexer.TokenAt src q → S q) :
    (∀ e, (s.run src).1.result = .error e → e.At S ∨
      ∃ pre rest, src.toList = pre ++ rest ∧ e.pos = some (Pos.ofPrefix pre) ∧
        e.fault.OpensAt rest) ∧
      (s.run src).2.machine.store.BodiesWithin S := by
  obtain ⟨hok, herr⟩ := Lexer.parse_placed src
  unfold run
  cases hp : Parser.parse src with
  | error e =>
    refine ⟨fun e' he => ?_, hs⟩
    have he' : e = e' := by
      simp only [Except.error.injEq] at he
      exact he
    subst he'
    rcases herr e hp with ⟨q, hq, hT⟩ | hlex
    · exact .inl ⟨q, hq, hS q hT⟩
    · exact .inr hlex
  | ok prog =>
    have h := exec_confined s hs (Stmt.AllWithin.mono hS prog (hok prog hp))
    exact ⟨fun e he => .inl (h.1 e he), h.2⟩

theorem runs_confined (ps : List String) (hS : ∀ p ∈ ps, ∀ q, Lexer.TokenAt p q → S q)
    (s : Session) (hs : s.machine.store.BodiesWithin S) :
    (ps.foldl (fun s p => (s.run p).2) s).machine.store.BodiesWithin S := by
  induction ps generalizing s with
  | nil => exact hs
  | cons p ps ih =>
    rw [List.foldl_cons]
    have hstep := (s.run_confined hs (hS p List.mem_cons_self)).2
    exact ih (fun p' hp' => hS p' (List.mem_cons_of_mem p hp')) _ hstep

end Session

/-- Every failure of a text run on a session, after the texts `before` ran on it from a state
with no user functions, has a position on line 1 or later: the position of a token of the text
or of one of those before it, or, when the text does not lex, that of the quote or `/*` it
never closes. -/
theorem run_error_positions (s₀ : Session) (h₀ : s₀.machine.store.closures = #[])
    (before : List String) (src : String) :
    let s := before.foldl (fun s p => (s.run p).2) s₀
    ∀ e, (s.run src).1.result = .error e →
      ∃ q, e.pos = some q ∧ 1 ≤ q.line ∧
        ((∃ p ∈ src :: before, Lexer.TokenAt p q) ∨
          ∃ pre rest, src.toList = pre ++ rest ∧ q = Pos.ofPrefix pre ∧ e.fault.OpensAt rest) := by
  intro s e he
  -- the positions of the tokens of every text that ran, the last one included
  let S : Pos → Prop := fun q => ∃ p ∈ src :: before, Lexer.TokenAt p q
  have hs : s.machine.store.BodiesWithin S :=
    Session.runs_confined before (fun p hp q hq => ⟨p, List.mem_cons_of_mem src hp, hq⟩) s₀
      (Store.bodiesWithin_empty h₀)
  rcases (s.run_confined hs fun q hq => ⟨src, List.mem_cons_self, hq⟩).1 e he with
    ⟨q, hq, p, hp, hT⟩ | ⟨pre, rest, hsrc, hq, ho⟩
  · exact ⟨q, hq, hT.one_le_line, .inl ⟨p, hp, hT⟩⟩
  · exact ⟨_, hq, Nat.le_add_right 1 _, .inr ⟨pre, rest, hsrc, rfl, ho⟩⟩

/-- A function declared by one text and called with too few arguments by the next, on a new
session: the failure is placed in one of the two texts. -/
theorem run_error_positions_arity :
    (Session.new 0).machine.store.closures = #[] ∧
    let s := ["func f(x) { x }"].foldl (fun s p => (s.run p).2) (Session.new 0)
    ∀ e, (s.run "f()").1.result = .error e →
      ∃ q, e.pos = some q ∧ 1 ≤ q.line ∧
        ((∃ p ∈ ["f()", "func f(x) { x }"], Lexer.TokenAt p q) ∨
          ∃ pre rest, "f()".toList = pre ++ rest ∧ q = Pos.ofPrefix pre ∧
            e.fault.OpensAt rest) :=
  ⟨rfl, run_error_positions (Session.new 0) rfl ["func f(x) { x }"] "f()"⟩

end Treewalk
