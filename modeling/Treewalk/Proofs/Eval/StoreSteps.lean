import Mathlib
import Treewalk.Proofs.Scope.Discipline
/-!
# What every run keeps of the store

The evaluator changes the store through a handful of operations: declaring, assigning and
removing names, writing members, allocating arrays, objects, functions and frames, copying a
scope, and setting the frame a function captured. A relation between a store and a later one
that is a preorder and holds across each of these operations (`Store.Kept`) holds across every
run of an expression, a statement, a block, a user call and a whole program, however the run
ends (`Eval.execStmt_keeps_rel`, `Eval.runProgram_keeps_rel`).

Most operations leave the arrays and objects alone. A relation that reads nothing else needs
checking only on member writes and on allocating arrays and objects (`Store.Kept.of_heap`).
-/
namespace Treewalk

namespace Store

/-- A relation between a store and a later one that each store operation of the evaluator
keeps: it is a preorder, and every operation relates the store it starts from to the one it
leaves. Objects are allocated only from the entries of a literal. A function is captured only
as its declaration does it: allocated, bound, and then pointed at a snapshot of the scope. -/
structure Kept (R : Store → Store → Prop) : Prop where
  refl : ∀ s, R s s
  trans : ∀ {s₁ s₂ s₃ : Store}, R s₁ s₂ → R s₂ s₃ → R s₁ s₃
  declare : ∀ {s s' : Store} {i name v mutable}, s.declare i name v mutable = .ok s' → R s s'
  assign : ∀ {s s' : Store} {i name v}, s.assign i name v = .ok s' → R s s'
  remove : ∀ (s : Store) i name, R s (s.remove i name)
  storeMember : ∀ {s s' : Store} {c key v p}, s.storeMember c key v p = .ok s' → R s s'
  allocArray : ∀ (s : Store) xs, R s (s.allocArray xs).1
  allocObject : ∀ (s : Store) entries, R s (s.allocObject (Props.ofList entries)).1
  allocClosure : ∀ (s : Store) c, R s (s.allocClosure c).1
  newFrame : ∀ (s : Store) parent, R s (s.newFrame parent).1
  snapshot : ∀ (s : Store) i, R s (s.snapshot i).1
  capture : ∀ {s s' : Store} {c : Closure} {i name},
    (s.allocClosure c).1.declare i name (.function s.closures.size) false = .ok s' →
      R s ((s'.snapshot i).1.setClosureEnv s.closures.size (s'.snapshot i).2)

def SameHeap (s s' : Store) : Prop := s'.arrays = s.arrays ∧ s'.objects = s.objects

variable {s s' : Store}

theorem sameHeap_declare {i : Nat} {name : String} {v : Value} {mutable : Bool}
    (h : s.declare i name v mutable = .ok s') : SameHeap s s' := by
  obtain ⟨-, rfl⟩ := declare_ok h
  exact ⟨rfl, rfl⟩

theorem closures_declare {i : Nat} {name : String} {v : Value} {mutable : Bool}
    (h : s.declare i name v mutable = .ok s') : s'.closures = s.closures := by
  obtain ⟨-, rfl⟩ := declare_ok h
  rfl

theorem find?_declare {s s' : Store} {i : Nat} {name : String} {v : Value} {mutable : Bool}
    (h : s.declare i name v mutable = .ok s') (hi : i < s.frames.size) :
    (s'.frame i).find? name = some ⟨v, mutable⟩ := by
  obtain ⟨hfree, rfl⟩ := declare_ok h
  rw [frame_modify, if_pos rfl, if_pos hi, Frame.find?_declare hfree,
    Function.update_self]

theorem resolve_self {s : Store} {i : Nat} {name : String} (h : (s.frame i).binds name = true) :
    s.resolve name i = some i := by
  rw [resolve]
  simp [h]

theorem sameHeap_assign {i : Nat} {name : String} {v : Value} (h : s.assign i name v = .ok s') :
    SameHeap s s' := by
  obtain ⟨j, -, -, rfl⟩ := assign_ok h
  exact ⟨rfl, rfl⟩

theorem sameHeap_snapshot (s : Store) (i : Nat) : SameHeap s (s.snapshot i).1 := by
  obtain ⟨fs, h⟩ := snapshot_extends s i
  rw [h]
  exact ⟨rfl, rfl⟩

theorem closures_assign {i : Nat} {name : String} {v : Value} (h : s.assign i name v = .ok s') :
    s'.closures = s.closures := by
  obtain ⟨j, -, -, rfl⟩ := assign_ok h
  rfl

theorem closures_storeMember {c key v : Value} {p : Pos} (h : s.storeMember c key v p = .ok s') :
    s'.closures = s.closures := by
  rcases storeMember_ok h with ⟨r, k, -, -, rfl⟩ | ⟨r, n, -, -, -, -, rfl⟩ <;> rfl

theorem closures_snapshot (s : Store) (i : Nat) : (s.snapshot i).1.closures = s.closures := by
  obtain ⟨fs, h⟩ := snapshot_extends s i
  rw [h]

variable {R : Store → Store → Prop}

/-- A preorder that holds between stores with the same arrays and objects is kept by the
evaluator as soon as member writes and the allocation of arrays and objects keep it. -/
theorem Kept.of_heap (hsame : ∀ s s', SameHeap s s' → R s s')
    (htrans : ∀ {s₁ s₂ s₃ : Store}, R s₁ s₂ → R s₂ s₃ → R s₁ s₃)
    (hmember : ∀ {s s' : Store} {c key v p}, s.storeMember c key v p = .ok s' → R s s')
    (harray : ∀ (s : Store) xs, R s (s.allocArray xs).1)
    (hobject : ∀ (s : Store) entries, R s (s.allocObject (Props.ofList entries)).1) : Kept R where
  refl s := hsame s s ⟨rfl, rfl⟩
  trans := htrans
  declare h := hsame _ _ (sameHeap_declare h)
  assign h := hsame _ _ (sameHeap_assign h)
  remove _ _ _ := hsame _ _ ⟨rfl, rfl⟩
  storeMember := hmember
  allocArray := harray
  allocObject := hobject
  allocClosure _ _ := hsame _ _ ⟨rfl, rfl⟩
  newFrame _ _ := hsame _ _ ⟨rfl, rfl⟩
  snapshot s i := hsame _ _ (sameHeap_snapshot s i)
  capture {s s' _ i _} h := by
    have h₁ := sameHeap_declare h
    have h₂ := sameHeap_snapshot s' i
    exact hsame _ _ ⟨h₂.1.trans h₁.1, h₂.2.trans h₁.2⟩

end Store

namespace Eval

variable {α β : Type} {R : Store → Store → Prop} {x : Eval α}

/-- `x` relates, from every machine, the store it starts from to the store it leaves. -/
def Keeps (R : Store → Store → Prop) (x : Eval α) : Prop :=
  ∀ m : Machine, R m.store (x.run.run m).2.store

theorem Keeps.alloc {f : Store → Store × α} (hf : ∀ s : Store, R s (f s).1) : Keeps R (alloc f) :=
  fun m => hf m.store

theorem Keeps.restore {g : Store → Store} (hg : ∀ s : Store, R s (g s)) :
    Keeps R (do setStore (g (← Eval.store))) :=
  fun m => hg m.store

section Monad

variable (hR : Store.Kept R)
include hR

theorem Keeps.pure (a : α) : Keeps R (pure a : Eval α) := fun m => hR.refl m.store

theorem Keeps.throw (e : Error) : Keeps R (throw e : Eval α) := fun m => hR.refl m.store

theorem Keeps.bind {f : α → Eval β} (hx : Keeps R x) (hf : ∀ a, Keeps R (f a)) :
    Keeps R (x >>= f) := by
  intro m
  rw [run_bind]
  have h := hx m
  rcases hrun : x.run.run m with ⟨r, m₁⟩
  rw [hrun] at h
  cases r with
  | ok a => exact hR.trans h (hf a m₁)
  | error e => exact h

theorem Keeps.tryCatch {h : Error → Eval α} (hx : Keeps R x) (hh : ∀ e, Keeps R (h e)) :
    Keeps R (tryCatch x h) := by
  intro m
  rw [run_tryCatch]
  have hk := hx m
  rcases hrun : x.run.run m with ⟨r, m₁⟩
  rw [hrun] at hk
  cases r with
  | ok a => exact hk
  | error e => exact hR.trans hk (hh e m₁)

theorem Keeps.locating (p : Pos) (hx : Keeps R x) : Keeps R (locating p x) :=
  hx.tryCatch hR fun _ => .throw hR _

theorem Keeps.get : Keeps R (get : Eval Machine) := fun m => hR.refl m.store

theorem Keeps.store : Keeps R store := fun m => hR.refl m.store

theorem Keeps.write (text : String) : Keeps R (write text) := fun m => hR.refl m.store

theorem Keeps.readClock : Keeps R readClock := fun m => hR.refl m.store

theorem Keeps.update {f : Store → Except Error Store} (hf : ∀ s s', f s = .ok s' → R s s') :
    Keeps R (update f) := by
  intro m
  rw [run_update]
  cases h : f m.store with
  | ok s => exact hf m.store s h
  | error e => exact hR.refl m.store

theorem Keeps.lookupAt (env : Nat) (name : String) (p : Pos) : Keeps R (lookupAt env name p) := by
  refine (Keeps.store hR).bind hR fun s => ?_
  cases s.lookup env name with
  | ok v => exact .pure hR v
  | error e => exact .throw hR _

theorem Keeps.load (c key : Value) (p : Pos) : Keeps R (load c key p) := by
  refine (Keeps.store hR).bind hR fun s => ?_
  cases s.loadMember c key p with
  | ok v => exact .pure hR v
  | error e => exact .throw hR e

theorem Keeps.declareAt (env : Nat) (name : String) (v : Value) (mutable : Bool) (p : Pos) :
    Keeps R (declareAt env name v mutable p) :=
  (Keeps.update hR fun _ _ h => hR.declare h).locating hR p

theorem Keeps.assignAt (env : Nat) (name : String) (v : Value) (p : Pos) :
    Keeps R (assignAt env name v p) :=
  (Keeps.update hR fun _ _ h => hR.assign h).locating hR p

theorem Keeps.storeMember (c key v : Value) (p : Pos) :
    Keeps R (Eval.update (·.storeMember c key v p)) :=
  Keeps.update hR fun _ _ h => hR.storeMember h

theorem Keeps.bindParams (env : Nat) : ∀ ps, Keeps R (bindParams env ps)
  | [] => .pure hR ()
  | (_, _) :: ps =>
    (Keeps.update hR fun _ _ h => hR.declare h).bind hR fun _ => Keeps.bindParams env ps

theorem Keeps.runNative (n : Native) (args : List Value) : Keeps R (runNative n args) := by
  have halloc : ∀ xs : Array Value, Keeps R (Eval.alloc (·.allocArray xs)) :=
    fun xs => Keeps.alloc fun s => hR.allocArray s xs
  have harity : ∀ want, Keeps R (checkArity n args want) := by
    intro want
    unfold Eval.checkArity
    split
    · exact .pure hR ()
    · exact .throw hR _
  unfold Eval.runNative
  cases n with
  | print =>
    exact (Keeps.store hR).bind hR fun _ => (Keeps.write hR _).bind hR fun _ => .pure hR _
  | dateNow => exact (harity 0).bind hR fun _ => (Keeps.readClock hR).bind hR fun _ => .pure hR _
  | arrayFrom => exact halloc _
  | arrayNew =>
    refine (harity 1).bind hR fun _ => ?_
    repeat' split
    all_goals first
      | exact halloc _
      | exact .pure hR _
      | exact .throw hR _
  | arrayHas | arrayConcat =>
    refine (harity 2).bind hR fun _ => ?_
    split
    · exact (Keeps.store hR).bind hR fun _ => by first | exact .pure hR _ | exact halloc _
    · exact .throw hR _
    · exact .pure hR _

theorem Keeps.inNewFrame {parent : Option Nat} {y : Nat → Eval α} (hy : ∀ f, Keeps R (y f)) :
    Keeps R (Eval.alloc (·.newFrame parent) >>= y) :=
  (Keeps.alloc fun s => hR.newFrame s parent).bind hR hy

theorem iterate_keeps_rel {step : Nat → Eval Outcome} (hs : ∀ i, Keeps R (step i)) :
    ∀ is last, Keeps R (iterate step is last)
  | [], last => .pure hR last
  | i :: is, _ => by
    rw [iterate]
    refine (hs i).bind hR fun o => ?_
    by_cases h : o.returning
    · simp only [h, if_true]
      exact .pure hR o
    · simp only [h, Bool.false_eq_true, if_false]
      exact iterate_keeps_rel hs is o

end Monad

section Declarations

variable (call : CallFn) (env : Nat) (name : String) (params : List String) (body : List Stmt)
  (p : Pos) (m : Machine)

theorem run_funcDecl_error {e : Error}
    (hd : (m.store.allocClosure ⟨name, params, body, env⟩).1.declare env name
      (.function (m.store.allocClosure ⟨name, params, body, env⟩).2) false = .error e) :
    (execStmt call env (.funcDecl name params body p)).run.run m =
      (.error (e.locate p), { m with store := (m.store.allocClosure ⟨name, params, body, env⟩).1 }) := by
  rw [execStmt.eq_def]
  dsimp only
  rw [run_bind, run_alloc]
  dsimp only
  rw [run_bind, run_declareAt, hd]

theorem run_funcDecl_ok {s₂ : Store}
    (hd : (m.store.allocClosure ⟨name, params, body, env⟩).1.declare env name
      (.function (m.store.allocClosure ⟨name, params, body, env⟩).2) false = .ok s₂) :
    (execStmt call env (.funcDecl name params body p)).run.run m =
      (.ok ⟨.function m.store.closures.size, false⟩,
        { m with store := ((s₂.snapshot env).1.setClosureEnv m.store.closures.size
          (s₂.snapshot env).2) }) := by
  rw [execStmt.eq_def]
  dsimp only
  rw [run_bind, run_alloc]
  dsimp only
  rw [run_bind, run_declareAt, hd]
  dsimp only
  rw [run_bind, run_alloc]
  dsimp only
  rw [run_bind, run_store]
  rfl

end Declarations

section Syntax

variable {call : CallFn} (hR : Store.Kept R)
include hR

theorem Keeps.apply (hc : ∀ ref args, Keeps R (call ref args)) (callee : Value) (args : List Value) :
    Keeps R (apply call callee args) := by
  cases callee with
  | native n => exact Keeps.runNative hR n args
  | function r => exact hc r args
  | _ => exact .throw hR _

mutual

theorem evalExpr_keeps_rel (hc : ∀ ref args, Keeps R (call ref args)) (env : Nat) :
    (e : Expr) → Keeps R (evalExpr call env e)
  | .num _ _ | .str _ _ => .pure hR _
  | .ident name p => .lookupAt hR env name p
  | .binary _ l r _ =>
    (evalExpr_keeps_rel hc env l).bind hR fun _ =>
      (evalExpr_keeps_rel hc env r).bind hR fun _ => .pure hR _
  | .assign (.var name p) v =>
    (evalExpr_keeps_rel hc env v).bind hR fun x =>
      (Keeps.assignAt hR env name x p).bind hR fun _ => .pure hR x
  | .assign (.member o name _ p) v =>
    (evalExpr_keeps_rel hc env o).bind hR fun c => (evalExpr_keeps_rel hc env v).bind hR fun x =>
      (Keeps.storeMember hR c (.str name) x p).bind hR fun _ => .pure hR x
  | .assign (.index o k p) v =>
    (evalExpr_keeps_rel hc env o).bind hR fun c =>
      (evalExpr_keeps_rel hc env k).bind hR fun key =>
        (evalExpr_keeps_rel hc env v).bind hR fun x =>
          (Keeps.storeMember hR c key x p).bind hR fun _ => .pure hR x
  | .array es _ =>
    (evalExprs_keeps_rel hc env es).bind hR fun _ => Keeps.alloc fun s => hR.allocArray s _
  | .object fs _ =>
    (evalFields_keeps_rel hc env fs).bind hR fun entries =>
      Keeps.alloc fun s => hR.allocObject s entries
  | .member o _ _ p => (evalExpr_keeps_rel hc env o).bind hR fun c => .load hR c _ p
  | .index o k p =>
    (evalExpr_keeps_rel hc env o).bind hR fun c =>
      (evalExpr_keeps_rel hc env k).bind hR fun key => .load hR c key p
  | .call f as p =>
    (evalExprs_keeps_rel hc env as).bind hR fun args =>
      (evalExpr_keeps_rel hc env f).bind hR fun callee =>
        (Keeps.apply hR hc callee args).locating hR p

theorem evalExprs_keeps_rel (hc : ∀ ref args, Keeps R (call ref args)) (env : Nat) :
    (es : List Expr) → Keeps R (evalExprs call env es)
  | [] => .pure hR _
  | e :: es =>
    (evalExpr_keeps_rel hc env e).bind hR fun _ =>
      (evalExprs_keeps_rel hc env es).bind hR fun _ => .pure hR _

theorem evalFields_keeps_rel (hc : ∀ ref args, Keeps R (call ref args)) (env : Nat) :
    (fs : List Field) → Keeps R (evalFields call env fs)
  | [] => .pure hR _
  | .keyed _ _ v :: fs =>
    (evalExpr_keeps_rel hc env v).bind hR fun _ =>
      (evalFields_keeps_rel hc env fs).bind hR fun _ => .pure hR _
  | .shorthand k p :: fs =>
    (Keeps.lookupAt hR env k p).bind hR fun _ =>
      (evalFields_keeps_rel hc env fs).bind hR fun _ => .pure hR _

end

mutual

theorem execStmt_keeps_rel (hc : ∀ ref args, Keeps R (call ref args)) (env : Nat) :
    (s : Stmt) → Keeps R (execStmt call env s)
  | .expr e => (evalExpr_keeps_rel hR hc env e).bind hR fun _ => .pure hR _
  | .letDecl name (some e) p =>
    (evalExpr_keeps_rel hR hc env e).bind hR fun v =>
      (Keeps.declareAt hR env name v true p).bind hR fun _ => .pure hR _
  | .letDecl name none p =>
    (Keeps.pure hR _).bind hR fun v =>
      (Keeps.declareAt hR env name v true p).bind hR fun _ => .pure hR _
  | .constDecl name init p =>
    (evalExpr_keeps_rel hR hc env init).bind hR fun v =>
      (Keeps.declareAt hR env name v false p).bind hR fun _ => .pure hR _
  | .funcDecl name params body p => fun m => by
    cases hd : (m.store.allocClosure ⟨name, params, body, env⟩).1.declare env name
        (.function (m.store.allocClosure ⟨name, params, body, env⟩).2) false with
    | error e =>
      rw [run_funcDecl_error call env name params body p m hd]
      exact hR.allocClosure _ _
    | ok s₂ =>
      rw [run_funcDecl_ok call env name params body p m hd]
      exact hR.capture hd
  | .ret (some e) _ => (evalExpr_keeps_rel hR hc env e).bind hR fun _ => .pure hR _
  | .ret none _ => (Keeps.pure hR _).bind hR fun _ => .pure hR _
  | .ifElse c thenBody elseBody _ => by
    rw [execStmt.eq_def]
    dsimp only
    refine (evalExpr_keeps_rel hR hc env c).bind hR fun cv => ?_
    split
    · exact Keeps.inNewFrame hR fun f => execBlock_keeps_rel hc f thenBody
    · split
      · exact .pure hR _
      · exact Keeps.inNewFrame hR fun f => execBlock_keeps_rel hc f _
  | .forIn binding iterable body p => by
    rw [execStmt.eq_def]
    dsimp only
    refine (evalExpr_keeps_rel hR hc env iterable).bind hR fun iv => ?_
    cases iv with
    | array r =>
      have hstep : ∀ i, Keeps R (do
          let x := ((← Eval.store).elems r).getD i .null
          assignAt env binding x p
          let f ← alloc (·.newFrame (some env))
          execBlock call f body) := fun _ =>
        (Keeps.store hR).bind hR fun _ => (Keeps.assignAt hR _ _ _ _).bind hR fun _ =>
          Keeps.inNewFrame hR fun f => execBlock_keeps_rel hc f body
      refine (Keeps.declareAt hR env binding .null true p).bind hR fun _ =>
        (Keeps.store hR).bind hR fun _ => ?_
      refine ((iterate_keeps_rel hR hstep _ _).tryCatch hR fun e =>
        (Keeps.restore fun s => hR.remove s env binding).bind hR fun _ =>
          .throw hR e).bind hR fun o => ?_
      exact (Keeps.restore fun s => hR.remove s env binding).bind hR fun _ => .pure hR o
    | _ => exact .throw hR _
termination_by s => sizeOf s

theorem execBlock_keeps_rel (hc : ∀ ref args, Keeps R (call ref args)) (env : Nat) :
    (ss : List Stmt) → Keeps R (execBlock call env ss)
  | [] => .pure hR _
  | s :: rest => by
    rw [execBlock.eq_def]
    dsimp only
    refine (execStmt_keeps_rel hc env s).bind hR fun o => ?_
    split
    · exact .pure hR o
    · split
      · exact .pure hR o
      · exact execBlock_keeps_rel hc env _
termination_by ss => sizeOf ss

end

end Syntax

theorem callWith_keeps_rel (hR : Store.Kept R) (limit : Option Nat) :
    ∀ budget ref args, Keeps R (callWith limit budget ref args)
  | 0, ref, args => by
    rw [callWith]
    refine (Keeps.store hR).bind hR fun s => ?_
    dsimp only
    split <;> exact .throw hR _
  | budget + 1, ref, args => by
    rw [callWith]
    refine (Keeps.store hR).bind hR fun s => ?_
    dsimp only
    split
    · exact .throw hR _
    · exact Keeps.inNewFrame hR fun scope => (Keeps.bindParams hR scope _).bind hR fun _ =>
        (execBlock_keeps_rel hR (callWith_keeps_rel hR limit budget) scope _).bind hR fun _ =>
          .pure hR _

theorem execStmt_keeps_rel_of_kept (hR : Store.Kept R) (limit : Option Nat) (budget env : Nat)
    (s : Stmt) : Keeps R (execStmt (callWith limit budget) env s) :=
  execStmt_keeps_rel hR (callWith_keeps_rel hR limit budget) env s

/-- A whole program keeps every kept relation. -/
theorem runProgram_keeps_rel (hR : Store.Kept R) (limit : Option Nat) (env : Nat)
    (prog : Program) : Keeps R (runProgram limit env prog) :=
  (execBlock_keeps_rel hR (callWith_keeps_rel hR limit _) env prog).bind hR fun _ => .pure hR _

end Eval

end Treewalk
