import Mathlib
import Treewalk.Session
import Treewalk.Proofs.Eval.Operations
/-!
# The depth limit is monotone and otherwise invisible

Run a program twice from one machine, with budgets of `b₁ ≤ b₂` nested calls. The runs take
the same steps until the first one makes a call with no budget left, where it fails with the
depth error of its limit. `DepthApprox d x y` says this of two computations: the second only
appends to the output, and either both give the same result and the same machine, and that
result is no depth error, or the first fails with the depth error of the limit `d` having
written a prefix of what the second writes. The monad's operations keep the relation, the
store operations and built-ins hold it with themselves, and so, by induction over syntax and
then over the budget, every program run holds it.

A session runs each program with the full budget of its limit and keeps no count of calls
between runs, so a run that failed, on the depth limit or otherwise, leaves nothing that a
later run could see but the machine.
-/
namespace Treewalk

def Machine.Continues (m m' : Machine) : Prop := ∃ t, m'.out = m.out ++ t

namespace Machine

theorem Continues.refl (m : Machine) : m.Continues m := ⟨"", by simp⟩

theorem Continues.trans {m₁ m₂ m₃ : Machine} (h₁ : m₁.Continues m₂) (h₂ : m₂.Continues m₃) :
    m₁.Continues m₃ := by
  obtain ⟨t₁, h₁⟩ := h₁
  obtain ⟨t₂, h₂⟩ := h₂
  exact ⟨t₁ ++ t₂, by rw [h₂, h₁, String.append_assoc]⟩

theorem Continues.of_out_eq {m m' : Machine} (h : m'.out = m.out) : m.Continues m' :=
  ⟨"", by simp [h]⟩

end Machine

namespace Error

@[simp] theorem fault_locate (e : Error) (p : Pos) : (e.locate p).fault = e.fault := by
  unfold locate
  split <;> rfl

@[simp] theorem kind_locate (e : Error) (p : Pos) : (e.locate p).kind = e.kind := by
  simp only [kind, fault_locate]

end Error

namespace Eval

variable {α β : Type}

theorem run_bind (x : Eval α) (f : α → Eval β) (m : Machine) :
    (x >>= f).run.run m = match x.run.run m with
      | (.ok a, m') => (f a).run.run m'
      | (.error e, m') => (.error e, m') := by
  simp only [ExceptT.run_bind, StateT.run_bind]
  rcases x.run.run m with ⟨r, m'⟩
  cases r <;> rfl

theorem run_tryCatch (x : Eval α) (h : Error → Eval α) (m : Machine) :
    (tryCatch x h).run.run m = match x.run.run m with
      | (.ok a, m') => (.ok a, m')
      | (.error e, m') => (h e).run.run m' := by
  simp only [ExceptT.run_tryCatch, StateT.run_bind]
  rcases x.run.run m with ⟨r, m'⟩
  cases r <;> rfl

def IsDepthOf (d : Nat) (e : Error) : Prop := ∃ callee, e.fault = .callDepth d callee

/-- A computation that only appends to the output and never fails on the depth limit. -/
structure Tame (x : Eval α) : Prop where
  continues : ∀ m : Machine, m.Continues (x.run.run m).2
  no_depth : ∀ m (e : Error), (x.run.run m).1 = .error e → e.kind ≠ .depth

/-- `x`, run with a smaller call budget than `y`, agrees with it until it fails on the depth
limit `d`: `y` only appends to the output, and either both give the same result and machine,
no depth error, or `x` fails with the depth error of `d` having written a prefix of what `y`
writes. -/
def DepthApprox (d : Nat) (x y : Eval α) : Prop :=
  ∀ m : Machine, m.Continues (y.run.run m).2 ∧
    ((x.run.run m = y.run.run m ∧ ∀ e, (x.run.run m).1 = .error e → e.kind ≠ .depth) ∨
      ∃ e, (x.run.run m).1 = .error e ∧ IsDepthOf d e ∧
        (x.run.run m).2.Continues (y.run.run m).2)

variable {d : Nat} {x y : Eval α}

theorem Tame.approx (h : Tame x) : DepthApprox d x x :=
  fun m => ⟨h.continues m, .inl ⟨rfl, h.no_depth m⟩⟩

theorem Tame.pure (a : α) : Tame (pure a : Eval α) :=
  ⟨fun m => .refl m, fun _ _ h => by cases h⟩

theorem Tame.throw {e : Error} (he : e.kind ≠ .depth) : Tame (throw e : Eval α) :=
  ⟨fun m => .refl m, fun _ _ h => by cases h; exact he⟩

theorem Tame.bind {f : α → Eval β} (hx : Tame x) (hf : ∀ a, Tame (f a)) : Tame (x >>= f) := by
  refine ⟨fun m => ?_, fun m e h => ?_⟩
  · rw [run_bind]
    have hm := hx.continues m
    rcases hrun : x.run.run m with ⟨r, m'⟩
    rw [hrun] at hm
    cases r with
    | ok a => exact hm.trans ((hf a).continues m')
    | error e => exact hm
  · rw [run_bind] at h
    rcases hrun : x.run.run m with ⟨r, m'⟩
    rw [hrun] at h
    cases r with
    | ok a => exact (hf a).no_depth m' e h
    | error e' =>
      cases h
      exact hx.no_depth m e (by rw [hrun])

theorem DepthApprox.continues (h : DepthApprox d x y) (m : Machine) :
    m.Continues (y.run.run m).2 :=
  (h m).1

theorem DepthApprox.of_depth {e : Error} (he : IsDepthOf d e)
    (hy : ∀ m : Machine, m.Continues (y.run.run m).2) : DepthApprox d (throw e) y :=
  fun m => ⟨hy m, .inr ⟨e, rfl, he, hy m⟩⟩

theorem DepthApprox.bind {f g : α → Eval β} (hxy : DepthApprox d x y)
    (hfg : ∀ a, DepthApprox d (f a) (g a)) : DepthApprox d (x >>= f) (y >>= g) := by
  intro m
  rw [run_bind, run_bind]
  obtain ⟨hgrow, hcase⟩ := hxy m
  rcases hcase with ⟨heq, hnd⟩ | ⟨e, he, hdepth, hpre⟩
  · -- the runs agree on `x`; from there on they are the runs of `f a` and `g a`
    rw [heq] at hnd ⊢
    rcases hy : y.run.run m with ⟨r, m'⟩
    rw [hy] at hgrow hnd
    cases r with
    | ok a =>
      obtain ⟨hgrow', hcase'⟩ := hfg a m'
      exact ⟨hgrow.trans hgrow', hcase'⟩
    | error e' =>
      refine ⟨hgrow, .inl ⟨rfl, fun e'' h => ?_⟩⟩
      cases h
      exact hnd e' rfl
  · -- `x` fails on the depth limit, while `y` goes on and only appends
    rcases hx : x.run.run m with ⟨r, m₁⟩
    rw [hx] at he hpre
    cases he
    rcases hy : y.run.run m with ⟨r', m₂⟩
    rw [hy] at hgrow hpre
    cases r' with
    | ok b =>
      have hg := (hfg b m₂).1
      exact ⟨hgrow.trans hg, .inr ⟨e, rfl, hdepth, hpre.trans hg⟩⟩
    | error e' => exact ⟨hgrow, .inr ⟨e, rfl, hdepth, hpre⟩⟩

theorem DepthApprox.tryCatch {h : Error → Eval α} {g : Error → Error}
    (hxy : DepthApprox d x y)
    (hh : ∀ e m, ((h e).run.run m).1 = .error (g e) ∧ ((h e).run.run m).2.out = m.out)
    (hg : ∀ e, (g e).fault = e.fault) :
    DepthApprox d (tryCatch x h) (tryCatch y h) := by
  intro m
  rw [run_tryCatch, run_tryCatch]
  obtain ⟨hgrow, hcase⟩ := hxy m
  rcases hcase with ⟨heq, hnd⟩ | ⟨e, he, hdepth, hpre⟩
  · rw [heq] at hnd ⊢
    rcases hy : y.run.run m with ⟨r, m'⟩
    rw [hy] at hgrow hnd
    cases r with
    | ok a => exact ⟨hgrow, .inl ⟨rfl, fun _ h => by cases h⟩⟩
    | error e' =>
      obtain ⟨hr, hout⟩ := hh e' m'
      refine ⟨hgrow.trans (.of_out_eq hout), .inl ⟨rfl, fun e'' h => ?_⟩⟩
      rw [hr] at h
      cases h
      simpa [Error.kind, hg] using hnd e' rfl
  · rcases hx : x.run.run m with ⟨r, m₁⟩
    rw [hx] at he hpre
    cases he
    obtain ⟨hr₁, hout₁⟩ := hh e m₁
    obtain ⟨callee, hc⟩ := hdepth
    have hdepth' : IsDepthOf d (g e) := ⟨callee, by rw [hg, hc]⟩
    rcases hy : y.run.run m with ⟨r', m₂⟩
    rw [hy] at hgrow hpre
    cases r' with
    | ok b =>
      exact ⟨hgrow, .inr ⟨g e, hr₁, hdepth', (Machine.Continues.of_out_eq hout₁.symm).trans hpre⟩⟩
    | error e' =>
      obtain ⟨_, hout₂⟩ := hh e' m₂
      refine ⟨hgrow.trans (.of_out_eq hout₂), .inr ⟨g e, hr₁, hdepth', ?_⟩⟩
      exact (Machine.Continues.of_out_eq hout₁.symm).trans (hpre.trans (.of_out_eq hout₂))

theorem DepthApprox.locating (p : Pos) (hxy : DepthApprox d x y) :
    DepthApprox d (locating p x) (locating p y) :=
  hxy.tryCatch (g := (·.locate p)) (fun _ _ => ⟨rfl, rfl⟩) fun e => Error.fault_locate e p

/-! ### Steps that never meet the limit -/

theorem Tame.get : Tame (get : Eval Machine) :=
  ⟨fun m => .refl m, fun _ _ h => by cases h⟩

theorem Tame.modify {f : Machine → Machine} (hf : ∀ m : Machine, m.Continues (f m)) :
    Tame (modify f : Eval Unit) :=
  ⟨hf, fun _ _ h => by cases h⟩

theorem Tame.store : Tame store := Tame.get.bind fun _ => .pure _

theorem Tame.setStore (s : Store) : Tame (setStore s) := Tame.modify fun _ => .of_out_eq rfl

theorem Tame.write (text : String) : Tame (write text) := Tame.modify fun _ => ⟨text, rfl⟩

theorem Tame.readClock : Tame readClock := ⟨fun _ => .of_out_eq rfl, fun _ _ h => by cases h⟩

theorem Tame.update {f : Store → Except Error Store}
    (hf : ∀ s e, f s = .error e → e.kind ≠ .depth) : Tame (update f) := by
  refine Tame.store.bind fun s => ?_
  cases h : f s with
  | ok s' => exact Tame.setStore s'
  | error e => exact Tame.throw (hf s e h)

theorem Tame.alloc (f : Store → Store × α) : Tame (alloc f) := by
  refine Tame.store.bind fun s => ?_
  cases f s with
  | mk s' a => exact (Tame.setStore s').bind fun _ => .pure a

end Eval

namespace Store

theorem declare_error_kind {s : Store} {i : Nat} {name : String} {v : Value} {mutable : Bool}
    {e : Error} (h : s.declare i name v mutable = .error e) : e.kind ≠ .depth := by
  rw [declare_error h]
  simp [Error.kind, Fault.kind]

theorem lookup_error_kind {s : Store} {i : Nat} {name : String} {e : Error}
    (h : s.lookup i name = .error e) : e.kind ≠ .depth := by
  rw [lookup_error h]
  simp [Error.kind, Fault.kind]

theorem assign_error_kind {s : Store} {i : Nat} {name : String} {v : Value} {e : Error}
    (h : s.assign i name v = .error e) : e.kind ≠ .depth := by
  rcases assign_error h with rfl | rfl <;> simp [Error.kind, Fault.kind]

theorem loadMember_error_kind {s : Store} {c key : Value} {p : Pos} {e : Error}
    (h : s.loadMember c key p = .error e) : e.kind ≠ .depth := by
  rw [(loadMember_error h).1]
  decide

theorem storeMember_error_kind {s : Store} {c key v : Value} {p : Pos} {e : Error}
    (h : s.storeMember c key v p = .error e) : e.kind ≠ .depth := by
  rw [(storeMember_error h).1]
  decide

end Store

namespace Eval

theorem Tame.lookupAt (env : Nat) (name : String) (p : Pos) : Tame (lookupAt env name p) := by
  refine Tame.store.bind fun s => ?_
  cases h : s.lookup env name with
  | ok v => exact .pure v
  | error e =>
    exact Tame.throw (by rw [Error.kind_locate]; exact Store.lookup_error_kind h)

theorem Tame.load (c key : Value) (p : Pos) : Tame (load c key p) := by
  refine Tame.store.bind fun s => ?_
  cases h : s.loadMember c key p with
  | ok v => exact .pure v
  | error e => exact Tame.throw (Store.loadMember_error_kind h)

theorem Tame.bindParams (env : Nat) : ∀ ps, Tame (bindParams env ps)
  | [] => .pure ()
  | (_, _) :: ps =>
    (Tame.update fun _ _ h => Store.declare_error_kind h).bind fun _ => Tame.bindParams env ps

theorem Tame.checkArity (n : Native) (args : List Value) (want : Nat) :
    Tame (checkArity n args want) := by
  unfold Eval.checkArity
  split
  · exact .pure ()
  · exact Tame.throw (by simp [Error.kind, Fault.kind])

theorem Tame.runNative (n : Native) (args : List Value) : Tame (runNative n args) := by
  unfold Eval.runNative
  cases n with
  | print => exact Tame.store.bind fun _ => (Tame.write _).bind fun _ => .pure _
  | dateNow => exact (Tame.checkArity ..).bind fun _ => Tame.readClock.bind fun _ => .pure _
  | arrayFrom => exact Tame.alloc _
  | arrayNew =>
    refine (Tame.checkArity ..).bind fun _ => ?_
    repeat' split
    all_goals first
      | exact Tame.alloc _
      | exact .pure _
      | exact Tame.throw (by simp [Error.kind, Fault.kind])
  | arrayHas | arrayConcat =>
    refine (Tame.checkArity ..).bind fun _ => ?_
    split
    · exact Tame.store.bind fun _ => by first | exact .pure _ | exact Tame.alloc _
    · exact Tame.throw (by simp [Error.kind, Fault.kind])
    · exact .pure _

/-! ### Programs keep the relation

Two evaluators whose user calls are related are related on every expression and statement:
the cases follow the evaluator's, and only a call reaches the calls' relation. -/

section Congruence

variable {c₁ c₂ : CallFn}

abbrev CallsApprox (d : Nat) (c₁ c₂ : CallFn) : Prop :=
  ∀ ref args, DepthApprox d (c₁ ref args) (c₂ ref args)

theorem apply_approx (hc : CallsApprox d c₁ c₂) (callee : Value) (args : List Value) : DepthApprox d (apply c₁ callee args) (apply c₂ callee args) := by
  cases callee with
  | native n => exact (Tame.runNative n args).approx
  | function r => exact hc r args
  | _ => exact (Tame.throw (by simp [Error.kind, Fault.kind])).approx

theorem iterate_approx {s₁ s₂ : Nat → Eval Outcome} (hs : ∀ i, DepthApprox d (s₁ i) (s₂ i)) :
    ∀ is last, DepthApprox d (iterate s₁ is last) (iterate s₂ is last)
  | [], last => (Tame.pure last).approx
  | i :: is, _ => by
    rw [iterate, iterate]
    refine (hs i).bind fun o => ?_
    by_cases h : o.returning
    · simp only [h, if_true]
      exact (Tame.pure o).approx
    · simp only [h, Bool.false_eq_true, if_false]
      exact iterate_approx hs is o

theorem declareAt_approx (env : Nat) (name : String) (v : Value) (mutable : Bool) (p : Pos) :
    DepthApprox d (declareAt env name v mutable p) (declareAt env name v mutable p) :=
  (Tame.update fun _ _ h => Store.declare_error_kind h).approx.locating p

theorem assignAt_approx (env : Nat) (name : String) (v : Value) (p : Pos) :
    DepthApprox d (assignAt env name v p) (assignAt env name v p) :=
  (Tame.update fun _ _ h => Store.assign_error_kind h).approx.locating p

mutual

theorem evalExpr_approx (hc : CallsApprox d c₁ c₂) (env : Nat) :
    (e : Expr) → DepthApprox d (evalExpr c₁ env e) (evalExpr c₂ env e)
  | .num _ _ | .str _ _ => (Tame.pure _).approx
  | .ident name p => (Tame.lookupAt env name p).approx
  | .binary _ l r _ =>
    (evalExpr_approx hc env l).bind fun _ => (evalExpr_approx hc env r).bind fun _ =>
      (Tame.pure _).approx
  | .assign (.var name p) v =>
    (evalExpr_approx hc env v).bind fun x => (assignAt_approx env name x p).bind fun _ =>
      (Tame.pure x).approx
  | .assign (.member o _ _ _) v =>
    (evalExpr_approx hc env o).bind fun _ => (evalExpr_approx hc env v).bind fun x =>
      (Tame.update fun _ _ h => Store.storeMember_error_kind h).approx.bind fun _ =>
        (Tame.pure x).approx
  | .assign (.index o k _) v =>
    (evalExpr_approx hc env o).bind fun _ => (evalExpr_approx hc env k).bind fun _ =>
      (evalExpr_approx hc env v).bind fun x =>
        (Tame.update fun _ _ h => Store.storeMember_error_kind h).approx.bind fun _ =>
          (Tame.pure x).approx
  | .array es _ =>
    (evalExprs_approx hc env es).bind fun _ => (Tame.alloc _).approx
  | .object fs _ =>
    (evalFields_approx hc env fs).bind fun _ => (Tame.alloc _).approx
  | .member o _ _ p =>
    (evalExpr_approx hc env o).bind fun c => (Tame.load c _ p).approx
  | .index o k p =>
    (evalExpr_approx hc env o).bind fun c => (evalExpr_approx hc env k).bind fun key =>
      (Tame.load c key p).approx
  | .call f as p =>
    -- the one case that leaves the expression: the callee runs through the related calls
    (evalExprs_approx hc env as).bind fun args => (evalExpr_approx hc env f).bind fun callee =>
      (apply_approx hc callee args).locating p

theorem evalExprs_approx (hc : CallsApprox d c₁ c₂) (env : Nat) :
    (es : List Expr) → DepthApprox d (evalExprs c₁ env es) (evalExprs c₂ env es)
  | [] => (Tame.pure _).approx
  | e :: es =>
    (evalExpr_approx hc env e).bind fun _ => (evalExprs_approx hc env es).bind fun _ =>
      (Tame.pure _).approx

theorem evalFields_approx (hc : CallsApprox d c₁ c₂) (env : Nat) :
    (fs : List Field) → DepthApprox d (evalFields c₁ env fs) (evalFields c₂ env fs)
  | [] => (Tame.pure _).approx
  | .keyed _ _ v :: fs =>
    (evalExpr_approx hc env v).bind fun _ => (evalFields_approx hc env fs).bind fun _ =>
      (Tame.pure _).approx
  | .shorthand k p :: fs =>
    (Tame.lookupAt env k p).approx.bind fun _ => (evalFields_approx hc env fs).bind fun _ =>
      (Tame.pure _).approx

end

mutual

theorem execStmt_approx (hc : CallsApprox d c₁ c₂) (env : Nat) :
    (s : Stmt) → DepthApprox d (execStmt c₁ env s) (execStmt c₂ env s)
  | .expr e => (evalExpr_approx hc env e).bind fun _ => (Tame.pure _).approx
  | .letDecl name (some e) p =>
    (evalExpr_approx hc env e).bind fun v => (declareAt_approx env name v true p).bind fun _ =>
      (Tame.pure _).approx
  | .letDecl name none p =>
    (Tame.pure _).approx.bind fun v => (declareAt_approx env name v true p).bind fun _ =>
      (Tame.pure _).approx
  | .constDecl name init p =>
    (evalExpr_approx hc env init).bind fun v => (declareAt_approx env name v false p).bind fun _ =>
      (Tame.pure _).approx
  | .funcDecl name _ _ p =>
    (Tame.alloc _).approx.bind fun ref => (declareAt_approx env name (.function ref) false p).bind
      fun _ => (Tame.alloc _).approx.bind fun _ => Tame.store.approx.bind fun _ =>
        (Tame.setStore _).approx.bind fun _ => (Tame.pure _).approx
  | .ret (some e) _ => (evalExpr_approx hc env e).bind fun _ => (Tame.pure _).approx
  | .ret none _ => (Tame.pure _).approx.bind fun _ => (Tame.pure _).approx
  | .ifElse c thenBody elseBody _ => by
    -- the bodies are reached through the equations: the recursion is not unfolded by defeq
    rw [execStmt.eq_def, execStmt.eq_def]
    dsimp only
    refine (evalExpr_approx hc env c).bind fun cv => ?_
    by_cases h : cv.truthy
    · simp only [h, if_true]
      exact (Tame.alloc _).approx.bind fun f => execBlock_approx hc f thenBody
    · simp only [h, Bool.false_eq_true, if_false]
      cases elseBody with
      | none => exact (Tame.pure _).approx
      | some b => exact (Tame.alloc _).approx.bind fun f => execBlock_approx hc f b
  | .forIn binding iterable body p => by
    rw [execStmt.eq_def, execStmt.eq_def]
    dsimp only
    refine (evalExpr_approx hc env iterable).bind fun iv => ?_
    cases iv with
    | array r =>
      have hstep : ∀ i, DepthApprox d _ _ := fun i =>
        Tame.store.approx.bind fun s => (assignAt_approx env binding ((s.elems r).getD i .null) p).bind
          fun _ => (Tame.alloc (·.newFrame (some env))).approx.bind fun f =>
            execBlock_approx hc f body
      exact (declareAt_approx env binding .null true p).bind fun _ => Tame.store.approx.bind fun _ =>
        ((iterate_approx hstep _ _).tryCatch (g := id) (fun _ _ => ⟨rfl, rfl⟩) fun _ => rfl).bind
          fun _ => Tame.store.approx.bind fun _ => (Tame.setStore _).approx.bind fun _ =>
            (Tame.pure _).approx
    | _ => exact (Tame.throw (by simp [Error.kind, Fault.kind])).approx
termination_by s => sizeOf s

theorem execBlock_approx (hc : CallsApprox d c₁ c₂) (env : Nat) :
    (ss : List Stmt) → DepthApprox d (execBlock c₁ env ss) (execBlock c₂ env ss)
  | [] => (Tame.pure _).approx
  | s :: rest => by
    rw [execBlock.eq_def, execBlock.eq_def]
    dsimp only
    refine (execStmt_approx hc env s).bind fun o => ?_
    by_cases h : o.returning
    · simp only [h, if_true]
      exact (Tame.pure o).approx
    · simp only [h, Bool.false_eq_true, if_false]
      cases rest with
      | nil => exact (Tame.pure o).approx
      | cons s' rest' => exact execBlock_approx hc env (s' :: rest')
termination_by ss => sizeOf ss

end

theorem callBody_approx (hc : CallsApprox d c₁ c₂) (c : Closure) (args : List Value) :
    DepthApprox d
      (do
        let scope ← alloc (·.newFrame (some c.env))
        bindParams scope (c.params.zip args)
        let o ← execBlock c₁ scope c.body
        return o.value)
      (do
        let scope ← alloc (·.newFrame (some c.env))
        bindParams scope (c.params.zip args)
        let o ← execBlock c₂ scope c.body
        return o.value) :=
  (Tame.alloc _).approx.bind fun scope => (Tame.bindParams scope _).approx.bind fun _ =>
    (execBlock_approx hc scope c.body).bind fun o => (Tame.pure o.value).approx

end Congruence

/-! ### Budgets -/

theorem arity_ne_depth (c : Closure) (args : List Value) :
    ({ fault := .arity c.citedName c.params.length args.length } : Error).kind ≠ .depth := by
  simp [Error.kind, Fault.kind]

theorem callWith_self (l : Option Nat) : ∀ b, CallsApprox (l.getD 0) (callWith l b) (callWith l b)
  | 0 => fun ref args => by
    rw [callWith]
    refine Tame.store.approx.bind fun s => ?_
    dsimp only
    split
    · exact (Tame.throw (arity_ne_depth _ args)).approx
    · exact DepthApprox.of_depth ⟨_, rfl⟩ fun m => .refl m
  | b + 1 => fun ref args => by
    rw [callWith]
    refine Tame.store.approx.bind fun s => ?_
    dsimp only
    split
    · exact (Tame.throw (arity_ne_depth _ args)).approx
    · exact callBody_approx (callWith_self l b) _ args

/-- A smaller budget approximates a larger one, under the smaller one's limit: the calls agree
until the smaller budget runs out, where it fails on its limit. -/
theorem callWith_approx (l₁ l₂ : Option Nat) :
    ∀ b₁ b₂, b₁ ≤ b₂ → CallsApprox (l₁.getD 0) (callWith l₁ b₁) (callWith l₂ b₂)
  | 0, 0, _ => fun ref args => by
    rw [callWith, callWith]
    refine Tame.store.approx.bind fun s => ?_
    dsimp only
    split
    · exact (Tame.throw (arity_ne_depth _ args)).approx
    · exact DepthApprox.of_depth ⟨_, rfl⟩ fun m => .refl m
  | 0, b + 1, _ => fun ref args => by
    rw [callWith, callWith]
    refine Tame.store.approx.bind fun s => ?_
    dsimp only
    split
    · exact (Tame.throw (arity_ne_depth _ args)).approx
    · -- out of budget on the left; on the right the body runs and only appends
      exact DepthApprox.of_depth ⟨_, rfl⟩ (callBody_approx (callWith_self l₂ b) _ args).continues
  | b₁ + 1, b₂ + 1, h => fun ref args => by
    rw [callWith, callWith]
    refine Tame.store.approx.bind fun s => ?_
    dsimp only
    split
    · exact (Tame.throw (arity_ne_depth _ args)).approx
    · exact callBody_approx (callWith_approx l₁ l₂ b₁ b₂ (by omega)) _ args
  | _ + 1, 0, h => absurd h (by omega)

theorem runProgram_approx (d₁ : Nat) (l₂ : Option Nat) (h : d₁ ≤ l₂.getD unlimitedBudget)
    (env : Nat) (prog : Program) :
    DepthApprox d₁ (runProgram (some d₁) env prog) (runProgram l₂ env prog) :=
  (execBlock_approx (callWith_approx (some d₁) l₂ d₁ _ h) env prog).bind fun o =>
    (Tame.pure o.value).approx

end Eval

/-- Running a program under a depth limit `d₁`, and under a limit `d₂` that allows at least as
many nested calls (`none`: no limit), from the same session: either the first run fails with
the depth error of `d₁` having written a prefix of what the second writes, or both give the
same value or the same error, which is no depth error, write the same output and leave the
same machine. Either way the sessions keep their limit and global frame, and carry nothing
else from the run but the machine. -/
theorem exec_depthLimit_monotone (s : Session) (prog : Program) (d₁ : Nat) (d₂ : Option Nat)
    (h : d₁ ≤ d₂.getD Eval.unlimitedBudget) :
    let r₁ := (s.withLimit (some d₁)).exec prog
    let r₂ := (s.withLimit d₂).exec prog
    (((∃ e callee, r₁.1.result = .error e ∧ e.fault = .callDepth d₁ callee) ∧
        ∃ t, r₂.1.output = r₁.1.output ++ t) ∨
      ((∀ e, r₁.1.result = .error e → e.kind ≠ .depth) ∧
        r₁.1.result = r₂.1.result ∧ r₁.1.output = r₂.1.output ∧ r₁.2.machine = r₂.2.machine)) ∧
    r₁.2 = { s with limit := some d₁, machine := r₁.2.machine } ∧
    r₂.2 = { s with limit := d₂, machine := r₂.2.machine } := by
  intro r₁ r₂
  have happrox := Eval.runProgram_approx d₁ d₂ h s.global prog { s.machine with out := "" }
  simp only [r₁, r₂, Session.exec, Session.withLimit] at happrox ⊢
  rcases hrun₁ : (Eval.runProgram (some d₁) s.global prog).run.run { s.machine with out := "" }
    with ⟨res₁, m₁⟩
  rcases hrun₂ : (Eval.runProgram d₂ s.global prog).run.run { s.machine with out := "" }
    with ⟨res₂, m₂⟩
  rw [hrun₁, hrun₂] at happrox
  obtain ⟨_, hcase⟩ := happrox
  refine ⟨?_, rfl, rfl⟩
  rcases hcase with ⟨heq, hnd⟩ | ⟨e, he, ⟨callee, hc⟩, hpre⟩
  · -- the runs agree: same result, output and machine
    cases heq
    exact .inr ⟨hnd, rfl, rfl, rfl⟩
  · exact .inl ⟨⟨e, callee, he, hc⟩, hpre⟩

/-- A function that calls itself without end, under the limits one and two: the first run
fails on its limit, having written a prefix of what the second writes. -/
theorem exec_depthLimit_monotone_selfCall :
    let call : Expr := .call (.ident "f" Pos.start) [] Pos.start
    let prog : Program := [.funcDecl "f" [] [.expr call] Pos.start, .expr call]
    let r₁ := ((Session.new 0).withLimit (some 1)).exec prog
    let r₂ := ((Session.new 0).withLimit (some 2)).exec prog
    1 ≤ (some 2).getD Eval.unlimitedBudget ∧
    ((((∃ e callee, r₁.1.result = .error e ∧ e.fault = .callDepth 1 callee) ∧
        ∃ t, r₂.1.output = r₁.1.output ++ t) ∨
      ((∀ e, r₁.1.result = .error e → e.kind ≠ .depth) ∧
        r₁.1.result = r₂.1.result ∧ r₁.1.output = r₂.1.output ∧ r₁.2.machine = r₂.2.machine)) ∧
    r₁.2 = { Session.new 0 with limit := some 1, machine := r₁.2.machine } ∧
    r₂.2 = { Session.new 0 with limit := some 2, machine := r₂.2.machine }) := by
  intro call prog r₁ r₂
  exact ⟨by decide, exec_depthLimit_monotone (Session.new 0) prog 1 (some 2) (by decide)⟩

end Treewalk
