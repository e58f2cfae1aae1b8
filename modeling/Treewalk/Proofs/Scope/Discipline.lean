import Mathlib
import Treewalk.Proofs.Scope.Forest
import Treewalk.Proofs.Eval.DepthLimit
/-!
# Scope discipline

A statement changes which names a frame binds only in its own frame, and only by a
declaration: `let`, `const` and `func` add their name there when they succeed, and nothing
when they fail. Every other statement leaves each frame that existed before it with the same
names, each as mutable or as constant as before, however it ends: normally, by `ret`, or by
an error. Values may change, through assignments.

The proof follows the evaluator. Expressions keep every frame: a call runs its body in a frame
of its own. A block runs in one frame, which its declarations extend, and keeps every other
frame; the branches of an `if` and the body of a loop run in frames newer than any that existed
before them. A `for` declares its variable in its frame and removes it on every way out, which
gives the frame back its bindings, since the declaration succeeded only where the name was not
yet bound.
-/
namespace Treewalk

def Frame.shape (f : Frame) : List (String × Bool) :=
  f.values.map fun e => (e.1, !f.constants.contains e.1)

def Stmt.binding? : Stmt → Option (String × Bool)
  | .letDecl name _ _ => some (name, true)
  | .constDecl name _ _ | .funcDecl name _ _ _ => some (name, false)
  | _ => none

namespace Frame

@[simp] theorem shape_update (f : Frame) (name : String) (v : Value) :
    (f.update name v).shape = f.shape := by
  simp only [shape, update, List.map_map]
  apply List.map_congr_left
  intro e _
  simp only [Function.comp_apply]
  split <;> rfl

theorem shape_erase (f : Frame) (name : String) :
    (f.erase name).shape = f.shape.filter (·.1 != name) := by
  simp only [shape, erase, List.filter_map, Function.comp_def]
  apply List.map_congr_left
  intro e he
  have hne : e.1 ≠ name := by simpa using (List.mem_filter.mp he).2
  simp [List.mem_filter, hne]

theorem shape_declare {f : Frame} {name : String} (h : f.binds name = false) (v : Value)
    (mutable : Bool) : (f.declare name v mutable).shape = f.shape ++ [(name, mutable)] := by
  have hc := not_constant_of_not_binds h
  simp only [shape, declare, List.map_append, List.map_cons, List.map_nil]
  congr 1
  · apply List.map_congr_left
    intro e he
    cases mutable <;> simp [ne_of_not_binds h e he]
  · cases mutable <;> simp [hc]

end Frame

namespace Store

/-- `s'` has every frame of `s`, and those that `P` selects bind the same names, with the same
mutability, as in `s`. -/
def KeepsOn (P : Nat → Prop) (s s' : Store) : Prop :=
  s.frames.size ≤ s'.frames.size ∧ ∀ i < s.frames.size, P i → (s'.frame i).shape = (s.frame i).shape

variable {P Q : Nat → Prop} {s s₁ s₂ s₃ : Store}

theorem KeepsOn.refl (P : Nat → Prop) (s : Store) : s.KeepsOn P s := ⟨le_rfl, fun _ _ _ => rfl⟩

theorem KeepsOn.trans (h₁ : s₁.KeepsOn P s₂) (h₂ : s₂.KeepsOn P s₃) : s₁.KeepsOn P s₃ :=
  ⟨h₁.1.trans h₂.1, fun i hi hP => (h₂.2 i (lt_of_lt_of_le hi h₁.1) hP).trans (h₁.2 i hi hP)⟩

theorem KeepsOn.mono (hPQ : ∀ i, Q i → P i) (h : s.KeepsOn P s₁) : s.KeepsOn Q s₁ :=
  ⟨h.1, fun i hi hQ => h.2 i hi (hPQ i hQ)⟩

theorem KeepsOn.of_frames (h : s₁.frames = s.frames) : s.KeepsOn P s₁ :=
  ⟨by rw [h], fun i _ _ => by simp [frame, h]⟩

theorem keepsOn_push (P : Nat → Prop) (s : Store) (f : Frame) :
    s.KeepsOn P { s with frames := s.frames.push f } := by
  refine ⟨by simp, fun i hi _ => ?_⟩
  simp [frame, Array.getD_eq_getD_getElem?, Array.getElem?_push, Nat.ne_of_lt hi]

theorem keepsOn_append (P : Nat → Prop) (s : Store) (fs : Array Frame) :
    s.KeepsOn P { s with frames := s.frames ++ fs } := by
  refine ⟨by simp, fun i hi _ => ?_⟩
  simp [frame, Array.getD_eq_getD_getElem?, Array.getElem?_append_left hi]

theorem keepsOn_newFrame (P : Nat → Prop) (s : Store) (parent : Option Nat) :
    s.KeepsOn P (s.newFrame parent).1 :=
  keepsOn_push P s _

theorem keepsOn_snapshot (P : Nat → Prop) (s : Store) (i : Nat) : s.KeepsOn P (s.snapshot i).1 := by
  obtain ⟨fs, h⟩ := snapshot_extends s i
  rw [h]
  exact keepsOn_append P s fs

theorem keepsOn_modify (s : Store) (i : Nat) (g : Frame → Frame) :
    s.KeepsOn (· ≠ i) { s with frames := s.frames.modify i g } := by
  refine ⟨by simp, fun j _ hji => ?_⟩
  rw [frame_modify, if_neg (Ne.symm hji)]

theorem keepsOn_declare {i : Nat} {name : String} {v : Value} {mutable : Bool}
    (h : s.declare i name v mutable = .ok s₁) : s.KeepsOn (· ≠ i) s₁ := by
  obtain ⟨-, rfl⟩ := declare_ok h
  exact keepsOn_modify s i _

theorem shape_declare {i : Nat} {name : String} {v : Value} {mutable : Bool}
    (h : s.declare i name v mutable = .ok s₁) (hi : i < s.frames.size) :
    (s₁.frame i).shape = (s.frame i).shape ++ [(name, mutable)] := by
  obtain ⟨hb, rfl⟩ := declare_ok h
  simp [frame_modify, hi, Frame.shape_declare hb]

theorem keepsOn_assign {i : Nat} {name : String} {v : Value}
    (h : s.assign i name v = .ok s₁) : s.KeepsOn P s₁ := by
  obtain ⟨j, -, -, rfl⟩ := assign_ok h
  -- only the frame that binds the name changes, and only in the value it binds
  refine ⟨by simp, fun k _ _ => ?_⟩
  rw [frame_modify]
  split_ifs <;> simp

theorem keepsOn_remove (s : Store) (i : Nat) (name : String) : s.KeepsOn (· ≠ i) (s.remove i name) :=
  keepsOn_modify s i _

theorem shape_remove (s : Store) {i : Nat} (name : String) (hi : i < s.frames.size) :
    ((s.remove i name).frame i).shape = (s.frame i).shape.filter (·.1 != name) := by
  simp [remove, frame_modify, hi, Frame.shape_erase]

theorem frames_storeMember {c key v : Value} {p : Pos} (h : s.storeMember c key v p = .ok s₁) :
    s₁.frames = s.frames := by
  rcases storeMember_ok h with ⟨r, k, -, -, rfl⟩ | ⟨r, n, -, -, -, -, rfl⟩ <;> rfl

/-- Declaring a name where it was not bound and removing it again gives the frame back its
bindings; frames that only kept their shape in between keep it. -/
theorem keepsOn_declare_remove {i : Nat} {name : String} {v : Value} {mutable : Bool}
    (hd : s.declare i name v mutable = .ok s₁) (hk : s₁.KeepsOn P s₂) (hP : ∀ j, P j) :
    s.KeepsOn P (s₂.remove i name) := by
  have h₁ := keepsOn_declare hd
  have hr := keepsOn_remove s₂ i name
  refine ⟨h₁.1.trans (hk.1.trans hr.1), fun j hj _ => ?_⟩
  have hj₁ : j < s₁.frames.size := lt_of_lt_of_le hj h₁.1
  by_cases hji : j = i
  · subst hji
    have hfree : ∀ e ∈ (s.frame j).shape, (e.1 != name) = true := by
      intro e he
      obtain ⟨b, hb, rfl⟩ := List.mem_map.mp he
      simpa using Frame.ne_of_not_binds (declare_ok hd).1 b hb
    rw [shape_remove s₂ name (lt_of_lt_of_le hj₁ hk.1), hk.2 j hj₁ (hP j),
      shape_declare hd hj, List.filter_append, List.filter_eq_self.mpr hfree]
    simp
  · rw [hr.2 j (lt_of_lt_of_le hj₁ hk.1) hji, hk.2 j hj₁ (hP j), h₁.2 j hj hji]

end Store

namespace Eval

variable {α β : Type} {P Q : Nat → Prop} {x : Eval α}

/-- `x` keeps, from every machine, the frames that `P` selects. -/
def KeepsFrames (P : Nat → Prop) (x : Eval α) : Prop :=
  ∀ m : Machine, m.store.KeepsOn P (x.run.run m).2.store

abbrev KeepsAll (x : Eval α) : Prop := KeepsFrames (fun _ => True) x

theorem run_store (m : Machine) : store.run.run m = (.ok m.store, m) := rfl

theorem run_alloc (f : Store → Store × α) (m : Machine) :
    (alloc f).run.run m = (.ok (f m.store).2, { m with store := (f m.store).1 }) := rfl

theorem run_update (f : Store → Except Error Store) (m : Machine) :
    (update f).run.run m = match f m.store with
      | .ok s => (.ok (), { m with store := s })
      | .error e => (.error e, m) := by
  simp only [update, run_bind, run_store]
  cases f m.store <;> rfl

theorem run_declareAt (env : Nat) (name : String) (v : Value) (mutable : Bool) (p : Pos)
    (m : Machine) :
    (declareAt env name v mutable p).run.run m = match m.store.declare env name v mutable with
      | .ok s => (.ok (), { m with store := s })
      | .error e => (.error (e.locate p), m) := by
  rw [declareAt, locating, run_tryCatch, run_update]
  cases m.store.declare env name v mutable <;> rfl

theorem KeepsFrames.mono (hPQ : ∀ i, Q i → P i) (h : KeepsFrames P x) : KeepsFrames Q x :=
  fun m => (h m).mono hPQ

theorem KeepsFrames.pure (a : α) : KeepsFrames P (pure a : Eval α) := fun m => .refl P m.store

theorem KeepsFrames.throw (e : Error) : KeepsFrames P (throw e : Eval α) := fun m => .refl P m.store

theorem KeepsFrames.bind {f : α → Eval β} (hx : KeepsFrames P x) (hf : ∀ a, KeepsFrames P (f a)) :
    KeepsFrames P (x >>= f) := by
  intro m
  rw [run_bind]
  have h := hx m
  rcases hrun : x.run.run m with ⟨r, m₁⟩
  rw [hrun] at h
  cases r with
  | ok a => exact h.trans (hf a m₁)
  | error e => exact h

theorem KeepsFrames.tryCatch {h : Error → Eval α} (hx : KeepsFrames P x)
    (hh : ∀ e, KeepsFrames P (h e)) : KeepsFrames P (tryCatch x h) := by
  intro m
  rw [run_tryCatch]
  have hk := hx m
  rcases hrun : x.run.run m with ⟨r, m₁⟩
  rw [hrun] at hk
  cases r with
  | ok a => exact hk
  | error e => exact hk.trans (hh e m₁)

theorem KeepsFrames.locating (p : Pos) (hx : KeepsFrames P x) : KeepsFrames P (locating p x) :=
  hx.tryCatch fun _ => .throw _

theorem KeepsFrames.get : KeepsFrames P (get : Eval Machine) := fun m => .refl P m.store

theorem KeepsFrames.store : KeepsFrames P store := fun m => .refl P m.store

theorem KeepsFrames.write (text : String) : KeepsFrames P (write text) :=
  fun m => .refl P m.store

theorem KeepsFrames.readClock : KeepsFrames P readClock := fun m => .refl P m.store

theorem KeepsFrames.update {f : Store → Except Error Store}
    (hf : ∀ s s', f s = .ok s' → s.KeepsOn P s') : KeepsFrames P (update f) := by
  intro m
  rw [run_update]
  cases h : f m.store with
  | ok s => exact hf m.store s h
  | error e => exact .refl P m.store

theorem KeepsFrames.alloc {f : Store → Store × α} (hf : ∀ s : Store, s.KeepsOn P (f s).1) :
    KeepsFrames P (alloc f) :=
  fun m => hf m.store

theorem KeepsFrames.restore {g : Store → Store} (hg : ∀ s : Store, s.KeepsOn P (g s)) :
    KeepsFrames P (do setStore (g (← Eval.store))) :=
  fun m => hg m.store

theorem KeepsFrames.lookupAt (env : Nat) (name : String) (p : Pos) :
    KeepsFrames P (lookupAt env name p) := by
  refine KeepsFrames.store.bind fun s => ?_
  cases s.lookup env name with
  | ok v => exact .pure v
  | error e => exact .throw _

theorem KeepsFrames.load (c key : Value) (p : Pos) : KeepsFrames P (load c key p) := by
  refine KeepsFrames.store.bind fun s => ?_
  cases s.loadMember c key p with
  | ok v => exact .pure v
  | error e => exact .throw e

theorem KeepsFrames.assignAt (env : Nat) (name : String) (v : Value) (p : Pos) :
    KeepsFrames P (assignAt env name v p) :=
  (KeepsFrames.update fun _ _ h => Store.keepsOn_assign h).locating p

theorem KeepsFrames.storeMember (c key v : Value) (p : Pos) :
    KeepsFrames P (Eval.update (·.storeMember c key v p)) :=
  KeepsFrames.update fun _ _ h => .of_frames (Store.frames_storeMember h)

theorem KeepsFrames.bindParams (env : Nat) :
    ∀ ps, KeepsFrames (· ≠ env) (bindParams env ps)
  | [] => .pure ()
  | (_, _) :: ps =>
    (KeepsFrames.update fun _ _ h => Store.keepsOn_declare h).bind fun _ =>
      KeepsFrames.bindParams env ps

theorem KeepsFrames.runNative (n : Native) (args : List Value) :
    KeepsFrames P (runNative n args) := by
  have halloc : ∀ xs : Array Value, KeepsFrames P (Eval.alloc (·.allocArray xs)) :=
    fun _ => KeepsFrames.alloc fun _ => .of_frames rfl
  have harity : ∀ want, KeepsFrames P (checkArity n args want) := by
    intro want
    unfold Eval.checkArity
    split
    · exact .pure ()
    · exact .throw _
  unfold Eval.runNative
  cases n with
  | print => exact KeepsFrames.store.bind fun _ => (KeepsFrames.write _).bind fun _ => .pure _
  | dateNow => exact (harity 0).bind fun _ => KeepsFrames.readClock.bind fun _ => .pure _
  | arrayFrom => exact halloc _
  | arrayNew =>
    refine (harity 1).bind fun _ => ?_
    repeat' split
    all_goals first
      | exact halloc _
      | exact .pure _
      | exact .throw _
  | arrayHas | arrayConcat =>
    refine (harity 2).bind fun _ => ?_
    split
    · exact KeepsFrames.store.bind fun _ => by first | exact .pure _ | exact halloc _
    · exact .throw _
    · exact .pure _

theorem KeepsFrames.inNewFrame {parent : Option Nat} {x : Nat → Eval α}
    (hx : ∀ f, KeepsFrames (· ≠ f) (x f)) : KeepsAll (Eval.alloc (·.newFrame parent) >>= x) := by
  intro m
  rw [run_bind, run_alloc]
  have h₁ := Store.keepsOn_newFrame (fun _ => True) m.store parent
  have h₂ := hx m.store.frames.size { m with store := (m.store.newFrame parent).1 }
  refine ⟨h₁.1.trans h₂.1, fun i hi _ => ?_⟩
  exact (h₂.2 i (lt_of_lt_of_le hi h₁.1) (Nat.ne_of_lt hi)).trans (h₁.2 i hi trivial)

theorem run_removing (y : Eval α) (env : Nat) (name : String) (m : Machine) :
    ((do
      let o ← tryCatch y (fun e => do setStore ((← Eval.store).remove env name); throw e)
      setStore ((← Eval.store).remove env name)
      return o).run.run m).2.store = ((y.run.run m).2.store).remove env name := by
  rw [run_bind, run_tryCatch]
  rcases y.run.run m with ⟨r, m'⟩
  cases r <;> rfl

theorem keepsAll_scoped {env : Nat} {name : String} {v : Value} {p : Pos}
    {x : Store → Eval α} (hx : ∀ s, KeepsAll (x s)) :
    KeepsAll (do
      declareAt env name v true p
      let s ← Eval.store
      let o ← tryCatch (x s) (fun e => do setStore ((← Eval.store).remove env name); throw e)
      setStore ((← Eval.store).remove env name)
      return o) := by
  intro m
  rw [run_bind, run_declareAt]
  cases hd : m.store.declare env name v true with
  | error e => exact .refl _ _
  | ok s₁ =>
    dsimp only
    rw [run_bind, run_store]
    dsimp only
    rw [run_removing]
    exact Store.keepsOn_declare_remove hd (hx s₁ { m with store := s₁ }) fun _ => trivial

/-! ### Declarations -/

/-- `x` keeps every frame but `env`, and adds `d` to the bindings of `env` when it succeeds. -/
def AddsTo (env : Nat) (d : String × Bool) (x : Eval α) : Prop :=
  ∀ m : Machine, m.store.KeepsOn (· ≠ env) (x.run.run m).2.store ∧
    (env < m.store.frames.size → ((x.run.run m).2.store.frame env).shape =
      (m.store.frame env).shape ++ if (x.run.run m).1.isOk then [d] else [])

variable {env : Nat} {d : String × Bool}

theorem AddsTo.declareAt (name : String) (v : Value) (mutable : Bool) (p : Pos) :
    AddsTo env (name, mutable) (declareAt env name v mutable p) := by
  intro m
  rw [run_declareAt]
  cases h : m.store.declare env name v mutable with
  | ok s =>
    exact ⟨Store.keepsOn_declare h, fun henv => by
      simp [Store.shape_declare h henv, Except.isOk, Except.toBool]⟩
  | error e => exact ⟨.refl _ _, fun _ => by simp [Except.isOk, Except.toBool]⟩

theorem AddsTo.of_keepsAll_bind {f : α → Eval β} (hx : KeepsAll x) (hf : ∀ a, AddsTo env d (f a)) :
    AddsTo env d (x >>= f) := by
  intro m
  rw [run_bind]
  have hk := hx m
  rcases hrun : x.run.run m with ⟨r, m₁⟩
  rw [hrun] at hk
  cases r with
  | ok a =>
    obtain ⟨hf₁, hf₂⟩ := hf a m₁
    refine ⟨(hk.mono fun _ _ => trivial).trans hf₁, fun henv => ?_⟩
    rw [hf₂ (lt_of_lt_of_le henv hk.1), hk.2 env henv trivial]
  | error e =>
    exact ⟨hk.mono fun _ _ => trivial, fun henv => by
      simp [hk.2 env henv trivial, Except.isOk, Except.toBool]⟩

theorem AddsTo.bind_keepsAll {f : α → Eval β} (hx : AddsTo env d x) (hf : ∀ a, KeepsAll (f a))
    (htotal : ∀ a m, ((f a).run.run m).1.isOk) : AddsTo env d (x >>= f) := by
  intro m
  rw [run_bind]
  have hd := hx m
  rcases hrun : x.run.run m with ⟨r, m₁⟩
  rw [hrun] at hd
  cases r with
  | ok a =>
    have hk := hf a m₁
    refine ⟨hd.1.trans (hk.mono fun _ _ => trivial), fun henv => ?_⟩
    rw [hk.2 env (lt_of_lt_of_le henv hd.1.1) trivial, hd.2 henv, if_pos (htotal a m₁)]
    rfl
  | error e => exact hd

/-! ### Programs keep their frames -/

theorem iterate_keeps {step : Nat → Eval Outcome} (hs : ∀ i, KeepsFrames P (step i)) :
    ∀ is last, KeepsFrames P (iterate step is last)
  | [], last => .pure last
  | i :: is, _ => by
    rw [iterate]
    refine (hs i).bind fun o => ?_
    by_cases h : o.returning
    · simp only [h, if_true]
      exact .pure o
    · simp only [h, Bool.false_eq_true, if_false]
      exact iterate_keeps hs is o

section Syntax

variable {call : CallFn}

abbrev CallsKeep (call : CallFn) : Prop := ∀ ref args, KeepsAll (call ref args)

theorem KeepsFrames.apply (hc : CallsKeep call) (callee : Value) (args : List Value) :
    KeepsAll (apply call callee args) := by
  cases callee with
  | native n => exact KeepsFrames.runNative n args
  | function r => exact hc r args
  | _ => exact .throw _

mutual

theorem evalExpr_keeps (hc : CallsKeep call) (env : Nat) :
    (e : Expr) → KeepsAll (evalExpr call env e)
  | .num _ _ | .str _ _ => .pure _
  | .ident name p => .lookupAt env name p
  | .binary _ l r _ =>
    (evalExpr_keeps hc env l).bind fun _ => (evalExpr_keeps hc env r).bind fun _ => .pure _
  | .assign (.var name p) v =>
    (evalExpr_keeps hc env v).bind fun x => (KeepsFrames.assignAt env name x p).bind fun _ =>
      .pure x
  | .assign (.member o name _ p) v =>
    (evalExpr_keeps hc env o).bind fun c => (evalExpr_keeps hc env v).bind fun x =>
      (KeepsFrames.storeMember c (.str name) x p).bind fun _ => .pure x
  | .assign (.index o k p) v =>
    (evalExpr_keeps hc env o).bind fun c => (evalExpr_keeps hc env k).bind fun key =>
      (evalExpr_keeps hc env v).bind fun x =>
        (KeepsFrames.storeMember c key x p).bind fun _ => .pure x
  | .array es _ =>
    (evalExprs_keeps hc env es).bind fun _ => KeepsFrames.alloc fun _ => .of_frames rfl
  | .object fs _ =>
    (evalFields_keeps hc env fs).bind fun _ => KeepsFrames.alloc fun _ => .of_frames rfl
  | .member o _ _ p => (evalExpr_keeps hc env o).bind fun c => .load c _ p
  | .index o k p =>
    (evalExpr_keeps hc env o).bind fun c => (evalExpr_keeps hc env k).bind fun key =>
      .load c key p
  | .call f as p =>
    (evalExprs_keeps hc env as).bind fun args => (evalExpr_keeps hc env f).bind fun callee =>
      (KeepsFrames.apply hc callee args).locating p

theorem evalExprs_keeps (hc : CallsKeep call) (env : Nat) :
    (es : List Expr) → KeepsAll (evalExprs call env es)
  | [] => .pure _
  | e :: es =>
    (evalExpr_keeps hc env e).bind fun _ => (evalExprs_keeps hc env es).bind fun _ => .pure _

theorem evalFields_keeps (hc : CallsKeep call) (env : Nat) :
    (fs : List Field) → KeepsAll (evalFields call env fs)
  | [] => .pure _
  | .keyed _ _ v :: fs =>
    (evalExpr_keeps hc env v).bind fun _ => (evalFields_keeps hc env fs).bind fun _ => .pure _
  | .shorthand k p :: fs =>
    (KeepsFrames.lookupAt env k p).bind fun _ => (evalFields_keeps hc env fs).bind fun _ =>
      .pure _

end

/-- A declaration adds its binding to its frame when it succeeds, and keeps every other frame. -/
theorem execStmt_adds (hc : CallsKeep call) (env : Nat) :
    (s : Stmt) → (d : String × Bool) → s.binding? = some d → AddsTo env d (execStmt call env s)
  | .letDecl name (some e) p, _, rfl =>
    AddsTo.of_keepsAll_bind (evalExpr_keeps hc env e) fun v =>
      (AddsTo.declareAt name v true p).bind_keepsAll (fun _ => .pure _) fun _ _ => rfl
  | .letDecl name none p, _, rfl =>
    AddsTo.of_keepsAll_bind (.pure _) fun v =>
      (AddsTo.declareAt name v true p).bind_keepsAll (fun _ => .pure _) fun _ _ => rfl
  | .constDecl name init p, _, rfl =>
    AddsTo.of_keepsAll_bind (evalExpr_keeps hc env init) fun v =>
      (AddsTo.declareAt name v false p).bind_keepsAll (fun _ => .pure _) fun _ _ => rfl
  | .funcDecl name _ _ p, _, rfl =>
    AddsTo.of_keepsAll_bind (KeepsFrames.alloc fun _ => .of_frames rfl) fun ref =>
      (AddsTo.declareAt name (.function ref) false p).bind_keepsAll
        (fun _ => (KeepsFrames.alloc fun s => Store.keepsOn_snapshot _ s env).bind fun _ =>
          KeepsFrames.restore fun _ => .of_frames rfl) fun _ _ => rfl
  | .expr _, _, h | .ret _ _, _, h | .ifElse _ _ _ _, _, h | .forIn _ _ _ _, _, h => nomatch h

mutual

/-- A statement that declares nothing keeps every frame. -/
theorem execStmt_keeps (hc : CallsKeep call) (env : Nat) :
    (s : Stmt) → s.binding? = none → KeepsAll (execStmt call env s)
  | .expr e, _ => (evalExpr_keeps hc env e).bind fun _ => .pure _
  | .ret (some e) _, _ => (evalExpr_keeps hc env e).bind fun _ => .pure _
  | .ret none _, _ => (KeepsFrames.pure _).bind fun _ => .pure _
  | .ifElse c thenBody elseBody _, _ => by
    rw [execStmt.eq_def]
    dsimp only
    refine (evalExpr_keeps hc env c).bind fun cv => ?_
    by_cases h : cv.truthy
    · simp only [h, if_true]
      exact KeepsFrames.inNewFrame fun f => execBlock_keeps hc f thenBody
    · simp only [h, Bool.false_eq_true, if_false]
      cases elseBody with
      | none => exact .pure _
      | some b => exact KeepsFrames.inNewFrame fun f => execBlock_keeps hc f b
  | .forIn binding iterable body p, _ => by
    rw [execStmt.eq_def]
    dsimp only
    refine (evalExpr_keeps hc env iterable).bind fun iv => ?_
    cases iv with
    | array r =>
      -- the variable lives in the frame for the span of the loop; each pass runs in a new frame
      have hstep : ∀ i, KeepsAll (do
          let x := ((← Eval.store).elems r).getD i .null
          assignAt env binding x p
          let f ← alloc (·.newFrame (some env))
          execBlock call f body) := fun _ =>
        KeepsFrames.store.bind fun _ => (KeepsFrames.assignAt _ _ _ _).bind fun _ =>
          KeepsFrames.inNewFrame fun f => execBlock_keeps hc f body
      exact keepsAll_scoped fun _ => iterate_keeps hstep _ _
    | _ => exact .throw _
  | .letDecl _ _ _, h | .constDecl _ _ _, h | .funcDecl _ _ _ _, h => nomatch h
termination_by s => sizeOf s

theorem execBlock_keeps (hc : CallsKeep call) (env : Nat) :
    (ss : List Stmt) → KeepsFrames (· ≠ env) (execBlock call env ss)
  | [] => .pure _
  | s :: rest => by
    rw [execBlock.eq_def]
    dsimp only
    have hs : KeepsFrames (· ≠ env) (execStmt call env s) := by
      cases h : s.binding? with
      | none => exact (execStmt_keeps hc env s h).mono fun _ _ => trivial
      | some d => exact fun m => (execStmt_adds hc env s d h m).1
    refine hs.bind fun o => ?_
    by_cases h : o.returning
    · simp only [h, if_true]
      exact .pure o
    · simp only [h, Bool.false_eq_true, if_false]
      cases rest with
      | nil => exact .pure o
      | cons s' rest' => exact execBlock_keeps hc env (s' :: rest')
termination_by ss => sizeOf ss

end

end Syntax

/-- User calls keep every frame: the body runs in a frame of its own, under a budget one call
smaller. -/
theorem callWith_keeps (limit : Option Nat) : ∀ budget, CallsKeep (callWith limit budget)
  | 0 => fun ref args => by
    rw [callWith]
    refine KeepsFrames.store.bind fun s => ?_
    dsimp only
    split <;> exact .throw _
  | budget + 1 => fun ref args => by
    rw [callWith]
    refine KeepsFrames.store.bind fun s => ?_
    dsimp only
    split
    · exact .throw _
    · exact KeepsFrames.inNewFrame fun scope => (KeepsFrames.bindParams scope _).bind fun _ =>
        (execBlock_keeps (callWith_keeps limit budget) scope _).bind fun _ => .pure _

end Eval

/-- A statement changes which names a frame binds only in its own frame, and only by a
declaration that succeeds, which adds its one binding there. Every frame that existed before
the statement binds, whatever way the statement ends, the same names as before, each as
mutable as before; the statement's frame adds the declared name when a `let`, `const` or
`func` succeeds. -/
theorem execStmt_frame_shape (limit : Option Nat) (budget env : Nat) (s : Stmt) (m : Machine) :
    let r := (Eval.execStmt (Eval.callWith limit budget) env s).run.run m
    m.store.frames.size ≤ r.2.store.frames.size ∧
    ∀ i < m.store.frames.size, (r.2.store.frame i).shape =
      (m.store.frame i).shape ++ if i = env ∧ r.1.isOk then s.binding?.toList else [] := by
  dsimp only
  have hc := Eval.callWith_keeps limit budget
  cases h : s.binding? with
  | none =>
    have hk := Eval.execStmt_keeps hc env s h m
    exact ⟨hk.1, fun i hi => by simp [hk.2 i hi trivial]⟩
  | some d =>
    obtain ⟨hk, hadd⟩ := Eval.execStmt_adds hc env s d h m
    refine ⟨hk.1, fun i hi => ?_⟩
    by_cases hi' : i = env
    · subst hi'
      rw [hadd hi]
      simp
    · rw [hk.2 i hi hi']
      simp [hi']

end Treewalk
