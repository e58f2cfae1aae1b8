import Mathlib
import Treewalk.Proofs.Eval.StoreSteps
/-!
# Loops over arrays

A `for` over an array runs its body once per element the array has when the loop starts, in
order, each time in a new frame under the loop's, and stops early only at a `ret` or an error.
Before each pass the loop variable holds the pass's element as the array stores it at that
moment, so what earlier passes wrote to later elements is seen, while the loop keeps walking
the array it started with. The loop gives the last pass's outcome, or null when no pass ran.
`LoopPasses` states this pass by pass, and `forIn_passes` proves that every loop runs so.

The reading rests on one fact about the whole evaluator: no run changes the length of an array
that exists (`Store.lengthsKept`). Member writes go only to indexes in range, and every array
that literals and built-ins make is new. So the array keeps its starting length through the
loop, and each pass finds its element there. The loop variable, declared in the loop's frame,
also stays bound there and mutable through every pass, since a pass runs the body in a frame of
its own; so assigning it never fails.
-/
namespace Treewalk

namespace Store

/-- Every array of `s` is still in `s'`, with as many elements. -/
def LengthsKept (s s' : Store) : Prop :=
  ∀ r < s.arrays.size, r < s'.arrays.size ∧ (s'.elems r).size = (s.elems r).size

variable {s s' : Store}

theorem size_elems_setElem (s : Store) (ref i : Nat) (v : Value) (r : Nat) :
    ((s.setElem ref i v).elems r).size = (s.elems r).size := by
  simp only [elems, setElem, Array.getD_eq_getD_getElem?, Array.getElem?_modify]
  by_cases h : ref = r
  · subst h
    cases s.arrays[ref]? <;> simp
  · simp [h]

theorem lengthsKept_storeMember {c key v : Value} {p : Pos}
    (h : s.storeMember c key v p = .ok s') : LengthsKept s s' := by
  rcases storeMember_ok h with ⟨r, k, -, -, rfl⟩ | ⟨r, n, -, -, -, -, rfl⟩
  · exact fun r hr => ⟨hr, rfl⟩
  · exact fun r hr => ⟨by simpa [setElem] using hr, size_elems_setElem _ _ _ _ r⟩

theorem lengthsKept_allocArray (s : Store) (xs : Array Value) :
    LengthsKept s (s.allocArray xs).1 := by
  intro r hr
  refine ⟨by simp only [allocArray, Array.size_push]; omega, ?_⟩
  simp [allocArray, elems, Array.getD_eq_getD_getElem?, Array.getElem?_push, Nat.ne_of_lt hr]

/-- No store operation of the evaluator changes the length of an array that exists. -/
theorem lengthsKept : Kept LengthsKept :=
  Kept.of_heap (fun _ _ h r hr => ⟨h.1 ▸ hr, by simp only [elems, h.1]⟩)
    (fun h₁ h₂ r hr => ⟨(h₂ r (h₁ r hr).1).1, (h₂ r (h₁ r hr).1).2.trans (h₁ r hr).2⟩)
    lengthsKept_storeMember lengthsKept_allocArray (fun _ _ _ hr => ⟨hr, rfl⟩)

end Store

namespace Frame

theorem mutable_find?_eq (f : Frame) (name : String) :
    (f.find? name).map Binding.mutable = (f.shape.find? (·.1 == name)).map Prod.snd := by
  simp only [find?, value?, shape, List.find?_map, Option.map_map, Function.comp_def]
  cases he : f.values.find? (fun e => e.1 == name) with
  | none => rfl
  | some e =>
    have hk : e.1 = name := by simpa using List.find?_some he
    simp [hk]

theorem mutable_find?_of_shape {f g : Frame} (h : g.shape = f.shape) (name : String) :
    (g.find? name).map Binding.mutable = (f.find? name).map Binding.mutable := by
  rw [mutable_find?_eq, mutable_find?_eq, h]

end Frame

namespace Store

theorem assign_of_mutable {s : Store} {i : Nat} {name : String}
    (h : ((s.frame i).find? name).map Binding.mutable = some true) (v : Value) :
    s.assign i name v = .ok { s with frames := s.frames.modify i (·.update name v) } := by
  obtain ⟨b, hb, hm⟩ := Option.map_eq_some_iff.mp h
  have hbinds : (s.frame i).binds name = true := by
    rw [Frame.binds_eq_isSome_find?, hb]
    rfl
  have hc : name ∉ (s.frame i).constants := by
    have hmut := Frame.mutable_of_find? hb
    rw [hm] at hmut
    simpa using hmut
  rw [assign, resolve_self hbinds]
  simp [hc]

theorem lookup_assign_self {s : Store} {i : Nat} {name : String} (hi : i < s.frames.size)
    (h : ((s.frame i).find? name).map Binding.mutable = some true) (v : Value) :
    ({ s with frames := s.frames.modify i (·.update name v) } : Store).lookup i name = .ok v := by
  obtain ⟨b, hb, -⟩ := Option.map_eq_some_iff.mp h
  have hframe : ({ s with frames := s.frames.modify i (·.update name v) } : Store).frame i =
      (s.frame i).update name v := by
    rw [frame_modify, if_pos rfl, if_pos hi]
  have hfind : ((s.frame i).update name v).find? name = some { b with value := v } := by
    rw [Frame.find?_update hb v, Function.update_self]
  have hbinds : ((s.frame i).update name v).binds name = true := by
    rw [Frame.binds_eq_isSome_find?, hfind]
    rfl
  rw [lookup, resolve_self (hframe ▸ hbinds)]
  dsimp only
  rw [hframe, Frame.value?_of_find? hfind]

end Store

namespace Eval

variable {call : CallFn} {env : Nat} {binding : String} {r n : Nat} {body : List Stmt} {p : Pos}

def passBody (call : CallFn) (env : Nat) (body : List Stmt) : Eval Outcome := do
  let f ← alloc (·.newFrame (some env))
  execBlock call f body

/-- Pass `i` of a loop of the variable `binding` over the array `r`, as the evaluator runs it:
the variable takes the element at `i` (null past the end), then the body runs. -/
def forPass (call : CallFn) (env : Nat) (binding : String) (r : Nat) (body : List Stmt) (p : Pos)
    (i : Nat) : Eval Outcome := do
  let x := ((← store).elems r).getD i .null
  assignAt env binding x p
  passBody call env body

/-- Pass `i` starts from `m` and runs the body from the store `s`: the array has an element `x`
at `i`, and the variable, bound in frame `env`, is assigned `x` and holds it. -/
def PassStarts (env : Nat) (binding : String) (r i : Nat) (m : Machine) (s : Store) : Prop :=
  ∃ x, (m.store.elems r)[i]? = some x ∧ m.store.assign env binding x = .ok s ∧
    s.lookup env binding = .ok x

/-- The passes of a loop of the variable `binding`, bound in frame `env`, over the array `r` of
`n` elements: from pass `i` on, after a pass that gave `last`, from the machine `m`, they end
in the given result and machine. Each pass takes the array's element as stored when the pass
starts, and runs the body in a new frame under `env`. The passes stop after pass `n - 1`, at
the first outcome that returns, or at the first error; the loop gives the last outcome. -/
inductive LoopPasses (call : CallFn) (env : Nat) (binding : String) (r : Nat) (body : List Stmt)
    (n : Nat) : Nat → Outcome → Machine → Except Error Outcome × Machine → Prop
  /-- After the last pass the loop gives the outcome of that pass. -/
  | done {last : Outcome} {m : Machine} : LoopPasses call env binding r body n n last m (.ok last, m)
  /-- A pass whose body fails ends the loop with that failure. -/
  | fails {i : Nat} {last : Outcome} {m m' : Machine} {s : Store} {e : Error} (hi : i < n)
      (start : PassStarts env binding r i m s)
      (hbody : (passBody call env body).run.run { m with store := s } = (.error e, m')) :
      LoopPasses call env binding r body n i last m (.error e, m')
  /-- A pass whose body returns ends the loop with that outcome. -/
  | returns {i : Nat} {last o : Outcome} {m m' : Machine} {s : Store} (hi : i < n)
      (start : PassStarts env binding r i m s)
      (hbody : (passBody call env body).run.run { m with store := s } = (.ok o, m'))
      (hret : o.returning = true) : LoopPasses call env binding r body n i last m (.ok o, m')
  /-- Otherwise the next pass follows. -/
  | next {i : Nat} {last o : Outcome} {m m' : Machine} {s : Store}
      {res : Except Error Outcome × Machine} (hi : i < n) (start : PassStarts env binding r i m s)
      (hbody : (passBody call env body).run.run { m with store := s } = (.ok o, m'))
      (hret : o.returning = false) (rest : LoopPasses call env binding r body n (i + 1) o m' res) :
      LoopPasses call env binding r body n i last m res

/-- What a loop needs before each pass: the array keeps its length `n`, and the frame `env`
exists and binds the variable as mutable. -/
structure PassReady (env : Nat) (binding : String) (r n : Nat) (m : Machine) : Prop where
  length : (m.store.elems r).size = n
  frame : env < m.store.frames.size
  mutable : ((m.store.frame env).find? binding).map Binding.mutable = some true

theorem run_assignAt_ok {m : Machine} {x : Value} {s : Store}
    (h : m.store.assign env binding x = .ok s) :
    (assignAt env binding x p).run.run m = (.ok (), { m with store := s }) := by
  rw [assignAt, locating, run_tryCatch, run_update, h]

theorem forPass_run (call : CallFn) (body : List Stmt) (p : Pos) {m : Machine} {i : Nat}
    (ready : PassReady env binding r n m) (hi : i < n) :
    ∃ s, PassStarts env binding r i m s ∧ (forPass call env binding r body p i).run.run m =
      (passBody call env body).run.run { m with store := s } := by
  have hlt : i < (m.store.elems r).size := ready.length ▸ hi
  let x := (m.store.elems r)[i]
  have hassign := Store.assign_of_mutable ready.mutable x
  refine ⟨_, ⟨x, Array.getElem?_eq_getElem hlt, hassign,
    Store.lookup_assign_self ready.frame ready.mutable x⟩, ?_⟩
  have hx : (m.store.elems r).getD i .null = x := by
    simp [Array.getD_eq_getD_getElem?, Array.getElem?_eq_getElem hlt, x]
  rw [forPass, run_bind, run_store]
  dsimp only
  rw [hx, run_bind, run_assignAt_ok hassign]

section Ready

variable (hcF : CallsKeep call) (hcL : ∀ ref args, Keeps Store.LengthsKept (call ref args))
include hcF hcL

theorem ready_after_pass {m m' : Machine} {i : Nat} {s : Store}
    {res : Except Error Outcome} (ready : PassReady env binding r n m)
    (start : PassStarts env binding r i m s)
    (hbody : (passBody call env body).run.run { m with store := s } = (res, m')) :
    PassReady env binding r n m' := by
  obtain ⟨x, hx, hassign, -⟩ := start
  have hr : r < m.store.arrays.size := by
    by_contra hge
    have hempty : m.store.elems r = #[] := by
      simp [Store.elems, Array.getD_eq_getD_getElem?, Nat.le_of_not_lt hge]
    rw [hempty] at hx
    simp at hx
  have hkA : m.store.KeepsOn (fun _ => True) s := Store.keepsOn_assign hassign
  have hlA := Store.lengthsKept.assign hassign
  have hkB : KeepsAll (passBody call env body) :=
    KeepsFrames.inNewFrame fun f => execBlock_keeps hcF f body
  have hlB : Keeps Store.LengthsKept (passBody call env body) :=
    Keeps.inNewFrame Store.lengthsKept fun f => execBlock_keeps_rel Store.lengthsKept hcL f body
  have hkB' := hkB { m with store := s }
  have hlB' := hlB { m with store := s }
  rw [hbody] at hkB' hlB'
  have hr₁ := hlA r hr
  have henv₁ : env < s.frames.size := lt_of_lt_of_le ready.frame hkA.1
  refine ⟨?_, lt_of_lt_of_le henv₁ hkB'.1, ?_⟩
  · rw [(hlB' r hr₁.1).2, hr₁.2, ready.length]
  · rw [Frame.mutable_find?_of_shape (hkB'.2 env henv₁ trivial),
      Frame.mutable_find?_of_shape (hkA.2 env ready.frame trivial), ready.mutable]

theorem iterate_loopPasses :
    ∀ (k i : Nat) (last : Outcome) (m : Machine), i + k = n → PassReady env binding r n m →
      LoopPasses call env binding r body n i last m
        ((iterate (forPass call env binding r body p) (List.range' i k) last).run.run m)
  | 0, i, last, m, hk, _ => by
    rw [Nat.add_zero] at hk
    subst hk
    exact .done
  | k + 1, i, last, m, hk, ready => by
    have hi : i < n := by omega
    obtain ⟨s, start, hpass⟩ := forPass_run call body p ready hi
    rw [List.range'_succ, iterate, run_bind, hpass]
    -- the pass's body ends in one of three ways
    rcases hrun : (passBody call env body).run.run { m with store := s } with ⟨res, m'⟩
    cases res with
    | error e => exact .fails hi start hrun
    | ok o =>
      dsimp only
      cases hret : o.returning with
      | true =>
        simp only [if_true]
        exact .returns hi start hrun hret
      | false =>
        simp only [Bool.false_eq_true, if_false]
        exact .next hi start hrun hret (iterate_loopPasses k (i + 1) o m' (by omega)
          (ready_after_pass hcF hcL ready start hrun))

end Ready

theorem run_removing_result {α : Type} (y : Eval α) (name : String) (m : Machine) :
    ((do
      let o ← tryCatch y (fun e => do setStore ((← Eval.store).remove env name); throw e)
      setStore ((← Eval.store).remove env name)
      return o).run.run m) =
      ((y.run.run m).1, { (y.run.run m).2 with store := (y.run.run m).2.store.remove env name }) := by
  rw [run_bind, run_tryCatch]
  rcases y.run.run m with ⟨res, m'⟩
  cases res <;> rfl

end Eval

/-- A `for` over an array. Let the iterable, evaluated in the loop's frame `env`, give the
array `r`, which then has `n` elements. Declaring the variable fails only if the frame binds it
already, and then no pass runs. Otherwise the passes run as `LoopPasses` says: once per element
the array had at the start, stopping early only at a `ret` or an error, each pass taking the
element as stored when it starts and running the body in a new frame under `env`; the loop
gives the last pass's outcome, or null when `n` is zero, and removes the variable on every way
out. That the array keeps its length rests on every statement keeping the length of every
array that exists, which is the last part. -/
theorem forIn_passes (limit : Option Nat) (budget env : Nat) (binding : String) (iterable : Expr)
    (body : List Stmt) (p : Pos) (m m₁ : Machine) (r : Nat) (henv : env < m.store.frames.size)
    (hiter : (Eval.evalExpr (Eval.callWith limit budget) env iterable).run.run m =
      (.ok (.array r), m₁)) :
    ((∃ e, m₁.store.declare env binding .null true = .error e ∧
        (Eval.execStmt (Eval.callWith limit budget) env (.forIn binding iterable body p)).run.run m =
          (.error (e.locate p), m₁)) ∨
      ∃ s₂ res, m₁.store.declare env binding .null true = .ok s₂ ∧
        Eval.LoopPasses (Eval.callWith limit budget) env binding r body (m₁.store.elems r).size 0
          ⟨.null, false⟩ { m₁ with store := s₂ } res ∧
        (Eval.execStmt (Eval.callWith limit budget) env (.forIn binding iterable body p)).run.run m =
          (res.1, { res.2 with store := res.2.store.remove env binding })) ∧
    ∀ (env' : Nat) (stmt : Stmt) (m' : Machine), Store.LengthsKept m'.store
      ((Eval.execStmt (Eval.callWith limit budget) env' stmt).run.run m').2.store := by
  refine ⟨?_, fun env' stmt => Eval.execStmt_keeps_rel_of_kept Store.lengthsKept limit budget env' stmt⟩
  have hk₁ := Eval.evalExpr_keeps (Eval.callWith_keeps limit budget) env iterable m
  rw [hiter] at hk₁
  rw [Eval.execStmt.eq_def]
  dsimp only
  rw [Eval.run_bind, hiter]
  dsimp only
  rw [Eval.run_bind, Eval.run_declareAt]
  cases hd : m₁.store.declare env binding .null true with
  | error e => exact .inl ⟨e, rfl, rfl⟩
  | ok s₂ =>
    have hn : (s₂.elems r).size = (m₁.store.elems r).size := by
      rw [Store.elems, Store.elems, (Store.sameHeap_declare hd).1]
    refine .inr ⟨s₂, (Eval.iterate (Eval.forPass (Eval.callWith limit budget) env binding r body p)
      (List.range (m₁.store.elems r).size) ⟨.null, false⟩).run.run { m₁ with store := s₂ }, rfl,
      ?_, ?_⟩
    · have hready : Eval.PassReady env binding r (m₁.store.elems r).size { m₁ with store := s₂ } := by
        have hsize := (Store.keepsOn_declare hd).1
        have henv₁ : env < m₁.store.frames.size := lt_of_lt_of_le henv hk₁.1
        refine ⟨hn, lt_of_lt_of_le henv₁ hsize, ?_⟩
        simp [Store.find?_declare hd henv₁]
      rw [List.range_eq_range']
      exact Eval.iterate_loopPasses (Eval.callWith_keeps limit budget)
        (Eval.callWith_keeps_rel Store.lengthsKept limit budget) _ 0 _ _ (Nat.zero_add _) hready
    · dsimp only
      rw [Eval.run_bind, Eval.run_store]
      dsimp only
      rw [hn]
      exact Eval.run_removing_result _ _ _

/-- A loop over a one-element array literal, in the only frame of a store. -/
theorem forIn_passes_single :
    let m : Machine := { store := { frames := #[.empty none] } }
    let m₁ : Machine := { store := { arrays := #[#[.str "a"]], frames := #[.empty none] } }
    let iterable : Expr := .array [.str "a" .start] .start
    0 < m.store.frames.size ∧
    (Eval.evalExpr (Eval.callWith none 1) 0 iterable).run.run m = (.ok (.array 0), m₁) ∧
    ((∃ e, m₁.store.declare 0 "x" .null true = .error e ∧
        (Eval.execStmt (Eval.callWith none 1) 0 (.forIn "x" iterable [] .start)).run.run m =
          (.error (e.locate .start), m₁)) ∨
      ∃ s₂ res, m₁.store.declare 0 "x" .null true = .ok s₂ ∧
        Eval.LoopPasses (Eval.callWith none 1) 0 "x" 0 [] (m₁.store.elems 0).size 0
          ⟨.null, false⟩ { m₁ with store := s₂ } res ∧
        (Eval.execStmt (Eval.callWith none 1) 0 (.forIn "x" iterable [] .start)).run.run m =
          (res.1, { res.2 with store := res.2.store.remove 0 "x" })) ∧
    ∀ (env' : Nat) (stmt : Stmt) (m' : Machine), Store.LengthsKept m'.store
      ((Eval.execStmt (Eval.callWith none 1) env' stmt).run.run m').2.store :=
  ⟨by decide, rfl, forIn_passes none 1 0 "x" (.array [.str "a" .start] .start) [] .start _ _ 0
    (by decide) rfl⟩

end Treewalk
