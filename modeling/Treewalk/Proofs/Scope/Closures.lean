import Mathlib
import Treewalk.Proofs.Scope.Snapshot
/-!
# Closures

A function declaration binds the function in its frame and then points the function at a
snapshot of the declaring scope, so the function sees itself (`funcDecl_captures_scope`). From
then on the two scopes are apart: declarations, assignments and removals made through the
declaring scope do not change what the function's scope sees, and those made through the
function's scope do not change what the declaring scope sees. Arrays and objects stay shared.

A call runs its body in a new frame right under the frame the function captured, that frame
itself and not a copy of it, and keeps whatever its body did (`call_runs_under_capture`). So
what a function assigns to a name it captured is still there when it is called again
(`calls_share_captured_scope`).

Both rest on what every run keeps: each frame its parent, and each function its record, the
frame it captured included (`Store.Linked`).
-/
namespace Treewalk

namespace Store

/-! ### Frames keep their parents, functions their records -/

/-- `t` keeps every frame of `s` under the same parent, and every user function of `s` as it
was, with the frame it captured. -/
structure Linked (s t : Store) : Prop where
  size_le : s.frames.size ≤ t.frames.size
  parent : ∀ k < s.frames.size, (t.frame k).parent = (s.frame k).parent
  closure : ∀ {ref : Nat} {c : Closure}, s.closures[ref]? = some c → t.closures[ref]? = some c

variable {s t u : Store}

theorem Linked.refl (s : Store) : Linked s s := ⟨le_rfl, fun _ _ => rfl, id⟩

theorem Linked.trans (h₁ : Linked s t) (h₂ : Linked t u) : Linked s u :=
  ⟨h₁.size_le.trans h₂.size_le,
    fun k hk => (h₂.parent k (lt_of_lt_of_le hk h₁.size_le)).trans (h₁.parent k hk),
    fun hc => h₂.closure (h₁.closure hc)⟩

theorem Linked.of_frozen {W : Nat → Prop} (h : Frozen W s t) (hc : t.closures = s.closures) :
    Linked s t :=
  ⟨h.size_le, h.parent, fun h' => hc ▸ h'⟩

theorem Linked.of_frames (hf : t.frames = s.frames) (hc : t.closures = s.closures) : Linked s t :=
  ⟨hf ▸ le_rfl, fun k _ => by rw [frame, frame, hf], fun h' => hc ▸ h'⟩

theorem Linked.closure_getD (h : Linked s t) {ref : Nat} (hr : ref < s.closures.size) :
    t.closures.getD ref default = s.closures.getD ref default := by
  rw [Array.getD_eq_getD_getElem?, Array.getD_eq_getD_getElem?,
    h.closure (Array.getElem?_eq_getElem hr), Array.getElem?_eq_getElem hr]

theorem linked_declare {i : Nat} {name : String} {v : Value} {mutable : Bool}
    (h : s.declare i name v mutable = .ok t) : Linked s t := by
  obtain ⟨-, rfl⟩ := declare_ok h
  exact .of_frozen (frozen_modify s i _ fun _ => rfl) rfl

theorem linked_snapshot (s : Store) (i : Nat) : Linked s (s.snapshot i).1 :=
  have h := snapshotOf s i
  ⟨h.size_le.trans h.lt_size.le, fun k hk => by rw [h.frame_below k hk], fun h' => h.closures ▸ h'⟩

theorem linked_allocClosure (s : Store) (c : Closure) : Linked s (s.allocClosure c).1 := by
  refine ⟨le_rfl, fun _ _ => rfl, fun {ref _} h => ?_⟩
  obtain ⟨hlt, -⟩ := Array.getElem?_eq_some_iff.mp h
  simp only [allocClosure, Array.getElem?_push, Nat.ne_of_lt hlt, if_false, h]

theorem linked_capture {s' : Store} {c : Closure} {i : Nat} {name : String}
    (h : (s.allocClosure c).1.declare i name (.function s.closures.size) false = .ok s') :
    Linked s ((s'.snapshot i).1.setClosureEnv s.closures.size (s'.snapshot i).2) := by
  have h₁ : Linked s (s'.snapshot i).1 :=
    ((linked_allocClosure s c).trans (linked_declare h)).trans (linked_snapshot s' i)
  refine ⟨h₁.size_le, h₁.parent, fun {ref _} hc => ?_⟩
  obtain ⟨hlt, -⟩ := Array.getElem?_eq_some_iff.mp hc
  rw [setClosureEnv, Array.getElem?_modify, if_neg (Nat.ne_of_gt hlt)]
  exact h₁.closure hc

theorem linked_kept : Kept Linked where
  refl := Linked.refl
  trans := Linked.trans
  declare := linked_declare
  assign h := by
    obtain ⟨j, -, -, rfl⟩ := assign_ok h
    exact .of_frozen (frozen_modify _ j _ fun _ => rfl) rfl
  remove s i _ := .of_frozen (frozen_modify s i _ fun _ => rfl) rfl
  storeMember h := .of_frames (frames_storeMember h) (closures_storeMember h)
  allocArray _ _ := .of_frames rfl rfl
  allocObject _ _ := .of_frames rfl rfl
  allocClosure := linked_allocClosure
  newFrame s _ := .of_frozen (frozen_push (W := fun _ => True) s _) rfl
  snapshot := linked_snapshot
  capture := linked_capture

/-! ### A frame under another -/

theorem seen_of_parent {i p : Nat} {name : String} (hp : (s.frame i).parent = some p)
    (hpi : p < i) (hb : (s.frame i).binds name = false) : s.seen i name = s.seen p name := by
  have hnone : (s.frame i).find? name = none := by
    simpa [Frame.binds_eq_isSome_find?] using hb
  rw [seen, chain_of_parent hp hpi, List.findSome?_cons, hnone, seen]

theorem seen_of_frames_below {i : Nat} {name : String} (h : ∀ k ≤ i, t.frame k = s.frame k) :
    t.seen i name = s.seen i name := by
  rw [seen_eq_view, seen_eq_view, view_of_frames_below h]

end Store

theorem Frame.binds_declare (f : Frame) (name : String) (v : Value) (mutable : Bool) (n : String) :
    (f.declare name v mutable).binds n = (f.binds n || name == n) := by
  simp [Frame.binds, Frame.declare, List.any_append]

/-! ### Function declarations -/

namespace Store

variable {s : Store} {i : Nat} {name : String} {b : Binding}

theorem seen_of_find? (h : (s.frame i).find? name = some b) : s.seen i name = some b := by
  rw [seen, chain, List.findSome?_cons, h]

theorem lookup_of_find? (h : (s.frame i).find? name = some b) : s.lookup i name = .ok b.value := by
  rw [lookup_eq_seen, seen_of_find? h]

theorem view_setClosureEnv (s : Store) (ref env i : Nat) :
    (s.setClosureEnv ref env).view i = s.view i :=
  view_of_frames_below fun _ _ => rfl

theorem chain_setClosureEnv (s : Store) (ref env i : Nat) :
    (s.setClosureEnv ref env).chain i = s.chain i :=
  chain_of_frames_below fun _ _ => rfl

theorem env_setClosureEnv (s : Store) {ref : Nat} (href : ref < s.closures.size) (env : Nat) :
    ((s.setClosureEnv ref env).closures[ref]?).map Closure.env = some env := by
  simp [setClosureEnv, href, Array.getElem_modify]

end Store

/-- A function declared in an existing frame `env` either finds its name bound there and fails,
the frames as they were, or binds itself and then captures a snapshot of the scope. The
closure's scope then observes what the declaring scope observes, its own name included, which
lets the function call itself, and it shares no frame with the declaring scope. From then on
the two are apart: no run of scope operations through scopes that meet the declaring scope
changes what the closure's scope observes, and no run through scopes that meet the closure's
scope changes what the declaring scope observes. -/
theorem funcDecl_captures_scope (call : CallFn) (env : Nat) (name : String)
    (params : List String) (body : List Stmt) (p : Pos) (m : Machine)
    (henv : env < m.store.frames.size) :
    let res := (Eval.execStmt call env (.funcDecl name params body p)).run.run m
    (∃ e, res.1 = .error e ∧ res.2.store.frames = m.store.frames) ∨
      ∃ ref snap, res.1 = .ok ⟨.function ref, false⟩ ∧
        (res.2.store.closures[ref]?).map Closure.env = some snap ∧
        res.2.store.lookup snap name = .ok (.function ref) ∧
        Store.SameView res.2.store snap res.2.store env ∧
        List.Disjoint (res.2.store.chain snap) (res.2.store.chain env) ∧
        (∀ ops, Store.WritesNear env res.2.store ops →
          Store.SameView (Store.scopes.run res.2.store ops).2 snap res.2.store snap) ∧
        (∀ ops, Store.WritesNear snap res.2.store ops →
          Store.SameView (Store.scopes.run res.2.store ops).2 env res.2.store env) := by
  intro res
  cases hd : (m.store.allocClosure ⟨name, params, body, env⟩).1.declare env name
      (.function (m.store.allocClosure ⟨name, params, body, env⟩).2) false with
  | error e =>
    simp only [res]
    rw [Eval.run_funcDecl_error call env name params body p m hd]
    exact .inl ⟨e.locate p, rfl, rfl⟩
  | ok s₂ =>
    simp only [res]
    rw [Eval.run_funcDecl_ok call env name params body p m hd]
    set ref := m.store.closures.size
    set t := (s₂.snapshot env).1
    set snap := (s₂.snapshot env).2
    have hsnap : Store.SnapshotOf s₂ env t snap := Store.snapshotOf s₂ env
    have henv₂ : env < s₂.frames.size := lt_of_lt_of_le henv (Store.keepsOn_declare hd).1
    -- the declaring scope reads what it read right after the declaration, and so does the copy
    have hview_env : (t.setClosureEnv ref snap).view env = s₂.view env := by
      rw [Store.view_setClosureEnv, hsnap.view_self henv₂]
    have hview : (t.setClosureEnv ref snap).view snap = (t.setClosureEnv ref snap).view env := by
      rw [Store.view_setClosureEnv, hsnap.view, hview_env]
    have hbound : s₂.lookup env name = .ok (.function ref) :=
      Store.lookup_of_find? (Store.find?_declare hd henv)
    have href : ref < t.closures.size := by
      rw [hsnap.closures, Store.closures_declare hd]
      simp [ref, Store.allocClosure]
    have hdisj : List.Disjoint ((t.setClosureEnv ref snap).chain snap)
        ((t.setClosureEnv ref snap).chain env) := by
      rw [Store.chain_setClosureEnv, Store.chain_setClosureEnv]
      exact hsnap.disjoint henv₂
    have henv_t : env < (t.setClosureEnv ref snap).frames.size := hsnap.lt_size_self henv₂
    have hsnap_t : snap < (t.setClosureEnv ref snap).frames.size := hsnap.lt_size
    refine .inr ⟨ref, snap, rfl, Store.env_setClosureEnv t href snap, ?_,
      Store.sameView_of_view hview, hdisj, fun ops hops => ?_, fun ops hops => ?_⟩
    · rw [((Store.sameView_of_view hview) name .null).1,
        ((Store.sameView_of_view hview_env) name .null).1, hbound]
    · exact Store.sameView_of_view
        (Store.view_run_of_writesNear _ ops henv_t hsnap_t hdisj.symm hops)
    · exact Store.sameView_of_view (Store.view_run_of_writesNear _ ops hsnap_t henv_t hdisj hops)

/-! ### Calls -/

namespace Eval

theorem bindParams_frozen (i : Nat) : ∀ (ps : List (String × Value)) (m : Machine),
    Store.Frozen (· = i) m.store ((bindParams i ps).run.run m).2.store ∧
      ∀ n, n ∉ ps.map Prod.fst →
        ((((bindParams i ps).run.run m).2.store.frame i).binds n = (m.store.frame i).binds n)
  | [], _ => ⟨.refl _ _, fun _ _ => rfl⟩
  | (q, v) :: ps, m => by
    rw [bindParams, run_bind, run_update]
    cases hd : m.store.declare i q v true with
    | error e => exact ⟨.refl _ _, fun _ _ => rfl⟩
    | ok s' =>
      dsimp only
      obtain ⟨hfz, hbinds⟩ := bindParams_frozen i ps { m with store := s' }
      obtain ⟨-, rfl⟩ := Store.declare_ok hd
      refine ⟨(Store.frozen_modify m.store i (·.declare q v true) fun _ => rfl).trans hfz, fun n hn => ?_⟩
      have hq : (q == n) = false := by
        simp only [List.map_cons, List.mem_cons, not_or] at hn
        exact beq_false_of_ne (Ne.symm hn.1)
      rw [hbinds n fun h => hn (List.mem_cons_of_mem _ h), Store.frame_modify, if_pos rfl]
      split
      · rw [Frame.binds_declare, hq, Bool.or_false]
      · rfl

/-- Where a call's body starts: in the new frame, under the captured one, which binds nothing
but parameters, over the frames of `m` up to the captured one. -/
theorem bindParams_under_capture (c : Closure) (args : List Value) (m : Machine)
    (harity : args.length = c.params.length) (henv : c.env < m.store.frames.size) :
    let scope := m.store.frames.size
    let m₀ := ((bindParams scope (c.params.zip args)).run.run
      { m with store := (m.store.newFrame (some c.env)).1 }).2
    scope < m₀.store.frames.size ∧ (m₀.store.frame scope).parent = some c.env ∧
      ∀ n, n ∉ c.params → m₀.store.seen scope n = m.store.seen c.env n := by
  intro scope m₀
  set m₁ : Machine := { m with store := (m.store.newFrame (some c.env)).1 }
  have henv' : c.env < scope := henv
  have htop : m₁.store.frame scope = .empty (some c.env) := Store.frame_push_top m.store _
  have hscope : scope < m₁.store.frames.size := by simp [m₁, scope, Store.newFrame]
  obtain ⟨hfz, hbinds⟩ := bindParams_frozen scope (c.params.zip args) m₁
  have hparent : (m₀.store.frame scope).parent = some c.env := by
    rw [hfz.parent scope hscope, htop]
    rfl
  -- the frames up to the captured one are those of `m`: only the new frame was written
  have hbelow : ∀ k ≤ c.env, m₀.store.frame k = m.store.frame k := fun k hk => by
    rw [hfz.frame k (by omega) (by omega)]
    exact Store.frame_push_below m.store _ (show k < scope by omega)
  refine ⟨lt_of_lt_of_le hscope hfz.size_le, hparent, fun n hn => ?_⟩
  have hfresh : (m₀.store.frame scope).binds n = false := by
    rw [hbinds n (by rwa [List.map_fst_zip (le_of_eq harity.symm)]), htop]
    rfl
  rw [Store.seen_of_parent hparent henv hfresh, Store.seen_of_frames_below hbelow]

/-- A call with the right number of arguments and budget left: a new frame under the captured
one, the parameters bound there, and the body run there. -/
theorem run_callWith_succ (limit : Option Nat) (budget ref : Nat) (args : List Value)
    (m : Machine) (harity : args.length = (m.store.closures.getD ref default).params.length) :
    (callWith limit (budget + 1) ref args).run.run m =
      (do
        bindParams m.store.frames.size ((m.store.closures.getD ref default).params.zip args)
        let o ← execBlock (callWith limit budget) m.store.frames.size
          (m.store.closures.getD ref default).body
        return o.value).run.run
        { m with store := (m.store.newFrame (some (m.store.closures.getD ref default).env)).1 } := by
  rw [callWith, run_bind, run_store]
  dsimp only
  rw [if_neg (not_not.mpr harity), run_bind, run_alloc]
  rfl

end Eval

/-- A call of a user function with the right number of arguments and budget left runs its body
in the new frame `scope` right under the frame the function captured: that frame itself, not a
copy of it. When the body starts, every name but the parameters looks up there as it does in
the captured scope. The call is the body's run from there, unless binding a parameter named
twice fails first, and it keeps every change the body made: once it ends, the frame is still
under the captured one, so the captured scope sees each name the call's frame does not bind as
the call's frame saw it last. -/
theorem call_runs_under_capture (limit : Option Nat) (budget ref : Nat) (args : List Value)
    (m : Machine) (harity : args.length = (m.store.closures.getD ref default).params.length)
    (henv : (m.store.closures.getD ref default).env < m.store.frames.size) :
    let c := m.store.closures.getD ref default
    let scope := m.store.frames.size
    let r := (Eval.callWith limit (budget + 1) ref args).run.run m
    ∃ m₀ : Machine, (m₀.store.frame scope).parent = some c.env ∧
      (∀ n, n ∉ c.params → m₀.store.seen scope n = m.store.seen c.env n) ∧
      ((∃ e, r = (.error e, m₀)) ∨
        r = (do
          let o ← Eval.execBlock (Eval.callWith limit budget) scope c.body
          return o.value).run.run m₀) ∧
      (r.2.store.frame scope).parent = some c.env ∧
      ∀ n, (r.2.store.frame scope).binds n = false → r.2.store.seen scope n = r.2.store.seen c.env n := by
  intro c scope r
  set m₁ : Machine := { m with store := (m.store.newFrame (some c.env)).1 }
  set m₀ := ((Eval.bindParams scope (c.params.zip args)).run.run m₁).2
  obtain ⟨hscope, hparent, hstart⟩ := Eval.bindParams_under_capture c args m harity henv
  have hrun : r = ((Eval.bindParams scope (c.params.zip args)) >>= fun _ => do
      let o ← Eval.execBlock (Eval.callWith limit budget) scope c.body
      return o.value).run.run m₁ :=
    Eval.run_callWith_succ limit budget ref args m harity
  rw [Eval.run_bind] at hrun
  have hcases : ((∃ e, r = (.error e, m₀)) ∨
      r = (do
        let o ← Eval.execBlock (Eval.callWith limit budget) scope c.body
        return o.value).run.run m₀) ∧ Store.Linked m₀.store r.2.store := by
    rcases hb : (Eval.bindParams scope (c.params.zip args)).run.run m₁ with ⟨_ | _, m'⟩
    all_goals
      rw [hb] at hrun
      have hm : m₀ = m' := by simp only [m₀, hb]
      subst hm
    · exact ⟨.inl ⟨_, hrun⟩, hrun ▸ .refl _⟩
    · refine ⟨.inr hrun, hrun ▸ ?_⟩
      exact ((Eval.execBlock_keeps_rel Store.linked_kept
        (Eval.callWith_keeps_rel Store.linked_kept limit budget) scope c.body).bind
          Store.linked_kept fun _ => .pure Store.linked_kept _) m₀
  obtain ⟨hdisj, hlinked⟩ := hcases
  have hend : (r.2.store.frame scope).parent = some c.env := by
    rw [hlinked.parent scope hscope, hparent]
  exact ⟨m₀, hparent, hstart, hdisj, hend, fun n hn => Store.seen_of_parent hend henv hn⟩

/-- What a function's calls share: the second of two calls of a function starts from what the
first left in the frames the function captured. Each name other than a parameter that the first
call's frame did not bind when it ended looks up, when the second call's body starts, as it did
in the first call's frame at its end. An assignment that a function makes to a name it captured
is therefore seen by its next call. -/
theorem calls_share_captured_scope (limit : Option Nat) (budget ref : Nat)
    (args₁ args₂ : List Value) (m : Machine) (href : ref < m.store.closures.size)
    (harity₁ : args₁.length = (m.store.closures.getD ref default).params.length)
    (harity₂ : args₂.length = (m.store.closures.getD ref default).params.length)
    (henv : (m.store.closures.getD ref default).env < m.store.frames.size) :
    let c := m.store.closures.getD ref default
    let r₁ := (Eval.callWith limit (budget + 1) ref args₁).run.run m
    let r₂ := (Eval.callWith limit (budget + 1) ref args₂).run.run r₁.2
    r₁.2.store.closures.getD ref default = c ∧
      ∃ m₀ : Machine,
        ((∃ e, r₂ = (.error e, m₀)) ∨
          r₂ = (do
            let o ← Eval.execBlock (Eval.callWith limit budget) r₁.2.store.frames.size c.body
            return o.value).run.run m₀) ∧
        ∀ n, n ∉ c.params → (r₁.2.store.frame m.store.frames.size).binds n = false →
          m₀.store.seen r₁.2.store.frames.size n = r₁.2.store.seen m.store.frames.size n := by
  intro c r₁ r₂
  have hlinked : Store.Linked m.store r₁.2.store :=
    Eval.callWith_keeps_rel Store.linked_kept limit (budget + 1) ref args₁ m
  have hc : r₁.2.store.closures.getD ref default = c := hlinked.closure_getD href
  obtain ⟨-, -, -, -, -, hfirst⟩ := call_runs_under_capture limit budget ref args₁ m harity₁ henv
  have harity₂' : args₂.length = (r₁.2.store.closures.getD ref default).params.length := by
    rw [hc]
    exact harity₂
  have henv' : (r₁.2.store.closures.getD ref default).env < r₁.2.store.frames.size := by
    rw [hc]
    exact lt_of_lt_of_le henv hlinked.size_le
  obtain ⟨m₀, -, hstart, hrun, -, -⟩ :=
    call_runs_under_capture limit budget ref args₂ r₁.2 harity₂' henv'
  rw [hc] at hstart hrun
  refine ⟨hc, m₀, hrun, fun n hn hb => ?_⟩
  rw [hstart n hn, hfirst n hb]

end Treewalk
