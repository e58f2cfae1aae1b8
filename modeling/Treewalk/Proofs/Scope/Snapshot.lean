import Mathlib
import Treewalk.Proofs.Eval.StoreSteps
/-!
# Snapshots of scopes

A snapshot copies the chain of frames that a scope reads into new frames, nearest first, each
copy's parent being the copy of the original's parent. At the moment it is taken the copy
observes what the original observes: every name looks up to the same value (the same array or
object, when it is one), is bound in both or in neither, and an assignment to it fails in both
or in neither, with the same error. The two chains have the same length and share no frame.

What a scope observes depends only on the bindings of the frames of its chain, and a scope
operation writes only to frames of the chain it works through. A chain that meets the
original's chain is disjoint from the copy's, since two chains that share a frame share all
the frames after it. So no sequence of declarations, assignments and removals through scopes
that share a frame with the original changes what the copy observes, and the other way round
(`Store.snapshot_isolated`).

-/
namespace Treewalk

namespace Store

/-! ### Chains -/

theorem mem_chain_self (s : Store) (i : Nat) : i ∈ s.chain i := by
  rw [chain]
  exact List.mem_cons_self

theorem chain_of_parent {s : Store} {i p : Nat} (hp : (s.frame i).parent = some p) (hpi : p < i) :
    s.chain i = i :: s.chain p := by
  rw [chain, hp]
  simp [hpi]

theorem chain_of_no_parent {s : Store} {i : Nat}
    (hp : ∀ p, (s.frame i).parent = some p → i ≤ p) : s.chain i = [i] := by
  rw [chain]
  cases h : (s.frame i).parent with
  | none => rfl
  | some p => simp [Nat.not_lt.mpr (hp p h)]

theorem chain_suffix (s : Store) {c : Nat} : ∀ k, c ∈ s.chain k → s.chain c <:+ s.chain k := by
  intro k
  induction k using Nat.strong_induction_on with
  | _ k ih =>
    intro h
    by_cases hp : ∃ p, (s.frame k).parent = some p ∧ p < k
    · obtain ⟨p, hp, hpk⟩ := hp
      rw [chain_of_parent hp hpk] at h ⊢
      rcases List.mem_cons.mp h with rfl | h
      · rw [← chain_of_parent hp hpk]
      · exact (ih p hpk h).trans (List.suffix_cons _ _)
    · have hk : s.chain k = [k] :=
        chain_of_no_parent fun p hp' => Nat.not_lt.mp fun hpk => hp ⟨p, hp', hpk⟩
      rw [hk, List.mem_singleton] at h
      rw [h]

theorem le_of_mem_chain (s : Store) {c : Nat} : ∀ k, c ∈ s.chain k → c ≤ k := by
  intro k
  induction k using Nat.strong_induction_on with
  | _ k ih =>
    intro h
    by_cases hp : ∃ p, (s.frame k).parent = some p ∧ p < k
    · obtain ⟨p, hp, hpk⟩ := hp
      rw [chain_of_parent hp hpk] at h
      rcases List.mem_cons.mp h with rfl | h
      · exact le_rfl
      · exact (ih p hpk h).trans hpk.le
    · rw [chain_of_no_parent fun p hp' => Nat.not_lt.mp fun hpk => hp ⟨p, hp', hpk⟩,
        List.mem_singleton] at h
      exact h.le

/-- A chain that shares a frame with the chain at `a` meets no chain that the chain at `a`
does not meet: two frames of one chain lie one on the other's chain. -/
theorem chain_disjoint_of_shares {s : Store} {a b k c : Nat}
    (hab : List.Disjoint (s.chain a) (s.chain b)) (hck : c ∈ s.chain k) (hca : c ∈ s.chain a) :
    List.Disjoint (s.chain k) (s.chain b) := by
  refine List.disjoint_left.mpr fun d hdk hdb => ?_
  rcases List.suffix_or_suffix_of_suffix (s.chain_suffix k hck) (s.chain_suffix k hdk) with h | h
  · -- `c` lies on the chain of `d`, so on that of `b`
    exact List.disjoint_left.mp hab hca ((s.chain_suffix b hdb).subset (h.subset (mem_chain_self s c)))
  · -- `d` lies on the chain of `c`, so on that of `a`
    exact List.disjoint_left.mp hab ((s.chain_suffix a hca).subset (h.subset (mem_chain_self s d))) hdb

theorem chain_of_parents_below {s t : Store} {i : Nat}
    (h : ∀ k ≤ i, (t.frame k).parent = (s.frame k).parent) : t.chain i = s.chain i := by
  induction i using Nat.strong_induction_on with
  | _ i ih =>
    rw [chain, chain, h i le_rfl]
    cases (s.frame i).parent with
    | none => rfl
    | some p =>
      by_cases hpi : p < i
      · simp only [hpi, if_true, ih p hpi fun k hk => h k (by omega)]
      · simp [hpi]

/-! ### What a scope observes -/

/-- The binding that the scope at frame `i` sees for `name`: that of the nearest frame of its
chain that binds the name. -/
def seen (s : Store) (i : Nat) (name : String) : Option Binding :=
  (s.chain i).findSome? fun k => (s.frame k).find? name

def view (s : Store) (i : Nat) : List (String → Option Binding) :=
  (s.chain i).map fun k => (s.frame k).find?

theorem seen_eq_view (s : Store) (i : Nat) (name : String) :
    s.seen i name = (s.view i).findSome? fun bs => bs name := by
  rw [seen, view, List.findSome?_map]
  rfl

private theorem find?_bind_eq_findSome? {α β : Type} (g : α → Option β) :
    ∀ l : List α, (l.find? fun a => (g a).isSome).bind g = l.findSome? g
  | [] => rfl
  | a :: l => by
    cases h : g a with
    | none => simp [h, find?_bind_eq_findSome? g l]
    | some b => simp [h]

theorem seen_eq_resolve (s : Store) (i : Nat) (name : String) :
    s.seen i name = (s.resolve name i).bind fun j => (s.frame j).find? name := by
  rw [resolve_eq_find?, seen, ← find?_bind_eq_findSome?]
  simp only [Frame.binds_eq_isSome_find?]

theorem lookup_eq_seen (s : Store) (i : Nat) (name : String) :
    s.lookup i name = match s.seen i name with
      | some b => .ok b.value
      | none => .error { fault := .notDefined name } := by
  rw [seen_eq_resolve]
  cases hr : s.resolve name i with
  | none => rw [lookup, hr]; rfl
  | some j =>
    obtain ⟨b, hb⟩ := find?_resolve hr
    rw [lookup_of_resolve hr hb, Option.bind_some, hb]

theorem has_eq_seen (s : Store) (i : Nat) (name : String) :
    s.has i name = (s.seen i name).isSome := by
  rw [has, seen_eq_resolve]
  cases hr : s.resolve name i with
  | none => rfl
  | some j =>
    obtain ⟨b, hb⟩ := find?_resolve hr
    simp [hb]

theorem assign_outcome_eq_seen (s : Store) (i : Nat) (name : String) (v : Value) :
    (s.assign i name v).map (fun _ => ()) = match s.seen i name with
      | some b => if b.mutable then .ok () else .error { fault := .assignToConstant name }
      | none => .error { fault := .notDefined name } := by
  rw [seen_eq_resolve]
  cases hr : s.resolve name i with
  | none => rw [assign, hr]; rfl
  | some j =>
    obtain ⟨b, hb⟩ := find?_resolve hr
    rw [assign_of_resolve hr hb, Option.bind_some, hb]
    dsimp only
    split <;> rfl

/-- The scope at `i` of `s` and the scope at `j` of `t` observe the same: every name looks up
to the same value or error in both, is bound in both or in neither, and an assignment of any
value to it succeeds in both or fails in both with the same error. -/
def SameView (s : Store) (i : Nat) (t : Store) (j : Nat) : Prop :=
  ∀ name v, s.lookup i name = t.lookup j name ∧ s.has i name = t.has j name ∧
    (s.assign i name v).map (fun _ => ()) = (t.assign j name v).map (fun _ => ())

theorem sameView_of_view {s t : Store} {i j : Nat} (h : s.view i = t.view j) : SameView s i t j := by
  have hseen : ∀ name, s.seen i name = t.seen j name := fun name => by
    rw [seen_eq_view, seen_eq_view, h]
  intro name v
  rw [lookup_eq_seen, lookup_eq_seen, has_eq_seen, has_eq_seen, assign_outcome_eq_seen,
    assign_outcome_eq_seen, hseen]
  exact ⟨rfl, rfl, rfl⟩

/-! ### The snapshot -/

/-- What a snapshot of the chain at `i` of `s` gives: a store `t` that keeps every frame of `s`,
adds new ones and keeps the closures, and a new frame `j` whose chain reads the
bindings of the chain at `i`, every frame of it new. -/
structure SnapshotOf (s : Store) (i : Nat) (t : Store) (j : Nat) : Prop where
  size_le : s.frames.size ≤ j
  lt_size : j < t.frames.size
  frame_below : ∀ k < s.frames.size, t.frame k = s.frame k
  view : t.view j = s.view i
  fresh : ∀ k ∈ t.chain j, s.frames.size ≤ k
  closures : t.closures = s.closures

theorem frame_push_below (s : Store) (f : Frame) {k : Nat} (hk : k < s.frames.size) :
    ({ s with frames := s.frames.push f } : Store).frame k = s.frame k := by
  simp [frame, Array.getD_eq_getD_getElem?, Array.getElem?_push, Nat.ne_of_lt hk]

theorem frame_push_top (s : Store) (f : Frame) :
    ({ s with frames := s.frames.push f } : Store).frame s.frames.size = f := by
  simp [frame, Array.getD_eq_getD_getElem?]

theorem view_of_frames_below {s t : Store} {i : Nat} (h : ∀ k ≤ i, t.frame k = s.frame k) :
    t.view i = s.view i := by
  have hchain : t.chain i = s.chain i := chain_of_frames_below h
  rw [view, view, hchain]
  refine List.map_congr_left fun k hk => ?_
  rw [h k (s.le_of_mem_chain i hk)]

theorem view_of_chain_cons {t : Store} {j q : Nat} (h : t.chain j = j :: t.chain q) :
    t.view j = (t.frame j).find? :: t.view q := by
  rw [view, h, List.map_cons, view]

theorem snapshotOf_root {s : Store} {i : Nat} (hp : ∀ p, (s.frame i).parent = some p → i ≤ p) :
    SnapshotOf s i { s with frames := s.frames.push ((s.frame i).copy none) }
      s.frames.size := by
  have htop := frame_push_top s ((s.frame i).copy none)
  have hchain : ({ s with frames := s.frames.push ((s.frame i).copy none) } :
      Store).chain s.frames.size = [s.frames.size] :=
    chain_of_no_parent fun p h => by rw [htop] at h; cases h
  refine ⟨le_rfl, by simp, fun k hk => frame_push_below s _ hk, ?_, ?_, rfl⟩
  · rw [view, hchain, view, chain_of_no_parent hp]
    simp [htop]
  · intro k hk
    rw [hchain, List.mem_singleton] at hk
    omega

theorem snapshotOf (s : Store) (i : Nat) : SnapshotOf s i (s.snapshot i).1 (s.snapshot i).2 := by
  induction i using Nat.strong_induction_on with
  | _ i ih =>
    rw [snapshot]
    by_cases hp : ∃ p, (s.frame i).parent = some p ∧ p < i
    · -- the parent's chain is copied first; the copy of frame `i` goes on top of it
      obtain ⟨p, hp, hpi⟩ := hp
      obtain ⟨hle, hlt, hbelow, hview, hfresh, hclosures⟩ := ih p hpi
      simp only [hp, hpi, if_true]
      set t := (s.snapshot p).1
      set q := (s.snapshot p).2
      have htop := frame_push_top t ((s.frame i).copy (some q))
      have hkeep : ∀ k ≤ q, ({ t with frames := t.frames.push ((s.frame i).copy (some q)) } :
          Store).frame k = t.frame k := fun k hk => frame_push_below t _ (by omega)
      have hchain : ({ t with frames := t.frames.push ((s.frame i).copy (some q)) } :
          Store).chain t.frames.size = t.frames.size ::
            ({ t with frames := t.frames.push ((s.frame i).copy (some q)) } : Store).chain q :=
        chain_of_parent (by rw [htop, Frame.parent_copy]) hlt
      refine ⟨by omega, by simp, fun k hk => ?_, ?_, ?_, hclosures⟩
      · rw [frame_push_below t _ (by omega), hbelow k hk]
      · rw [view_of_chain_cons hchain, htop, Frame.find?_copy, view_of_frames_below hkeep, hview,
          view_of_chain_cons (chain_of_parent hp hpi)]
      · intro k hk
        rw [hchain, chain_of_frames_below hkeep] at hk
        rcases List.mem_cons.mp hk with rfl | hk
        · omega
        · exact hfresh k hk
    · -- no older parent: the copy is one frame without a parent
      have hno : ∀ p, (s.frame i).parent = some p → i ≤ p :=
        fun p hp' => Nat.not_lt.mp fun hpi => hp ⟨p, hp', hpi⟩
      cases h : (s.frame i).parent with
      | none => exact snapshotOf_root hno
      | some p =>
        simp only [show ¬ p < i from Nat.not_lt.mpr (hno p h), if_false]
        exact snapshotOf_root hno

namespace SnapshotOf

variable {s t : Store} {i j : Nat}

theorem view_self (h : SnapshotOf s i t j) (hi : i < s.frames.size) : t.view i = s.view i :=
  view_of_frames_below fun k hk => h.frame_below k (by omega)

theorem lt_size_self (h : SnapshotOf s i t j) (hi : i < s.frames.size) : i < t.frames.size := by
  have := h.lt_size
  have := h.size_le
  omega

theorem disjoint (h : SnapshotOf s i t j) (hi : i < s.frames.size) :
    List.Disjoint (t.chain j) (t.chain i) := by
  refine List.disjoint_left.mpr fun k hkj hki => ?_
  have h₁ := h.fresh k hkj
  have h₂ := t.le_of_mem_chain i hki
  omega

end SnapshotOf

/-! ### Operations write only through their own chain -/

/-- `t` keeps every frame of `s` with its parent, and leaves each frame outside `W` as it was. -/
structure Frozen (W : Nat → Prop) (s t : Store) : Prop where
  size_le : s.frames.size ≤ t.frames.size
  parent : ∀ k < s.frames.size, (t.frame k).parent = (s.frame k).parent
  frame : ∀ k < s.frames.size, ¬ W k → t.frame k = s.frame k

variable {W : Nat → Prop} {s t : Store}

theorem Frozen.refl (W : Nat → Prop) (s : Store) : Frozen W s s := ⟨le_rfl, fun _ _ => rfl, fun _ _ _ => rfl⟩

theorem Frozen.mono {W' : Nat → Prop} (h : Frozen W s t) (hW : ∀ k, W k → W' k) : Frozen W' s t :=
  ⟨h.size_le, h.parent, fun k hk hW' => h.frame k hk fun hw => hW' (hW k hw)⟩

theorem Frozen.trans {u : Store} (h₁ : Frozen W s t) (h₂ : Frozen W t u) : Frozen W s u :=
  ⟨h₁.size_le.trans h₂.size_le,
    fun k hk => (h₂.parent k (lt_of_lt_of_le hk h₁.size_le)).trans (h₁.parent k hk),
    fun k hk hW => (h₂.frame k (lt_of_lt_of_le hk h₁.size_le) hW).trans (h₁.frame k hk hW)⟩

theorem frozen_modify (s : Store) (i : Nat) (g : Frame → Frame) (hg : ∀ f, (g f).parent = f.parent) :
    Frozen (· = i) s { s with frames := s.frames.modify i g } := by
  refine ⟨by simp, fun k _ => ?_, fun k _ hki => ?_⟩
  · rw [frame_modify]
    split_ifs <;> simp [hg]
  · rw [frame_modify, if_neg (Ne.symm hki)]

theorem frozen_push (s : Store) (f : Frame) : Frozen W s { s with frames := s.frames.push f } :=
  ⟨by simp, fun k hk => by rw [frame_push_below s f hk], fun k hk _ => frame_push_below s f hk⟩

theorem resolve_mem_chain {s : Store} {name : String} {i j : Nat} (h : s.resolve name i = some j) :
    j ∈ s.chain i := by
  rw [resolve_eq_find?] at h
  exact List.mem_of_find?_eq_some h

theorem Frozen.chain_eq (h : Frozen W s t) {b : Nat} (hb : b < s.frames.size) : t.chain b = s.chain b :=
  chain_of_parents_below fun k hk => h.parent k (by omega)

theorem Frozen.view_eq (h : Frozen W s t) {b : Nat} (hb : b < s.frames.size)
    (hW : ∀ k ∈ s.chain b, ¬ W k) : t.view b = s.view b := by
  rw [view, view, h.chain_eq hb]
  refine List.map_congr_left fun k hk => ?_
  rw [h.frame k (lt_of_le_of_lt (s.le_of_mem_chain b hk) hb) (hW k hk)]

end Store

/-- The scope that an operation writes through, if it writes: that of a declaration, an
assignment or a removal. -/
def ScopeOp.writesIn : ScopeOp → Option Nat
  | .declare env _ _ _ | .assign env _ _ | .remove env _ => some env
  | .newEnv _ | .lookup _ _ | .has _ _ => none

namespace Store

/-- One operation writes only to frames of the chain it works through: a declaration and a
removal to its own frame, an assignment to the frame that binds the name. -/
theorem step_frozen (t : Store) (op : ScopeOp) :
    Frozen (fun k => ∃ e, op.writesIn = some e ∧ k ∈ t.chain e) t (scopes.step t op).2 := by
  cases op with
  | newEnv p => exact frozen_push t _
  | declare e name v mutable =>
    simp only [Scopes.step, scopes]
    cases hd : t.declare e name v mutable with
    | error err => exact .refl _ t
    | ok t' =>
      obtain ⟨-, rfl⟩ := declare_ok hd
      dsimp only
      exact Frozen.mono (frozen_modify t e (·.declare name v mutable) fun _ => rfl)
        fun k hk => ⟨e, rfl, hk ▸ mem_chain_self t e⟩
  | assign e name v =>
    simp only [Scopes.step, scopes]
    cases ha : t.assign e name v with
    | error err => exact .refl _ t
    | ok t' =>
      obtain ⟨j, hr, -, rfl⟩ := assign_ok ha
      dsimp only
      exact Frozen.mono (frozen_modify t j (·.update name v) fun _ => rfl) fun k hk =>
        ⟨e, rfl, hk ▸ resolve_mem_chain hr⟩
  | lookup e name =>
    simp only [Scopes.step, scopes]
    split <;> exact .refl _ t
  | remove e name =>
    simp only [Scopes.step, scopes, remove]
    exact Frozen.mono (frozen_modify t e (·.erase name) fun _ => rfl) fun k hk =>
      ⟨e, rfl, hk ▸ mem_chain_self t e⟩
  | has e name => exact .refl _ t

/-- Every operation of a run, in the store it runs on, writes only through a scope whose chain
shares a frame with the chain at `a`. -/
def WritesNear (a : Nat) : Store → List ScopeOp → Prop
  | _, [] => True
  | t, op :: ops => (∀ e, op.writesIn = some e → ∃ c ∈ t.chain e, c ∈ t.chain a) ∧
      WritesNear a (scopes.step t op).2 ops

/-- A run that writes only near the chain at `a` leaves every chain disjoint from it reading the
same bindings. -/
theorem view_run_of_writesNear {a b : Nat} :
    ∀ (t : Store) (ops : List ScopeOp), a < t.frames.size → b < t.frames.size →
      List.Disjoint (t.chain a) (t.chain b) → WritesNear a t ops →
      (scopes.run t ops).2.view b = t.view b
  | _, [], _, _, _, _ => rfl
  | t, op :: ops, ha, hb, hab, ⟨hnear, hrest⟩ => by
    have hstep := step_frozen t op
    -- the operation writes through a chain that meets the one at `a`, so misses the one at `b`
    have hmiss : ∀ k ∈ t.chain b, ¬ ∃ e, op.writesIn = some e ∧ k ∈ t.chain e := by
      rintro k hk ⟨e, he, hke⟩
      obtain ⟨c, hce, hca⟩ := hnear e he
      exact List.disjoint_left.mp (chain_disjoint_of_shares hab hce hca) hke hk
    have hab₁ : List.Disjoint ((scopes.step t op).2.chain a) ((scopes.step t op).2.chain b) := by
      rw [hstep.chain_eq ha, hstep.chain_eq hb]
      exact hab
    have ih := view_run_of_writesNear (scopes.step t op).2 ops (lt_of_lt_of_le ha hstep.size_le)
      (lt_of_lt_of_le hb hstep.size_le) hab₁ hrest
    exact ih.trans (hstep.view_eq hb hmiss)

/-- A snapshot of the scope at an existing frame `i`. When it is taken it observes what the scope
observes: every name looks up to the same value, is bound in both or in neither, and an
assignment to it fails in both or in neither, with the same error. The two chains have the same
length and share no frame, and the arrays and objects stay as they were, shared by both. No
run whose declarations, assignments and removals all go through scopes that share a frame
with the original changes what the copy observes; symmetrically, runs that write only near
the copy never change what the original observes. -/
theorem snapshot_isolated (s : Store) (i : Nat) (hi : i < s.frames.size) :
    let t := (s.snapshot i).1
    let j := (s.snapshot i).2
    SameView t j s i ∧
      (t.chain j).length = (t.chain i).length ∧ List.Disjoint (t.chain j) (t.chain i) ∧
      t.arrays = s.arrays ∧ t.objects = s.objects ∧
      (∀ ops, WritesNear i t ops → SameView (scopes.run t ops).2 j t j) ∧
      (∀ ops, WritesNear j t ops → SameView (scopes.run t ops).2 i t i) := by
  intro t j
  have hsnap : SnapshotOf s i t j := snapshotOf s i
  have hview_i : t.view i = s.view i := hsnap.view_self hi
  have hti : i < t.frames.size := hsnap.lt_size_self hi
  have hdisj : List.Disjoint (t.chain j) (t.chain i) := hsnap.disjoint hi
  have hlen : (t.chain j).length = (t.chain i).length := by
    have h := congrArg List.length (hsnap.view.trans hview_i.symm)
    simpa only [view, List.length_map] using h
  have hheap : SameHeap s t := sameHeap_snapshot s i
  refine ⟨sameView_of_view hsnap.view, hlen, hdisj, hheap.1, hheap.2, fun ops hops => ?_,
    fun ops hops => ?_⟩
  · exact sameView_of_view (view_run_of_writesNear t ops hti hsnap.lt_size hdisj.symm hops)
  · exact sameView_of_view (view_run_of_writesNear t ops hsnap.lt_size hti hdisj hops)

/-- A block scope inside the global one, holding a single binding. -/
theorem snapshot_isolated_block :
    let s : Store :=
      { frames := #[(Frame.empty none).declare "x" (.number 1) true,
        (Frame.empty (some 0)).declare "y" .null false] }
    let t := (s.snapshot 1).1
    let j := (s.snapshot 1).2
    1 < s.frames.size ∧
      (SameView t j s 1 ∧
        (t.chain j).length = (t.chain 1).length ∧ List.Disjoint (t.chain j) (t.chain 1) ∧
        t.arrays = s.arrays ∧ t.objects = s.objects ∧
        (∀ ops, WritesNear 1 t ops → SameView (scopes.run t ops).2 j t j) ∧
        (∀ ops, WritesNear j t ops → SameView (scopes.run t ops).2 1 t 1)) :=
  ⟨by decide, snapshot_isolated _ 1 (by decide)⟩

end Store

end Treewalk
