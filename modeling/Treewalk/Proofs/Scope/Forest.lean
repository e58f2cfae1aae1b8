import Mathlib
import Treewalk.Scope
/-!
# Scopes as a forest of finite maps

The reference reading of scopes. Every frame is a finite map from names to bindings, and a
scope is the chain of frames it reads, nearest first. Frames are numbered in the order they are
made; a new frame's chain is the frame itself followed by its parent's chain, so frames made
under one parent share that parent's chain. Declaring binds in the first frame of the chain and
fails on a name that frame binds already; looking up and assigning act on the first frame of
the chain that binds the name, and assigning fails on a constant; removing unbinds the name in
the first frame only.

The store refines this reading. A frame of the store keeps its values and its set of constants
apart; `Store.toForest` reads each frame's chain off the parent links and its map off the two,
a bound name being mutable unless it is a constant. Every scope operation of the store
commutes with this reading, and because every constant of a frame is a name it binds (which
each operation keeps), a name declared again after its removal is mutable or constant as its
new declaration says. Hence for every sequence of operations, on any frames, the store gives
the answers the forest gives, ends in the state the forest ends in, and keeps as constants
exactly the names the forest binds as constant (`Store.scopes_refine_forest`).
-/
namespace Treewalk

/-- A frame of the forest: the chain that a scope starting at it reads, nearest first, and the
frame's own bindings. -/
structure ChainFrame where
  chain : List Nat
  map : String → Option Binding

instance : Inhabited ChainFrame := ⟨⟨[], fun _ => none⟩⟩

@[simp] theorem ChainFrame.chain_default : (default : ChainFrame).chain = [] := rfl

@[simp] theorem ChainFrame.map_default : (default : ChainFrame).map = fun _ => none := rfl

/-- Frames numbered in the order they were made. -/
abbrev Forest := List ChainFrame

namespace Forest

def frame (F : Forest) (i : Nat) : ChainFrame := F.getD i default

def bound (F : Forest) (i : Nat) (name : String) : Option Binding := (F.frame i).map name

def rebind (F : Forest) (i : Nat) (name : String) (b : Option Binding) : Forest :=
  F.modify i fun fr => { fr with map := Function.update fr.map name b }

def newEnv (F : Forest) (parent : Option Nat) : Forest × Nat :=
  (F ++ [⟨F.length :: (parent.map fun p => (F.frame p).chain).getD [], fun _ => none⟩],
    F.length)

def declare (F : Forest) (i : Nat) (name : String) (v : Value) (mutable : Bool) :
    Except Error Forest :=
  match F.bound i name with
  | some _ => .error { fault := .alreadyDeclared name }
  | none => .ok (F.rebind i name (some ⟨v, mutable⟩))

def owner? (F : Forest) (i : Nat) (name : String) : Option (Nat × Binding) :=
  (F.frame i).chain.findSome? fun j => (F.bound j name).map (j, ·)

def lookup (F : Forest) (i : Nat) (name : String) : Except Error Value :=
  match F.owner? i name with
  | some (_, b) => .ok b.value
  | none => .error { fault := .notDefined name }

def assign (F : Forest) (i : Nat) (name : String) (v : Value) : Except Error Forest :=
  match F.owner? i name with
  | some (j, b) =>
    if b.mutable then .ok (F.rebind j name (some { b with value := v }))
    else .error { fault := .assignToConstant name }
  | none => .error { fault := .notDefined name }

def remove (F : Forest) (i : Nat) (name : String) : Forest := F.rebind i name none

def has (F : Forest) (i : Nat) (name : String) : Bool := (F.owner? i name).isSome

end Forest

/-! ### Sequences of scope operations -/

/-- The scope operations of a state. -/
structure Scopes (σ : Type) where
  newEnv : σ → Option Nat → σ × Nat
  declare : σ → Nat → String → Value → Bool → Except Error σ
  assign : σ → Nat → String → Value → Except Error σ
  lookup : σ → Nat → String → Except Error Value
  remove : σ → Nat → String → σ
  has : σ → Nat → String → Bool

/-- One scope operation, on the scope starting at frame `env`. -/
inductive ScopeOp
  | newEnv (parent : Option Nat)
  | declare (env : Nat) (name : String) (value : Value) (mutable : Bool)
  | assign (env : Nat) (name : String) (value : Value)
  | lookup (env : Nat) (name : String)
  | remove (env : Nat) (name : String)
  | has (env : Nat) (name : String)

/-- What a scope operation answers: the new frame, a value, a failure, nothing, or a truth. -/
inductive ScopeAnswer
  | env (frame : Nat)
  | value (v : Value)
  | failed (e : Error)
  | done
  | bool (b : Bool)

namespace Scopes

variable {σ τ : Type}

def step (S : Scopes σ) (s : σ) : ScopeOp → ScopeAnswer × σ
  | .newEnv p => ((.env (S.newEnv s p).2), (S.newEnv s p).1)
  | .declare i n v m =>
    match S.declare s i n v m with
    | .ok s' => (.value v, s')
    | .error e => (.failed e, s)
  | .assign i n v =>
    match S.assign s i n v with
    | .ok s' => (.value v, s')
    | .error e => (.failed e, s)
  | .lookup i n =>
    match S.lookup s i n with
    | .ok v => (.value v, s)
    | .error e => (.failed e, s)
  | .remove i n => (.done, S.remove s i n)
  | .has i n => (.bool (S.has s i n), s)

def run (S : Scopes σ) (s : σ) : List ScopeOp → List ScopeAnswer × σ
  | [] => ([], s)
  | op :: ops =>
    let r := S.step s op
    let rs := S.run r.2 ops
    (r.1 :: rs.1, rs.2)

/-- `view` carries every operation of `S` to the same operation of `T`. -/
structure Refines (S : Scopes σ) (T : Scopes τ) (view : σ → τ) : Prop where
  newEnv : ∀ s p, Prod.map view id (S.newEnv s p) = T.newEnv (view s) p
  declare : ∀ s i n v m, (S.declare s i n v m).map view = T.declare (view s) i n v m
  assign : ∀ s i n v, (S.assign s i n v).map view = T.assign (view s) i n v
  lookup : ∀ s i n, S.lookup s i n = T.lookup (view s) i n
  remove : ∀ s i n, view (S.remove s i n) = T.remove (view s) i n
  has : ∀ s i n, S.has s i n = T.has (view s) i n

variable {S : Scopes σ} {T : Scopes τ} {view : σ → τ}

theorem Refines.step (h : S.Refines T view) (s : σ) (op : ScopeOp) :
    Prod.map id view (S.step s op) = T.step (view s) op := by
  cases op with
  | newEnv p =>
    have hn := h.newEnv s p
    simp only [Prod.map, id] at hn
    simp [Scopes.step, ← hn]
  | declare i n v m =>
    rw [Scopes.step, Scopes.step, ← h.declare]
    cases S.declare s i n v m <;> rfl
  | assign i n v =>
    rw [Scopes.step, Scopes.step, ← h.assign]
    cases S.assign s i n v <;> rfl
  | lookup i n =>
    rw [Scopes.step, Scopes.step, ← h.lookup]
    cases S.lookup s i n <;> rfl
  | remove i n => simp [Scopes.step, h.remove]
  | has i n => simp [Scopes.step, h.has]

/-- A refinement of every operation is one of every run: the same answers, and the view of the
state reached is the state reached. -/
theorem Refines.run (h : S.Refines T view) (s : σ) (ops : List ScopeOp) :
    Prod.map id view (S.run s ops) = T.run (view s) ops := by
  induction ops generalizing s with
  | nil => rfl
  | cons op ops ih =>
    have hs := h.step s op
    rw [Scopes.run, Scopes.run, ← hs, Prod.map_snd, ← ih]
    rfl

end Scopes

/-! ### The store's frames read as a forest -/

namespace Frame

theorem binds_eq_isSome_value? (f : Frame) (name : String) :
    f.binds name = (f.value? name).isSome := by
  simp only [binds, value?, Option.isSome_map]
  rw [Bool.eq_iff_iff, List.any_eq_true, List.find?_isSome]

theorem binds_eq_isSome_find? (f : Frame) (name : String) :
    f.binds name = (f.find? name).isSome := by
  rw [binds_eq_isSome_value?, find?, Option.isSome_map]

@[simp] theorem find?_default (name : String) : (default : Frame).find? name = none := rfl

@[simp] theorem parent_empty (parent : Option Nat) : (empty parent).parent = parent := rfl

@[simp] theorem find?_empty (parent : Option Nat) : (empty parent).find? = fun _ => none := rfl

@[simp] theorem parent_copy (f : Frame) (parent : Option Nat) : (f.copy parent).parent = parent :=
  rfl

theorem ne_of_not_binds {f : Frame} {name : String} (h : f.binds name = false) :
    ∀ e ∈ f.values, e.1 ≠ name := by
  intro e he hn
  rw [binds, List.any_eq_false] at h
  exact h e he (by simp [hn])

theorem not_constant_of_not_binds {f : Frame} {name : String} (h : f.binds name = false) :
    name ∉ f.constants := by
  intro hc
  obtain ⟨e, he, rfl⟩ := List.mem_map.mp (f.constants_bound name hc)
  exact ne_of_not_binds h e he rfl

theorem mutable_of_find? {f : Frame} {name : String} {b : Binding} (h : f.find? name = some b) :
    b.mutable = !f.constants.contains name := by
  obtain ⟨v, -, rfl⟩ := Option.map_eq_some_iff.mp h
  rfl

theorem value?_of_find? {f : Frame} {name : String} {b : Binding} (h : f.find? name = some b) :
    f.value? name = some b.value := by
  obtain ⟨v, hv, rfl⟩ := Option.map_eq_some_iff.mp h
  exact hv

theorem mem_constants_iff (f : Frame) (name : String) :
    name ∈ f.constants ↔ (f.find? name).map Binding.mutable = some false := by
  constructor
  · intro hc
    have hb : f.binds name = true := by
      obtain ⟨e, he, rfl⟩ := List.mem_map.mp (f.constants_bound name hc)
      exact List.any_eq_true.mpr ⟨e, he, by simp⟩
    obtain ⟨v, hv⟩ := Option.isSome_iff_exists.mp ((binds_eq_isSome_value? f name).symm.trans hb)
    simp [find?, hv, hc]
  · intro h
    obtain ⟨b, hb, hm⟩ := Option.map_eq_some_iff.mp h
    obtain ⟨v, -, rfl⟩ := Option.map_eq_some_iff.mp hb
    simpa using hm

theorem value?_append_of_not_binds {f : Frame} {name : String} (h : f.binds name = false)
    (v : Value) (n : String) :
    ((f.values ++ [(name, v)]).find? (fun e => e.1 == n)).map (·.2) =
      if n = name then some v else f.value? n := by
  rw [binds_eq_isSome_value?, Option.isSome_eq_false_iff, Option.isNone_iff_eq_none] at h
  by_cases hn : n = name
  · subst hn
    simp only [value?, Option.map_eq_none_iff] at h
    simp [List.find?_append, h]
  · simp [value?, List.find?_append, Ne.symm hn, hn]

theorem find?_declare {f : Frame} {name : String} (h : f.binds name = false) (v : Value)
    (mutable : Bool) :
    (f.declare name v mutable).find? = Function.update f.find? name (some ⟨v, mutable⟩) := by
  funext n
  have hc := not_constant_of_not_binds h
  simp only [find?, value?, declare]
  rw [value?_append_of_not_binds h v n]
  by_cases hn : n = name
  · subst hn
    cases mutable <;> simp [hc]
  · cases mutable <;> simp [hn, find?, value?]

theorem find?_update {f : Frame} {name : String} {b : Binding} (h : f.find? name = some b)
    (v : Value) :
    (f.update name v).find? = Function.update f.find? name (some { b with value := v }) := by
  funext n
  simp only [find?, value?, update, List.find?_map, Option.map_map]
  have hkey : ((fun e : String × Value => e.1 == n) ∘
      fun e => if e.1 == name then (e.1, v) else e) = fun e => e.1 == n := by
    funext e
    simp only [Function.comp]
    split <;> rfl
  rw [hkey]
  by_cases hn : n = name
  · subst hn
    simp only [Function.update_self]
    simp only [find?, value?, Option.map_map] at h
    obtain ⟨e, he, rfl⟩ := Option.map_eq_some_iff.mp h
    have hk : e.1 = n := by simpa using List.find?_some he
    simp [he, hk]
  · rw [Function.update_of_ne hn]
    cases he : List.find? (fun e => e.1 == n) f.values with
    | none => simp [find?, value?, he]
    | some e =>
      have hk : e.1 = n := by simpa using List.find?_some he
      have hne : e.1 ≠ name := by rw [hk]; exact hn
      simp [find?, value?, he, hne]

theorem find?_erase (f : Frame) (name : String) :
    (f.erase name).find? = Function.update f.find? name none := by
  funext n
  by_cases hn : n = name
  · subst hn
    simp [find?, value?, erase, List.find?_filter]
  · have hv : (f.erase name).value? n = f.value? n := by
      simp only [value?, erase, List.find?_filter]
      congr 2
      funext e
      by_cases he : e.1 = n <;> simp_all
    have hc : n ∈ (f.erase name).constants ↔ n ∈ f.constants := by
      simp [erase, List.mem_filter, hn]
    simp [find?, Function.update_of_ne hn, hv, hc]

@[simp] theorem find?_copy (f : Frame) (parent : Option Nat) : (f.copy parent).find? = f.find? := by
  funext n
  have hv' : (f.copy parent).value? = f.value? := rfl
  cases hv : f.value? n with
  | none => simp [find?, hv', hv]
  | some v =>
    have hn : n ∈ f.values.map Prod.fst := by
      have hb : f.binds n = true := by rw [binds_eq_isSome_value?, hv]; rfl
      obtain ⟨e, he, hk⟩ := List.any_eq_true.mp hb
      exact List.mem_map.mpr ⟨e, he, by simpa using hk⟩
    have hc : n ∈ (f.copy parent).constants ↔ n ∈ f.constants := by
      simp [copy, List.mem_filter, hn]
    simp [find?, hv', hv, hc]

end Frame

namespace Store

/-- The frames a scope starting at frame `i` reads, nearest first: `i`, then the chain of its
parent while the parent is older. -/
def chain (s : Store) (i : Nat) : List Nat :=
  i :: match (s.frame i).parent with
    | some p => if p < i then s.chain p else []
    | none => []
termination_by i

/-- The store's frames as a forest: each frame's chain and its bindings as a map. -/
def toForest (s : Store) : Forest :=
  (List.range s.frames.size).map fun i => ⟨s.chain i, (s.frame i).find?⟩

theorem frame_of_size_le {s : Store} {i : Nat} (h : s.frames.size ≤ i) : s.frame i = default := by
  simp [frame, Array.getD_eq_getD_getElem?, h]

@[simp] theorem length_toForest (s : Store) : s.toForest.length = s.frames.size := by
  simp [toForest]

theorem toForest_frame (s : Store) (i : Nat) :
    s.toForest.frame i = if i < s.frames.size then ⟨s.chain i, (s.frame i).find?⟩ else default := by
  by_cases h : i < s.frames.size
  · simp [Forest.frame, toForest, h]
  · simp [Forest.frame, toForest, h]

@[simp] theorem toForest_bound (s : Store) (j : Nat) (name : String) :
    s.toForest.bound j name = (s.frame j).find? name := by
  rw [Forest.bound, toForest_frame]
  split
  · rfl
  · next h => rw [frame_of_size_le (Nat.le_of_not_lt h)]; rfl

theorem chain_congr {s s' : Store} (h : ∀ j, (s'.frame j).parent = (s.frame j).parent) :
    s'.chain = s.chain := by
  funext i
  induction i using Nat.strong_induction_on with
  | _ i ih =>
    rw [chain, chain, h i]
    cases (s.frame i).parent with
    | none => rfl
    | some p =>
      by_cases hpi : p < i
      · simp [hpi, ih p hpi]
      · simp [hpi]

theorem resolve_eq_find? (s : Store) (name : String) (i : Nat) :
    s.resolve name i = (s.chain i).find? fun j => (s.frame j).binds name := by
  induction i using Nat.strong_induction_on with
  | _ i ih =>
    rw [resolve, chain, List.find?_cons]
    by_cases hb : (s.frame i).binds name
    · simp [hb]
    · simp only [hb, if_false, Bool.false_eq_true]
      cases hp : (s.frame i).parent with
      | none => rfl
      | some p =>
        by_cases hpi : p < i
        · simp [hpi, ih p hpi]
        · simp [hpi]

theorem find?_resolve {s : Store} {name : String} {i j : Nat} (h : s.resolve name i = some j) :
    ∃ b, (s.frame j).find? name = some b := by
  rw [resolve_eq_find?] at h
  have hb := List.find?_some h
  rw [Frame.binds_eq_isSome_find?, Option.isSome_iff_exists] at hb
  exact hb

theorem lookup_of_resolve {s : Store} {i j : Nat} {name : String} {b : Binding}
    (hr : s.resolve name i = some j) (hb : (s.frame j).find? name = some b) :
    s.lookup i name = .ok b.value := by
  rw [lookup, hr]
  dsimp only
  rw [Frame.value?_of_find? hb]

theorem assign_of_resolve {s : Store} {i j : Nat} {name : String} {b : Binding}
    (hr : s.resolve name i = some j) (hb : (s.frame j).find? name = some b) (v : Value) :
    s.assign i name v = if b.mutable then .ok { s with frames := s.frames.modify j (·.update name v) }
      else .error { fault := .assignToConstant name } := by
  rw [assign, hr, Frame.mutable_of_find? hb]
  dsimp only
  cases (s.frame j).constants.contains name <;> rfl

private theorem findSome?_pair {l : List Nat} {g : Nat → Option Binding} :
    l.findSome? (fun j => (g j).map (j, ·)) =
      (l.find? fun j => (g j).isSome).bind fun j => (g j).map (j, ·) := by
  induction l with
  | nil => rfl
  | cons j l ih =>
    cases hg : g j with
    | none => simp [hg, ih]
    | some b => simp [hg]

theorem toForest_owner? (s : Store) (i : Nat) (name : String) :
    s.toForest.owner? i name =
      (s.resolve name i).bind fun j => ((s.frame j).find? name).map (j, ·) := by
  by_cases hi : i < s.frames.size
  · simp only [Forest.owner?, toForest_frame, hi, if_true, toForest_bound, findSome?_pair,
      resolve_eq_find?, Frame.binds_eq_isSome_find?]
  · have hr : s.resolve name i = none := by
      rw [resolve, frame_of_size_le (Nat.le_of_not_lt hi)]
      rfl
    simp only [Forest.owner?, toForest_frame, hi, if_false, hr]
    rfl

theorem frame_modify (s : Store) (i : Nat) (g : Frame → Frame) (j : Nat) :
    ({ s with frames := s.frames.modify i g } : Store).frame j =
      if i = j then (if j < s.frames.size then g (s.frame j) else s.frame j) else s.frame j := by
  simp only [frame, Array.getD_eq_getD_getElem?, Array.getElem?_modify]
  by_cases hij : i = j
  · subst hij
    by_cases hj : i < s.frames.size <;> simp [hj]
  · simp [hij]

theorem toForest_modify (s : Store) (i : Nat) (g : Frame → Frame) (name : String)
    (b : Option Binding) (hp : (g (s.frame i)).parent = (s.frame i).parent)
    (hf : (g (s.frame i)).find? = Function.update (s.frame i).find? name b) :
    ({ s with frames := s.frames.modify i g } : Store).toForest = s.toForest.rebind i name b := by
  have hchain : ({ s with frames := s.frames.modify i g } : Store).chain = s.chain := by
    apply chain_congr
    intro j
    rw [frame_modify]
    by_cases hij : i = j
    · subst hij
      by_cases hi : i < s.frames.size <;> simp [hi, hp]
    · simp [hij]
  apply List.ext_getElem
  · simp [Forest.rebind]
  · intro j h₁ h₂
    have hj : j < s.frames.size := by simpa [Forest.rebind] using h₂
    simp only [toForest, Forest.rebind, List.getElem_modify, List.getElem_map, List.getElem_range,
      hchain, frame_modify, Array.size_modify]
    by_cases hij : i = j
    · subst hij
      simp [hj, hf]
    · simp [hij]

theorem toForest_declare (s : Store) (i : Nat) (name : String) (v : Value) (mutable : Bool) :
    (s.declare i name v mutable).map toForest = s.toForest.declare i name v mutable := by
  rw [declare, Forest.declare, toForest_bound]
  cases hb : (s.frame i).binds name with
  | true =>
    rw [Frame.binds_eq_isSome_find?, Option.isSome_iff_exists] at hb
    obtain ⟨b, hb⟩ := hb
    rw [if_pos rfl, hb]
    rfl
  | false =>
    have hn : (s.frame i).find? name = none := by
      rwa [Frame.binds_eq_isSome_find?, Option.isSome_eq_false_iff, Option.isNone_iff_eq_none] at hb
    simp only [Bool.false_eq_true, if_false, hn, Except.map]
    rw [toForest_modify s i _ name _ rfl (Frame.find?_declare hb v mutable)]

theorem toForest_assign (s : Store) (i : Nat) (name : String) (v : Value) :
    (s.assign i name v).map toForest = s.toForest.assign i name v := by
  rw [Forest.assign, toForest_owner?]
  cases hr : s.resolve name i with
  | none => rw [assign, hr]; rfl
  | some j =>
    obtain ⟨b, hb⟩ := find?_resolve hr
    rw [assign_of_resolve hr hb, Option.bind_some, hb]
    dsimp only [Option.map_some]
    split
    · rw [Except.map, toForest_modify s j _ name _ rfl (Frame.find?_update hb v)]
    · rfl

theorem toForest_lookup (s : Store) (i : Nat) (name : String) :
    s.lookup i name = s.toForest.lookup i name := by
  rw [Forest.lookup, toForest_owner?]
  cases hr : s.resolve name i with
  | none => rw [lookup, hr]; rfl
  | some j =>
    obtain ⟨b, hb⟩ := find?_resolve hr
    rw [lookup_of_resolve hr hb, Option.bind_some, hb]
    rfl

theorem toForest_remove (s : Store) (i : Nat) (name : String) :
    (s.remove i name).toForest = s.toForest.remove i name :=
  toForest_modify s i _ name none rfl (Frame.find?_erase _ name)

theorem toForest_has (s : Store) (i : Nat) (name : String) :
    s.has i name = s.toForest.has i name := by
  rw [has, Forest.has, toForest_owner?]
  cases hr : s.resolve name i with
  | none => rfl
  | some j =>
    obtain ⟨b, hb⟩ := find?_resolve hr
    simp [hb]

theorem chain_of_frames_below {s s' : Store} {i : Nat}
    (h : ∀ j ≤ i, s'.frame j = s.frame j) : s'.chain i = s.chain i := by
  induction i using Nat.strong_induction_on with
  | _ i ih =>
    rw [chain, chain, h i le_rfl]
    cases (s.frame i).parent with
    | none => rfl
    | some p =>
      by_cases hpi : p < i
      · simp only [hpi, if_true, ih p hpi fun j hj => h j (by omega)]
      · simp [hpi]

theorem toForest_newFrame (s : Store) (parent : Option Nat) :
    Prod.map toForest id (s.newFrame parent) = s.toForest.newEnv parent := by
  have hbelow : ∀ j < s.frames.size, (s.newFrame parent).1.frame j = s.frame j := by
    intro j hj
    simp [newFrame, frame, Array.getD_eq_getD_getElem?, Array.getElem?_push, Nat.ne_of_lt hj]
  have hnew : (s.newFrame parent).1.frame s.frames.size = .empty parent := by
    simp [newFrame, frame, Array.getD_eq_getD_getElem?]
  have hchain : ∀ j < s.frames.size, (s.newFrame parent).1.chain j = s.chain j :=
    fun j hj => chain_of_frames_below fun k hk => hbelow k (by omega)
  -- the new frame's chain is its parent's chain, as the forest reads it, behind itself
  have hlast : (s.newFrame parent).1.chain s.frames.size =
      s.frames.size :: (parent.map fun p => (s.toForest.frame p).chain).getD [] := by
    rw [chain, hnew]
    cases parent with
    | none => rfl
    | some p =>
      by_cases hp : p < s.frames.size
      · simp [hp, hchain p hp, toForest_frame]
      · simp [hp, toForest_frame]
  have hsize : (s.newFrame parent).1.frames.size = s.frames.size + 1 := by simp [newFrame]
  have hforest : (s.newFrame parent).1.toForest =
      s.toForest ++ [⟨(s.newFrame parent).1.chain s.frames.size, fun _ => none⟩] := by
    simp only [toForest, hsize, List.range_succ, List.map_append, List.map_cons, List.map_nil, hnew]
    congr 1
    apply List.map_congr_left
    intro j hj
    have hj : j < s.frames.size := List.mem_range.mp hj
    rw [hchain j hj, hbelow j hj]
  refine Prod.ext ?_ (by simp [newFrame, Forest.newEnv])
  simp only [Prod.map, id, Forest.newEnv, hforest, hlast, length_toForest]

def scopes : Scopes Store where
  newEnv := newFrame
  declare := declare
  assign := assign
  lookup := lookup
  remove := remove
  has := has

end Store

def Forest.scopes : Scopes Forest where
  newEnv := Forest.newEnv
  declare := Forest.declare
  assign := Forest.assign
  lookup := Forest.lookup
  remove := Forest.remove
  has := Forest.has

namespace Store

theorem scopes_refines : scopes.Refines Forest.scopes toForest where
  newEnv := toForest_newFrame
  declare := toForest_declare
  assign := toForest_assign
  lookup := toForest_lookup
  remove := toForest_remove
  has := toForest_has

theorem mem_constants_iff_toForest (s : Store) (i : Nat) (name : String) :
    name ∈ (s.frame i).constants ↔ (s.toForest.bound i name).map Binding.mutable = some false := by
  rw [toForest_bound]
  exact Frame.mem_constants_iff _ name

/-- The store's scopes refine the forest: for every sequence of scope operations on any frames
of any store, the store answers as the forest does, and the forest the store ends in is the
one the forest ends in. The constants that each frame keeps apart from its values stay in step
with them: after the run they are exactly the names the forest binds there as constant. -/
theorem scopes_refine_forest (s : Store) (ops : List ScopeOp) :
    Prod.map id toForest (scopes.run s ops) = Forest.scopes.run s.toForest ops ∧
      ∀ i name, name ∈ ((scopes.run s ops).2.frame i).constants ↔
        ((Forest.scopes.run s.toForest ops).2.bound i name).map Binding.mutable = some false := by
  have hrun := scopes_refines.run s ops
  have hstate : (scopes.run s ops).2.toForest = (Forest.scopes.run s.toForest ops).2 := by
    rw [← hrun]
    rfl
  refine ⟨hrun, fun i name => ?_⟩
  rw [← hstate]
  exact mem_constants_iff_toForest _ i name

end Store

end Treewalk
