import Treewalk.Store
import Treewalk.Error
/-!
# Scopes

A scope is a chain of frames: a frame, its parent, the parent's parent, and so on. A name is
declared in the first frame of a scope only, and only once there; it is looked up and assigned
in the nearest frame of the chain that binds it, and that frame's set of constants decides
whether an assignment is refused. Removing a name deletes it and its constancy from the first
frame only. A snapshot copies every frame of the chain into fresh frames, the values and the
constants among the names bound, so that later changes to either chain's bindings are
invisible to the other, while the values (and the arrays and objects they refer to) stay
shared.

A frame's parent is always an older frame, one with a smaller index; the walks up a chain rely
on that and stop where it fails.
-/
namespace Treewalk

namespace Frame

def value? (f : Frame) (name : String) : Option Value :=
  (f.values.find? (fun e => e.1 == name)).map (·.2)

/-- The binding of `name` in this frame: its value, mutable unless the name is a constant. -/
def find? (f : Frame) (name : String) : Option Binding :=
  (f.value? name).map fun v => ⟨v, !f.constants.contains name⟩

def binds (f : Frame) (name : String) : Bool :=
  f.values.any (fun e => e.1 == name)

def empty (parent : Option Nat) : Frame := ⟨parent, [], [], nil_bound⟩

/-- Binds `name` to `v`, as a constant unless `mutable`. -/
def declare (f : Frame) (name : String) (v : Value) (mutable : Bool) : Frame where
  parent := f.parent
  values := f.values ++ [(name, v)]
  constants := if mutable then f.constants else f.constants.insert name
  constants_bound n hn := by
    rw [List.map_append, List.mem_append]
    split at hn
    · exact .inl (f.constants_bound n hn)
    · rcases List.mem_insert_iff.mp hn with rfl | hn
      · exact .inr (by simp)
      · exact .inl (f.constants_bound n hn)

def update (f : Frame) (name : String) (v : Value) : Frame where
  parent := f.parent
  values := f.values.map fun e => if e.1 == name then (e.1, v) else e
  constants := f.constants
  constants_bound n hn := by
    have hkeys : (f.values.map fun e => if e.1 == name then (e.1, v) else e).map Prod.fst =
        f.values.map Prod.fst := by
      simp only [List.map_map]
      exact List.map_congr_left fun e _ => by simp only [Function.comp]; split <;> rfl
    rw [hkeys]
    exact f.constants_bound n hn

def erase (f : Frame) (name : String) : Frame where
  parent := f.parent
  values := f.values.filter (fun e => e.1 != name)
  constants := f.constants.filter (· != name)
  constants_bound n hn := by
    obtain ⟨hn, hne⟩ := List.mem_filter.mp hn
    obtain ⟨e, he, rfl⟩ := List.mem_map.mp (f.constants_bound n hn)
    exact List.mem_map.mpr ⟨e, List.mem_filter.mpr ⟨he, hne⟩, rfl⟩

/-- A copy of the frame under `parent`: its values, and of its constants those it binds. -/
def copy (f : Frame) (parent : Option Nat) : Frame where
  parent := parent
  values := f.values
  constants := (f.values.map Prod.fst).filter f.constants.contains
  constants_bound _ hn := (List.mem_filter.mp hn).1

end Frame

namespace Store

def frame (s : Store) (i : Nat) : Frame := s.frames.getD i default

def newFrame (s : Store) (parent : Option Nat) : Store × Nat :=
  ({ s with frames := s.frames.push (.empty parent) }, s.frames.size)

/-- The nearest frame of the chain starting at `i` that binds `name`. -/
def resolve (s : Store) (name : String) (i : Nat) : Option Nat :=
  let f := s.frame i
  if f.binds name then some i
  else
    match f.parent with
    | some p => if p < i then s.resolve name p else none
    | none => none
termination_by i

/-- Binds `name` in frame `i`; fails when frame `i` already binds it. -/
def declare (s : Store) (i : Nat) (name : String) (v : Value) (mutable : Bool) :
    Except Error Store :=
  if (s.frame i).binds name then .error { fault := .alreadyDeclared name }
  else .ok { s with frames := s.frames.modify i (·.declare name v mutable) }

def lookup (s : Store) (i : Nat) (name : String) : Except Error Value :=
  match s.resolve name i with
  | some j =>
    match (s.frame j).value? name with
    | some v => .ok v
    | none => .error { fault := .notDefined name }
  | none => .error { fault := .notDefined name }

def assign (s : Store) (i : Nat) (name : String) (v : Value) : Except Error Store :=
  match s.resolve name i with
  | some j =>
    if (s.frame j).constants.contains name then .error { fault := .assignToConstant name }
    else .ok { s with frames := s.frames.modify j (·.update name v) }
  | none => .error { fault := .notDefined name }

def remove (s : Store) (i : Nat) (name : String) : Store :=
  { s with frames := s.frames.modify i (·.erase name) }

def has (s : Store) (i : Nat) (name : String) : Bool :=
  (s.resolve name i).isSome

/-- Copies the chain starting at frame `i` into fresh frames, parents first; answers the copy
of frame `i`. -/
def snapshot (s : Store) (i : Nat) : Store × Nat :=
  let f := s.frame i
  let (s', parent) : Store × Option Nat :=
    match f.parent with
    | some p =>
      if p < i then
        let (s1, p1) := s.snapshot p
        (s1, some p1)
      else (s, none)
    | none => (s, none)
  ({ s' with frames := s'.frames.push (f.copy parent) }, s'.frames.size)
termination_by i

end Store

end Treewalk
