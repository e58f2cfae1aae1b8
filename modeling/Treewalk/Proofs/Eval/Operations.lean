import Treewalk.Eval.Machine
/-!
# What each store operation can do

A run reaches the store through five operations that can fail: declaring, looking up and
assigning a name, and reading and writing a member. Each is described here once, by what a
success leaves and by the error a failure gives, and the invariants of later modules follow
from these descriptions without opening the operations again.

Every failure says what it checked. The scope operations name the name and carry no position
(the statement or expression that ran them supplies it); the member operations are type
mismatches placed at the member. A snapshot, which cannot fail, only adds frames.
-/
namespace Treewalk

namespace Store

variable {s s' : Store} {i : Nat} {name : String} {v : Value} {e : Error}

/-! ### Names -/

/-- A declaration succeeds on a name its frame does not bind, and appends the binding there. -/
theorem declare_ok {mutable : Bool} (h : s.declare i name v mutable = .ok s') :
    (s.frame i).binds name = false ∧
      s' = { s with frames := s.frames.modify i (·.declare name v mutable) } := by
  unfold declare at h
  split at h
  · cases h
  · next hb =>
    cases h
    exact ⟨by simpa using hb, rfl⟩

theorem declare_error {mutable : Bool} (h : s.declare i name v mutable = .error e) :
    e = { fault := .alreadyDeclared name } := by
  unfold declare at h
  split at h
  · cases h
    rfl
  · cases h

theorem lookup_error (h : s.lookup i name = .error e) : e = { fault := .notDefined name } := by
  unfold lookup at h
  repeat' split at h
  all_goals (cases h <;> rfl)

/-- An assignment succeeds on a name that the nearest frame of the chain binding it does not
hold as a constant, and replaces the value there and nothing else. -/
theorem assign_ok (h : s.assign i name v = .ok s') :
    ∃ j, s.resolve name i = some j ∧ (s.frame j).constants.contains name = false ∧
      s' = { s with frames := s.frames.modify j (·.update name v) } := by
  unfold assign at h
  cases hr : s.resolve name i with
  | none =>
    rw [hr] at h
    cases h
  | some j =>
    rw [hr] at h
    dsimp only at h
    split at h
    · cases h
    · next hc =>
      cases h
      exact ⟨j, rfl, by simpa using hc, rfl⟩

/-- An assignment fails on a name that no frame of the chain binds or that is bound constant,
and the error names it. -/
theorem assign_error (h : s.assign i name v = .error e) :
    e = { fault := .notDefined name } ∨ e = { fault := .assignToConstant name } := by
  unfold assign at h
  repeat' split at h
  all_goals cases h
  · exact .inr rfl
  · exact .inl rfl

/-! ### Members -/

variable {c key : Value} {p : Pos}

theorem storeMember_ok (h : s.storeMember c key v p = .ok s') :
    (∃ r k, c = .object r ∧ key.propertyName? = some k ∧ s' = s.setProp r k v) ∨
      ∃ (r : Nat) (n : Int), c = .array r ∧ key.wholeNumber? = some n ∧ 0 ≤ n ∧
        n < (s.elems r).size ∧ s' = s.setElem r n.toNat v := by
  unfold storeMember at h
  cases c with
  | object r =>
    dsimp only at h
    cases hk : key.propertyName? with
    | none =>
      rw [hk] at h
      cases h
    | some k =>
      rw [hk] at h
      cases h
      exact .inl ⟨r, k, rfl, rfl, rfl⟩
  | array r =>
    dsimp only at h
    cases hn : key.wholeNumber? with
    | none =>
      rw [hn] at h
      cases h
    | some n =>
      rw [hn] at h
      dsimp only at h
      split at h
      · next hin =>
        cases h
        exact .inr ⟨r, n, rfl, rfl, hin.1, hin.2, rfl⟩
      · cases h
  | _ => cases h

theorem storeMember_error (h : s.storeMember c key v p = .error e) :
    e.kind = .typeMismatch ∧ e.pos = some p := by
  unfold storeMember at h
  dsimp only at h
  repeat' split at h
  all_goals (cases h <;> exact ⟨rfl, rfl⟩)

theorem loadMember_error (h : s.loadMember c key p = .error e) :
    e.kind = .typeMismatch ∧ e.pos = some p := by
  unfold loadMember at h
  dsimp only at h
  repeat' split at h
  all_goals (cases h <;> exact ⟨rfl, rfl⟩)

/-! ### Copies -/

/-- A snapshot adds the copies of the chain after every frame there was, and changes nothing
else. -/
theorem snapshot_extends (s : Store) (i : Nat) :
    ∃ fs : Array Frame, (s.snapshot i).1 = { s with frames := s.frames ++ fs } := by
  induction i using Nat.strongRecOn with
  | ind i ih =>
    rw [snapshot]
    cases hp : (s.frame i).parent with
    | none => exact ⟨#[(s.frame i).copy none], by simp⟩
    | some p =>
      by_cases hpi : p < i
      · simp only [hpi, if_true]
        obtain ⟨fs, hfs⟩ := ih p hpi
        refine ⟨fs.push ((s.frame i).copy (some (s.snapshot p).2)), ?_⟩
        rw [hfs, Array.append_push]
      · simp only [hpi, if_false]
        exact ⟨#[(s.frame i).copy none], by simp⟩

end Store

end Treewalk
