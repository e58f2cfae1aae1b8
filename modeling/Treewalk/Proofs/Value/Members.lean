import Mathlib
import Treewalk.Proofs.Eval.ForLoop
import Treewalk.Proofs.Value.Number
/-!
# Member writes and reads

A member key selects a slot of its container: an object's key selects the property its text
names (a number names the property of its printed text), and an array's key selects the element
at the whole number it stands for, when that is inside the array. A write succeeds exactly when
its key selects a slot, and then every read through a key of the same slot gives the value
written, while reads through every other key give what they gave before. A write that fails is
a type mismatch and changes nothing.

Keys that are equal as doubles select the same element of an array, `-0` included, since both
zeros stand for the whole number 0. They select the same property of an object only when they
are the same double: `0` and `-0` are equal, yet print as `0` and `-0`, so they name two
properties.
-/
namespace Treewalk

namespace Props

theorem get?_cons (k' : String) (w : Value) (ps : Props) (k : String) :
    get? ((k', w) :: ps) k = if k' = k then some w else get? ps k := by
  by_cases h : k' = k <;> simp [get?, h]

theorem get?_set_self (ps : Props) (k : String) (v : Value) : (ps.set k v).get? k = some v := by
  induction ps with
  | nil => simp [set, get?]
  | cons e ps ih =>
    obtain ⟨k', w⟩ := e
    rw [set]
    split_ifs with heq hlt
    · simp [get?_cons]
    · simp [get?_cons]
    · rw [get?_cons, if_neg (Ne.symm heq), ih]

theorem get?_set_other (ps : Props) {k k' : String} (v : Value) (h : k ≠ k') :
    (ps.set k v).get? k' = ps.get? k' := by
  induction ps with
  | nil => simp [set, h, get?]
  | cons e ps ih =>
    obtain ⟨k'', w⟩ := e
    rw [set]
    split_ifs with heq hlt
    · subst heq
      simp [get?_cons, h]
    · simp [get?_cons, h]
    · rw [get?_cons, get?_cons, ih]

end Props

/-- A place that a member key selects: a property of an object, or an element of an array. -/
inductive Slot
  | prop (ref : Nat) (name : String)
  | elem (ref : Nat) (index : Nat)
deriving DecidableEq

namespace Store

/-- The slot that `key` selects in `container`, if a write there is allowed. -/
def slot? (s : Store) (container key : Value) : Option Slot :=
  match container with
  | .object r => key.propertyName?.map (.prop r)
  | .array r =>
    match key.wholeNumber? with
    | some i => if 0 ≤ i ∧ i < (s.elems r).size then some (.elem r i.toNat) else none
    | none => none
  | _ => none

def readSlot (s : Store) : Slot → Value
  | .prop r n => ((s.props r).get? n).getD .null
  | .elem r i => (s.elems r).getD i .null

def writeSlot (s : Store) : Slot → Value → Store
  | .prop r n, v => s.setProp r n v
  | .elem r i, v => s.setElem r i v

/-- The slot exists: a property of an allocated object, or an element inside its array. -/
def Holds (s : Store) : Slot → Prop
  | .prop r _ => r < s.objects.size
  | .elem r i => i < (s.elems r).size

variable {s : Store} {c k v : Value} {p : Pos}

theorem props_setProp (s : Store) {r : Nat} (hr : r < s.objects.size) (n : String) (v : Value)
    (r' : Nat) : (s.setProp r n v).props r' = if r' = r then (s.props r).set n v else s.props r' := by
  simp only [props, setProp, Array.getD_eq_getD_getElem?, Array.getElem?_modify]
  by_cases h : r = r'
  · subst h
    simp [hr]
  · simp [h, Ne.symm h]

theorem elems_setElem (s : Store) (r i : Nat) (v : Value) (r' : Nat) :
    (s.setElem r i v).elems r' = if r' = r then (s.elems r).setIfInBounds i v else s.elems r' := by
  simp only [elems, setElem, Array.getD_eq_getD_getElem?, Array.getElem?_modify]
  by_cases h : r = r'
  · subst h
    cases s.arrays[r]? <;> simp
  · simp [h, Ne.symm h]

theorem readSlot_writeSlot {sl : Slot} (hsl : s.Holds sl) (v : Value) (sl' : Slot) :
    (s.writeSlot sl v).readSlot sl' = if sl' = sl then v else s.readSlot sl' := by
  cases sl with
  | prop r n =>
    cases sl' with
    | prop r' n' =>
      simp only [writeSlot, readSlot, props_setProp s hsl, Slot.prop.injEq]
      by_cases hr : r' = r
      · subst hr
        by_cases hn : n' = n
        · subst hn
          simp [Props.get?_set_self]
        · simp [Props.get?_set_other _ _ (Ne.symm hn), hn]
      · simp [hr]
    | elem r' i' => rfl
  | elem r i =>
    cases sl' with
    | prop r' n' => rfl
    | elem r' i' =>
      simp only [writeSlot, readSlot, elems_setElem, Slot.elem.injEq]
      by_cases hr : r' = r
      · subst hr
        by_cases hi : i' = i
        · subst hi
          have hin : i' < (s.elems r').size := hsl
          simp [Array.getD_eq_getD_getElem?, hin]
        · simp [Array.getD_eq_getD_getElem?, Ne.symm hi, hi]
      · simp [hr]

theorem size_elems_writeSlot (sl : Slot) (v : Value) (r : Nat) :
    ((s.writeSlot sl v).elems r).size = (s.elems r).size := by
  cases sl with
  | prop r₀ n => rfl
  | elem r₀ i => exact size_elems_setElem s r₀ i v r

theorem slot?_writeSlot (sl : Slot) (v : Value) (c k : Value) :
    (s.writeSlot sl v).slot? c k = s.slot? c k := by
  cases c <;> simp only [slot?, size_elems_writeSlot]

theorem slot?_cases {sl : Slot} (h : s.slot? c k = some sl) :
    (∃ r n, c = .object r ∧ k.propertyName? = some n ∧ sl = .prop r n) ∨
      ∃ r i : Nat, c = .array r ∧ k.wholeNumber? = some (i : Int) ∧ i < (s.elems r).size ∧
        sl = .elem r i := by
  cases c with
  | object r =>
    simp only [slot?, Option.map_eq_some_iff] at h
    obtain ⟨n, hn, rfl⟩ := h
    exact .inl ⟨r, n, rfl, hn, rfl⟩
  | array r =>
    simp only [slot?] at h
    split at h
    · rename_i i hi
      split_ifs at h with hin
      cases h
      refine .inr ⟨r, i.toNat, rfl, ?_, by omega, rfl⟩
      rw [hi, Int.toNat_of_nonneg hin.1]
    · cases h
  | _ => cases h

theorem holds_of_slot? (hobj : ∀ r, c = .object r → r < s.objects.size) {sl : Slot}
    (h : s.slot? c k = some sl) : s.Holds sl := by
  rcases slot?_cases h with ⟨r, n, rfl, -, rfl⟩ | ⟨r, i, -, -, hi, rfl⟩
  · exact hobj r rfl
  · exact hi

theorem number_of_wholeNumber? {i : Int} (h : k.wholeNumber? = some i) : ∃ x, k = .number x := by
  cases k with
  | number x => exact ⟨x, rfl⟩
  | _ => cases h

theorem storeMember_of_slot {sl : Slot} (h : s.slot? c k = some sl) (v : Value) (p : Pos) :
    s.storeMember c k v p = .ok (s.writeSlot sl v) := by
  rcases slot?_cases h with ⟨r, n, rfl, hn, rfl⟩ | ⟨r, i, rfl, hi, hin, rfl⟩
  · simp [storeMember, hn, writeSlot]
  · simp [storeMember, hi, hin, writeSlot]

theorem loadMember_of_slot {sl : Slot} (h : s.slot? c k = some sl) (q : Pos) :
    s.loadMember c k q = .ok (s.readSlot sl) := by
  rcases slot?_cases h with ⟨r, n, rfl, hn, rfl⟩ | ⟨r, i, rfl, hi, hin, rfl⟩
  · simp [loadMember, hn, readSlot]
  · obtain ⟨x, rfl⟩ := number_of_wholeNumber? hi
    simp [loadMember, hi, hin, readSlot]

theorem storeMember_of_no_slot (h : s.slot? c k = none) (v : Value) (p : Pos) :
    ∃ e, s.storeMember c k v p = .error e := by
  cases c with
  | object r =>
    simp only [slot?, Option.map_eq_none_iff] at h
    simp [storeMember, h]
  | array r =>
    simp only [slot?] at h
    cases hi : k.wholeNumber? with
    | none => simp [storeMember, hi]
    | some i =>
      rw [hi] at h
      dsimp only at h
      split_ifs at h with hin
      simp only [storeMember, hi]
      rw [if_neg hin]
      exact ⟨_, rfl⟩
  | _ => exact ⟨_, rfl⟩

theorem kind_of_storeMember_error {e : Error} (h : s.storeMember c k v p = .error e) :
    e.kind = .typeMismatch :=
  (storeMember_error h).1

/-- A write succeeds exactly when its key selects a slot. -/
theorem storeMember_ok_iff : (∃ s', s.storeMember c k v p = .ok s') ↔ (s.slot? c k).isSome := by
  cases h : s.slot? c k with
  | some sl => exact ⟨fun _ => rfl, fun _ => ⟨_, storeMember_of_slot h v p⟩⟩
  | none =>
    obtain ⟨e, he⟩ := storeMember_of_no_slot h v p
    simp [he]

theorem loadMember_writeSlot_of_no_slot {k₀ : Value} {sl : Slot} (h₀ : s.slot? c k₀ = some sl)
    (h : s.slot? c k = none) (v : Value) (q : Pos) :
    (s.writeSlot sl v).loadMember c k q = s.loadMember c k q := by
  rcases slot?_cases h₀ with ⟨r, n, rfl, -, -⟩ | ⟨r, i, rfl, -, -, -⟩
  · simp only [slot?, Option.map_eq_none_iff] at h
    simp [loadMember, h]
  · simp only [slot?] at h
    cases k with
    | number x =>
      cases hj : (Value.number x).wholeNumber? with
      | none => simp [loadMember, hj]
      | some j =>
        rw [hj] at h
        dsimp only at h
        split_ifs at h with hin
        simp only [loadMember, hj, size_elems_writeSlot]
        rw [if_neg hin, if_neg hin]
    | _ => rfl

/-- After a write, a read through a key of the same slot gives the value written, and a read
through any other key gives what it gave before. -/
theorem loadMember_storeMember (hobj : ∀ r, c = .object r → r < s.objects.size) {s' : Store}
    (h : s.storeMember c k v p = .ok s') (k' : Value) (q : Pos) :
    s'.loadMember c k' q = if s.slot? c k' = s.slot? c k then .ok v else s.loadMember c k' q := by
  obtain ⟨sl, hsl⟩ : ∃ sl, s.slot? c k = some sl :=
    Option.isSome_iff_exists.mp (storeMember_ok_iff.mp ⟨s', h⟩)
  rw [storeMember_of_slot hsl v p] at h
  cases h
  rw [hsl]
  cases hk : s.slot? c k' with
  | none =>
    simp only [reduceCtorEq, if_false]
    exact loadMember_writeSlot_of_no_slot hsl hk v q
  | some sl' =>
    have hk₁ : (s.writeSlot sl v).slot? c k' = some sl' := (slot?_writeSlot sl v c k').trans hk
    rw [loadMember_of_slot hk₁, loadMember_of_slot hk, readSlot_writeSlot (holds_of_slot? hobj hsl)]
    by_cases heq : sl' = sl <;> simp [heq]

/-! ### Number keys -/

section Numbers

variable {x y : Float}

theorem zero_sign_of_format (st : Decimal.Style) {a b : Bool}
    (hx : Binary64.ofFloat x = .finite a 0 (-1074)) (hy : Binary64.ofFloat y = .finite b 0 (-1074))
    (h : st.format x = st.format y) : a = b := by
  simp only [Decimal.Style.format, hx, hy] at h
  have hlen := congrArg String.length h
  cases a <;> cases b <;> simp at hlen ⊢

theorem propertyName?_number_iff (h : (x == y) = true) :
    (Value.number x).propertyName? = (Value.number y).propertyName? ↔ x = y := by
  constructor
  · intro hname
    have hformat : Decimal.Style.language.format x = Decimal.Style.language.format y := by
      simpa [Value.propertyName?] using hname
    rcases Binary64.ofFloat_of_beq h with hxy | ⟨a, b, hx, hy⟩
    · exact Binary64.ofFloat_injective hxy
    · have hab : a = b := zero_sign_of_format _ hx hy hformat
      exact Binary64.ofFloat_injective (hx.trans (hab ▸ hy.symm))
  · rintro rfl
    rfl

theorem wholeNumber?_of_beq (h : (x == y) = true) :
    (Value.number x).wholeNumber? = (Value.number y).wholeNumber? := by
  rcases Binary64.ofFloat_of_beq h with hxy | ⟨a, b, hx, hy⟩
  · simp only [Value.wholeNumber?, hxy]
  · simp only [Value.wholeNumber?, hx, hy, Nat.zero_mul, Nat.zero_mod, Nat.zero_div, Nat.cast_zero,
      neg_zero, ite_self]

theorem slot?_array_of_beq (h : (x == y) = true) (r : Nat) :
    s.slot? (.array r) (.number x) = s.slot? (.array r) (.number y) := by
  simp only [slot?, wholeNumber?_of_beq h]

theorem slot?_object_of_beq (h : (x == y) = true) (r : Nat) :
    s.slot? (.object r) (.number x) = s.slot? (.object r) (.number y) ↔ x = y := by
  simp only [slot?]
  rw [Option.map_inj_right fun _ _ hn => Slot.prop.inj hn |>.2]
  exact propertyName?_number_iff h

end Numbers

end Store

open Store

/-- Member writes and reads agree. A write into an array or an allocated object succeeds exactly
when its key selects a slot. Afterwards a read through a key of the same slot gives the value
written, and a read through any other key gives what it gave before. A refused write is a type
mismatch and leaves the machine as it was. Numbers equal as doubles select the same element of
an array, and the same property of an object exactly when they are the same double. -/
theorem member_write_read (s : Store) (c k v : Value) (p : Pos)
    (hobj : ∀ r, c = .object r → r < s.objects.size) :
    ((∃ s', s.storeMember c k v p = .ok s') ↔ (s.slot? c k).isSome) ∧
    (∀ s', s.storeMember c k v p = .ok s' → ∀ k' q,
      s'.loadMember c k' q = if s.slot? c k' = s.slot? c k then .ok v else s.loadMember c k' q) ∧
    (∀ e, s.storeMember c k v p = .error e → e.kind = .typeMismatch ∧
      ∀ m : Machine, m.store = s →
        (Eval.update (·.storeMember c k v p)).run.run m = (.error e, m)) ∧
    (∀ r x y, (x == y) = true → s.slot? (.array r) (.number x) = s.slot? (.array r) (.number y)) ∧
    (∀ r x y, (x == y) = true →
      (s.slot? (.object r) (.number x) = s.slot? (.object r) (.number y) ↔ x = y)) := by
  refine ⟨storeMember_ok_iff, fun s' h => loadMember_storeMember hobj h,
    fun e he => ⟨kind_of_storeMember_error he, fun m hm => ?_⟩, fun r x y h => slot?_array_of_beq h r,
    fun r x y h => slot?_object_of_beq h r⟩
  subst hm
  rw [Eval.run_update]
  simp only [he]

/-- A write and reads of one property of the only object of a store. -/
theorem member_write_read_object :
    let s : Store := { objects := #[[]] }
    (∀ r, Value.object 0 = .object r → r < s.objects.size) ∧
    ((∃ s', s.storeMember (.object 0) (.str "a") .null .start = .ok s') ↔
      (s.slot? (.object 0) (.str "a")).isSome) ∧
    (∀ s', s.storeMember (.object 0) (.str "a") .null .start = .ok s' → ∀ k' q,
      s'.loadMember (.object 0) k' q = if s.slot? (.object 0) k' = s.slot? (.object 0) (.str "a")
        then .ok .null else s.loadMember (.object 0) k' q) ∧
    (∀ e, s.storeMember (.object 0) (.str "a") .null .start = .error e → e.kind = .typeMismatch ∧
      ∀ m : Machine, m.store = s →
        (Eval.update (·.storeMember (.object 0) (.str "a") .null .start)).run.run m = (.error e, m)) ∧
    (∀ r x y, (x == y) = true → s.slot? (.array r) (.number x) = s.slot? (.array r) (.number y)) ∧
    (∀ r x y, (x == y) = true →
      (s.slot? (.object r) (.number x) = s.slot? (.object r) (.number y) ↔ x = y)) := by
  intro s
  have hobj : ∀ r, Value.object 0 = .object r → r < s.objects.size := by
    rintro r ⟨⟩
    decide
  exact ⟨hobj, member_write_read s (.object 0) (.str "a") .null .start hobj⟩

/-- `0` and `-0` are equal as doubles, yet a write through `0` is not read back through `-0`:
they print as `0` and `-0` and so name two properties. -/
theorem negZero_names_another_property :
    let s : Store := { objects := #[[]] }
    ((0 : Float) == -0) = true ∧
      ∃ s', s.storeMember (.object 0) (.number 0) (.number 1) .start = .ok s' ∧
        s'.loadMember (.object 0) (.number (-0)) .start = .ok .null := by
  intro s
  have hbeq : ((0 : Float) == -0) = true := by decide
  have hne : (0 : Float) ≠ -0 := fun h => absurd (congrArg Float.toBits h) (by decide)
  have hobj : ∀ r, Value.object 0 = .object r → r < s.objects.size := by
    rintro r ⟨⟩
    decide
  have hslot : s.slot? (.object 0) (.number 0) =
      some (.prop 0 (Decimal.Style.language.format 0)) := rfl
  have hwrite := storeMember_of_slot hslot (.number 1) .start
  refine ⟨hbeq, _, hwrite, ?_⟩
  -- the two zeros select different slots, so the read sees the object as it was: empty
  have hother : s.slot? (.object 0) (.number (-0)) ≠ s.slot? (.object 0) (.number 0) :=
    fun h => hne ((slot?_object_of_beq hbeq 0).mp h.symm)
  rw [loadMember_storeMember hobj hwrite, if_neg hother]
  rfl

end Treewalk
