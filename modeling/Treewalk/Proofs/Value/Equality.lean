import Mathlib
import Treewalk.Proofs.Value.Members
/-!
# Equality of values

`Store.equal` compares numbers as doubles and containers first by identity, then element by
element or name by name. It is a partial equivalence: symmetric and transitive, and reflexive
on every value but a NaN number. Symmetry rests on objects having no name twice, which holds of
every store the evaluator makes, since properties are kept sorted by name. Nothing depends on
the order the properties are kept in: any other order gives the same answers. `Array.has`
looks for an element equal to the value, so it answers alike for equal values.

Everything is proved at every comparison depth, so the laws hold of `equalWith` at any fuel
and of `equal` in particular.
-/
namespace Treewalk

namespace Props

def names (ps : Props) : List String := ps.map Prod.fst

theorem mem_names_set {ps : Props} {k x : String} {v : Value} :
    x ∈ (ps.set k v).names ↔ x = k ∨ x ∈ ps.names := by
  induction ps with
  | nil => simp [set, names]
  | cons e ps ih =>
    obtain ⟨k', w⟩ := e
    rw [set]
    split_ifs with heq hlt
    · subst heq
      simp [names]
    · simp [names]
    · simp only [names, List.map_cons, List.mem_cons] at ih ⊢
      rw [ih, or_left_comm]

theorem sorted_set {ps : Props} (h : ps.names.Pairwise (· < ·)) (k : String) (v : Value) :
    (ps.set k v).names.Pairwise (· < ·) := by
  induction ps with
  | nil => simp [set, names]
  | cons e ps ih =>
    obtain ⟨k', w⟩ := e
    obtain ⟨hk', hps⟩ := List.pairwise_cons.mp h
    rw [set]
    split_ifs with heq hlt
    · subst heq
      exact h
    · -- the new name goes in front of a larger one
      refine List.pairwise_cons.mpr ⟨fun x hx => ?_, h⟩
      rcases List.mem_cons.mp hx with rfl | hx
      · exact hlt
      · exact lt_trans hlt (hk' x hx)
    · -- a smaller name stays in front, the new one goes further on
      have hgt : k' < k := lt_of_le_of_ne (not_lt.mp hlt) (Ne.symm heq)
      refine List.pairwise_cons.mpr ⟨fun x hx => ?_, ih hps⟩
      rcases mem_names_set.mp hx with rfl | hx
      · exact hgt
      · exact hk' x hx

theorem sorted_ofList (entries : List (String × Value)) : (ofList entries).names.Pairwise (· < ·) := by
  suffices h : ∀ ps : Props, ps.names.Pairwise (· < ·) →
      (entries.foldl (fun ps e => ps.set e.1 e.2) ps).names.Pairwise (· < ·) from
    h [] List.Pairwise.nil
  induction entries with
  | nil => exact fun _ h => h
  | cons e entries ih => exact fun ps h => ih _ (sorted_set h e.1 e.2)

end Props

namespace Store

/-- Every object keeps its property names strictly sorted, so no name twice. -/
def WellKeyed (s : Store) : Prop := ∀ r, (s.props r).names.Pairwise (· < ·)

theorem props_setProp_cases (s : Store) (r : Nat) (n : String) (v : Value) (r' : Nat) :
    (s.setProp r n v).props r' = s.props r' ∨ (s.setProp r n v).props r' = (s.props r).set n v := by
  simp only [props, setProp, Array.getD_eq_getD_getElem?, Array.getElem?_modify]
  by_cases h : r = r'
  · subst h
    cases s.objects[r]? <;> simp
  · simp [h]

theorem props_allocObject_cases (s : Store) (ps : Props) (r : Nat) :
    (s.allocObject ps).1.props r = s.props r ∨ (s.allocObject ps).1.props r = ps := by
  simp only [props, allocObject, Array.getD_eq_getD_getElem?, Array.getElem?_push]
  split_ifs <;> simp

theorem wellKeyed_storeMember {s s' : Store} {c k v : Value} {p : Pos}
    (h : s.storeMember c k v p = .ok s') (hs : s.WellKeyed) : s'.WellKeyed := by
  obtain ⟨sl, hsl⟩ := Option.isSome_iff_exists.mp (storeMember_ok_iff.mp ⟨_, h⟩)
  rw [storeMember_of_slot hsl] at h
  cases h
  intro r
  cases sl with
  | prop r₀ n =>
    rcases props_setProp_cases s r₀ n v r with h | h <;> simp only [writeSlot, h]
    · exact hs r
    · exact Props.sorted_set (hs r₀) n v
  | elem r₀ i => exact hs r

/-- Every store operation of the evaluator keeps objects well keyed. -/
theorem wellKeyed_kept : Kept fun s s' => s.WellKeyed → s'.WellKeyed :=
  Kept.of_heap (fun s s' h hs r => by simpa only [props, h.2] using hs r) (fun h₁ h₂ hs => h₂ (h₁ hs))
    wellKeyed_storeMember (fun _ _ hs r => hs r)
    (fun s entries hs r => by
      rcases props_allocObject_cases s (Props.ofList entries) r with h | h <;> rw [h]
      · exact hs r
      · exact Props.sorted_ofList entries)

end Store

/-! ### Lookups in objects with no name twice -/

namespace Props

variable {ps qs : Props} {k : String} {w : Value}

theorem nodup_names (h : ps.names.Pairwise (· < ·)) : ps.names.Nodup := h.imp ne_of_lt

theorem mem_of_get? (h : ps.get? k = some w) : (k, w) ∈ ps := by
  simp only [get?, Option.map_eq_some_iff] at h
  obtain ⟨e, he, rfl⟩ := h
  have hk := List.find?_some he
  rw [beq_iff_eq] at hk
  rw [← hk]
  exact List.mem_of_find?_eq_some he

theorem get?_of_mem (hnd : ps.names.Nodup) (h : (k, w) ∈ ps) : ps.get? k = some w := by
  induction ps with
  | nil => cases h
  | cons e ps ih =>
    obtain ⟨k', w'⟩ := e
    have hnd' : k' ∉ names ps ∧ (names ps).Nodup := by simpa [names] using hnd
    rw [Treewalk.Props.get?_cons]
    by_cases hk : k' = k
    · subst hk
      rcases List.mem_cons.mp h with h | h
      · cases h
        simp
      · exact absurd (List.mem_map_of_mem (f := Prod.fst) h) hnd'.1
    · rw [if_neg hk]
      rcases List.mem_cons.mp h with h | h
      · cases h
        exact absurd rfl hk
      · exact ih hnd'.2 h

theorem get?_eq_some_iff (hnd : ps.names.Nodup) : ps.get? k = some w ↔ (k, w) ∈ ps :=
  ⟨mem_of_get?, get?_of_mem hnd⟩

theorem get?_perm (hnd : ps.names.Nodup) (hp : qs.Perm ps) (k : String) : qs.get? k = ps.get? k := by
  have hnd' : (names qs).Nodup := ((hp.map Prod.fst).nodup_iff).mpr hnd
  ext w
  rw [get?_eq_some_iff hnd', get?_eq_some_iff hnd, hp.mem_iff]

end Props

/-! ### Comparing elements and properties -/

section Matching

variable {f g : Value → Value → Bool}

/-- Arrays compare structurally when they have as many elements and the elements compare
pairwise. -/
def elemsMatch (f : Value → Value → Bool) (xs ys : List Value) : Bool :=
  xs.length == ys.length && (xs.zip ys).all (fun e => f e.1 e.2)

/-- Objects compare structurally when they have as many properties and each property of the first
is found, under its name, in the second, holding a value that compares. -/
def propsMatch (f : Value → Value → Bool) (xs ys : Props) : Bool :=
  xs.length == ys.length && xs.all (fun e => match ys.get? e.1 with
    | some w => f e.2 w
    | none => false)

theorem elemsMatch_iff {xs ys : List Value} :
    elemsMatch f xs ys = true ↔ List.Forall₂ (fun a b => f a b = true) xs ys := by
  rw [List.forall₂_iff_zip]
  simp [elemsMatch, List.all_eq_true]

theorem forall₂_trans {α : Type} {R : α → α → Prop} (h : ∀ a b c, R a b → R b c → R a c) :
    ∀ {l₁ l₂ l₃ : List α}, List.Forall₂ R l₁ l₂ → List.Forall₂ R l₂ l₃ → List.Forall₂ R l₁ l₃
  | _, _, _, .nil, .nil => .nil
  | _, _, _, .cons h₁ t₁, .cons h₂ t₂ => .cons (h _ _ _ h₁ h₂) (forall₂_trans h t₁ t₂)

theorem elemsMatch_symm (h : ∀ a b, f a b = true → g b a = true) {xs ys : List Value}
    (hxy : elemsMatch f xs ys = true) : elemsMatch g ys xs = true := by
  rw [elemsMatch_iff] at hxy ⊢
  exact List.Forall₂.flip (hxy.imp h)

theorem elemsMatch_trans (h : ∀ a b c, f a b = true → f b c = true → f a c = true)
    {xs ys zs : List Value} (hxy : elemsMatch f xs ys = true) (hyz : elemsMatch f ys zs = true) :
    elemsMatch f xs zs = true := by
  rw [elemsMatch_iff] at hxy hyz ⊢
  exact forall₂_trans h hxy hyz

theorem propsMatch_iff {xs ys : Props} :
    propsMatch f xs ys = true ↔
      xs.length = ys.length ∧ ∀ e ∈ xs, ∃ w, ys.get? e.1 = some w ∧ f e.2 w = true := by
  simp only [propsMatch, Bool.and_eq_true, beq_iff_eq, List.all_eq_true]
  refine and_congr_right fun _ => forall₂_congr fun e _ => ?_
  cases ys.get? e.1 <;> simp

/-- With no name twice on either side, the names of two objects that match are the same, so the
comparison can be read from the second object's side. -/
theorem propsMatch_symm (h : ∀ a b, f a b = true → g b a = true) {xs ys : Props}
    (hx : (Props.names xs).Nodup) (hy : (Props.names ys).Nodup) (hxy : propsMatch f xs ys = true) :
    propsMatch g ys xs = true := by
  rw [propsMatch_iff] at hxy ⊢
  obtain ⟨hlen, hcover⟩ := hxy
  have hsub : Props.names xs ⊆ Props.names ys := fun k hk => by
    obtain ⟨e, he, rfl⟩ := List.mem_map.mp hk
    obtain ⟨w, hw, -⟩ := hcover e he
    exact List.mem_map.mpr ⟨(e.1, w), Props.mem_of_get? hw, rfl⟩
  have hperm : (Props.names xs).Perm (Props.names ys) :=
    (hx.subperm hsub).perm_of_length_le (by simp [Props.names, hlen])
  refine ⟨hlen.symm, fun e he => ?_⟩
  obtain ⟨k, w⟩ := e
  obtain ⟨⟨k', v⟩, hv, hk⟩ :=
    List.mem_map.mp (hperm.mem_iff.mpr (List.mem_map_of_mem (f := Prod.fst) he))
  simp only at hk
  subst hk
  obtain ⟨w', hw', hf⟩ := hcover _ hv
  rw [Props.get?_of_mem hy he, Option.some.injEq] at hw'
  subst hw'
  exact ⟨v, Props.get?_of_mem hx hv, h _ _ hf⟩

theorem propsMatch_trans (h : ∀ a b c, f a b = true → f b c = true → f a c = true)
    {xs ys zs : Props} (hxy : propsMatch f xs ys = true) (hyz : propsMatch f ys zs = true) :
    propsMatch f xs zs = true := by
  rw [propsMatch_iff] at hxy hyz ⊢
  obtain ⟨hl₁, hc₁⟩ := hxy
  obtain ⟨hl₂, hc₂⟩ := hyz
  refine ⟨hl₁.trans hl₂, fun e he => ?_⟩
  obtain ⟨w, hw, hf⟩ := hc₁ e he
  obtain ⟨u, hu, hg⟩ := hc₂ (e.1, w) (Props.mem_of_get? hw)
  exact ⟨u, hu, h _ _ _ hf hg⟩

theorem propsMatch_perm {xs ys xs' ys' : Props} (hy : (Props.names ys).Nodup)
    (px : xs'.Perm xs) (py : ys'.Perm ys) : propsMatch f xs' ys' = propsMatch f xs ys := by
  apply Bool.eq_iff_iff.mpr
  rw [propsMatch_iff, propsMatch_iff, px.length_eq, py.length_eq]
  simp only [Props.get?_perm hy py]
  exact and_congr_right fun _ => ⟨fun hc e he => hc e (px.mem_iff.mpr he),
    fun hc e he => hc e (px.mem_iff.mp he)⟩

end Matching

/-! ### The laws of equality -/

def Value.isNaN : Value → Bool
  | .number x => x.isNaN
  | _ => false

namespace Store

variable {s : Store}

theorem equalWith_array (s : Store) (n r q : Nat) :
    s.equalWith (n + 1) (.array r) (.array q) =
      (r == q || elemsMatch (s.equalWith n) (s.elems r).toList (s.elems q).toList) := rfl

theorem equalWith_object (s : Store) (n r q : Nat) :
    s.equalWith (n + 1) (.object r) (.object q) =
      (r == q || propsMatch (s.equalWith n) (s.props r) (s.props q)) := rfl

/-- Equality is symmetric at every depth, as long as no object has a name twice. -/
theorem equalWith_comm (hs : s.WellKeyed) : ∀ n a b, s.equalWith n a b = s.equalWith n b a
  | 0, _, _ => rfl
  | n + 1, a, b => by
    have ih := equalWith_comm hs n
    have hsymm : ∀ a b, s.equalWith n a b = true → s.equalWith n b a = true :=
      fun a b h => (ih a b) ▸ h
    cases a <;> cases b <;> try rfl
    case number.number x y => exact Binary64.float_beq_comm x y
    case bool.bool x y => exact Bool.beq_comm
    case str.str x y => exact Bool.beq_comm
    case array.array r q =>
      have hrq : (r == q) = (q == r) := Bool.beq_comm
      rw [equalWith_array, equalWith_array, hrq]
      congr 1
      exact Bool.eq_iff_iff.mpr ⟨elemsMatch_symm hsymm, elemsMatch_symm hsymm⟩
    case object.object r q =>
      have hrq : (r == q) = (q == r) := Bool.beq_comm
      have hr := Props.nodup_names (hs r)
      have hq := Props.nodup_names (hs q)
      rw [equalWith_object, equalWith_object, hrq]
      congr 1
      exact Bool.eq_iff_iff.mpr ⟨propsMatch_symm hsymm hr hq, propsMatch_symm hsymm hq hr⟩
    case function.function r q => exact Bool.beq_comm
    case native.native m m' => exact Bool.beq_comm

/-- Comparing references by identity first, then structurally, is transitive when the structural
comparison is: an identity on either side passes the other comparison through unchanged. -/
theorem or_identity_trans {r q t : Nat} (M : Nat → Nat → Bool)
    (hM : M r q = true → M q t = true → M r t = true)
    (hab : (r == q || M r q) = true) (hbc : (q == t || M q t) = true) : (r == t || M r t) = true := by
  by_cases hrq : r = q
  · subst hrq
    exact hbc
  by_cases hqt : q = t
  · subst hqt
    exact hab
  simp only [Bool.or_eq_true, beq_iff_eq, hrq, hqt, false_or] at hab hbc ⊢
  exact .inr (hM hab hbc)

/-- Equality is transitive at every depth. -/
theorem equalWith_trans : ∀ n a b c, s.equalWith n a b = true → s.equalWith n b c = true →
    s.equalWith n a c = true
  | 0, _, _, _, h, _ => h
  | n + 1, a, b, c, hab, hbc => by
    have ih := equalWith_trans n
    -- when two of the three are of different kinds, one of the comparisons is false
    cases a <;> cases b <;> cases c <;>
      first | exact hab | exact hbc | exact absurd hab Bool.false_ne_true | skip
    case number.number.number x y z => exact Binary64.float_beq_trans hab hbc
    case bool.bool.bool x y z => exact beq_iff_eq.mpr ((beq_iff_eq.mp hab).trans (beq_iff_eq.mp hbc))
    case str.str.str x y z => exact beq_iff_eq.mpr ((beq_iff_eq.mp hab).trans (beq_iff_eq.mp hbc))
    case array.array.array r q t =>
      rw [equalWith_array] at hab hbc ⊢
      exact or_identity_trans (fun r q => elemsMatch (s.equalWith n) (s.elems r).toList
        (s.elems q).toList) (elemsMatch_trans ih) hab hbc
    case object.object.object r q t =>
      rw [equalWith_object] at hab hbc ⊢
      exact or_identity_trans (fun r q => propsMatch (s.equalWith n) (s.props r) (s.props q))
        (propsMatch_trans ih) hab hbc
    case function.function.function r q t =>
      exact beq_iff_eq.mpr ((beq_iff_eq.mp hab).trans (beq_iff_eq.mp hbc))
    case native.native.native m m' m'' =>
      exact beq_iff_eq.mpr ((beq_iff_eq.mp hab).trans (beq_iff_eq.mp hbc))

theorem equalWith_self {n : Nat} (hn : 0 < n) (a : Value) : s.equalWith n a a = !a.isNaN := by
  obtain ⟨n, rfl⟩ := Nat.exists_eq_add_of_lt hn
  cases a <;> simp [equalWith, Value.isNaN, Binary64.float_beq_self]

/-- `t` holds the arrays of `s` and as many objects, each with the same properties, possibly in
another order. -/
structure Reordered (s t : Store) : Prop where
  arrays : t.arrays = s.arrays
  size : t.objects.size = s.objects.size
  perm : ∀ r, (t.props r).Perm (s.props r)

theorem equalWith_reordered {t : Store} (hs : s.WellKeyed) (ht : Reordered s t) :
    ∀ n a b, t.equalWith n a b = s.equalWith n a b
  | 0, _, _ => rfl
  | n + 1, a, b => by
    have hf : t.equalWith n = s.equalWith n :=
      funext fun a => funext fun b => equalWith_reordered hs ht n a b
    -- only the structural comparisons read the store
    cases a <;> cases b <;> try rfl
    case array.array r q =>
      rw [equalWith_array, equalWith_array, hf]
      simp only [elems, ht.arrays]
    case object.object r q =>
      rw [equalWith_object, equalWith_object, hf,
        propsMatch_perm (Props.nodup_names (hs q)) (ht.perm r) (ht.perm q)]

/-! ### At the depth the evaluator compares -/

theorem equal_comm (hs : s.WellKeyed) (a b : Value) : s.equal a b = s.equal b a :=
  equalWith_comm hs _ a b

theorem equal_trans {a b c : Value} (hab : s.equal a b = true) (hbc : s.equal b c = true) :
    s.equal a c = true :=
  equalWith_trans _ a b c hab hbc

theorem equal_self (a : Value) : s.equal a a = !a.isNaN :=
  equalWith_self (Nat.succ_pos _) a

theorem equal_reordered {t : Store} (hs : s.WellKeyed) (ht : Reordered s t) (a b : Value) :
    t.equal a b = s.equal a b := by
  unfold equal
  rw [ht.arrays, ht.size]
  exact equalWith_reordered hs ht _ a b

theorem equal_congr_right (hs : s.WellKeyed) {v w : Value} (hvw : s.equal v w = true) (x : Value) :
    s.equal x v = s.equal x w := by
  have hwv : s.equal w v = true := (equal_comm hs v w) ▸ hvw
  exact Bool.eq_iff_iff.mpr ⟨fun h => equal_trans h hvw, fun h => equal_trans h hwv⟩

end Store

/-! ### Stores the evaluator reaches -/

namespace Store

theorem wellKeyed_new (clock : Clock) : (Session.new clock).machine.store.WellKeyed := by
  intro r
  rcases r with _ | _ | r
  · show (Props.names [("now", .native .dateNow)]).Pairwise (· < ·)
    decide
  · show (Props.names [("concat", .native .arrayConcat), ("from", .native .arrayFrom),
      ("has", .native .arrayHas), ("new", .native .arrayNew)]).Pairwise (· < ·)
    decide
  · -- past the two built-in objects there is none
    simp [Session.new, props, Props.names]

end Store

theorem wellKeyed_run (ses : Session) (src : String) (h : ses.machine.store.WellKeyed) :
    (ses.run src).2.machine.store.WellKeyed := by
  unfold Session.run
  split
  · exact h
  · exact Eval.runProgram_keeps_rel Store.wellKeyed_kept ses.limit ses.global _
      { ses.machine with out := "" } h

namespace Eval

theorem run_arrayHas (r : Nat) (v : Value) (m : Machine) :
    (runNative .arrayHas [.array r, v]).run.run m =
      (.ok (.bool ((m.store.elems r).any (fun x => m.store.equal x v))), m) := rfl

end Eval

/-- Equality of values is a partial equivalence in every store whose objects have no name twice,
which is every store a session reaches. It is symmetric and transitive, and every value equals
itself but a NaN number. It does not depend on the order objects keep their properties in. And
`Array.has` answers whether some element of the array equals the value, and answers alike for
every value equal to it. -/
theorem equal_partialEquivalence (s : Store) (hs : s.WellKeyed) :
    (∀ a b, s.equal a b = s.equal b a) ∧
    (∀ a b c, s.equal a b = true → s.equal b c = true → s.equal a c = true) ∧
    (∀ a, s.equal a a = !a.isNaN) ∧
    (∀ t, s.Reordered t → ∀ a b, t.equal a b = s.equal a b) ∧
    (∀ m : Machine, m.store = s → ∀ r v w, s.equal v w = true →
      ∃ b, (Eval.runNative .arrayHas [.array r, v]).run.run m = (.ok (.bool b), m) ∧
        (b = true ↔ ∃ x ∈ s.elems r, s.equal x w = true)) ∧
    (∀ clock, (Session.new clock).machine.store.WellKeyed) ∧
    (∀ (ses : Session) (src : String), ses.machine.store.WellKeyed →
      (ses.run src).2.machine.store.WellKeyed) := by
  refine ⟨Store.equal_comm hs, fun a b c => Store.equal_trans, Store.equal_self,
    fun t ht => Store.equal_reordered hs ht, fun m hm r v w hvw => ?_, Store.wellKeyed_new,
    wellKeyed_run⟩
  subst hm
  refine ⟨_, Eval.run_arrayHas r v m, ?_⟩
  rw [Array.any_eq_true']
  simp only [Store.equal_congr_right hs hvw]

/-- The laws in the store of a new session. -/
theorem equal_partialEquivalence_session :
    let s := (Session.new fun _ => 0).machine.store
    s.WellKeyed ∧
    (∀ a b, s.equal a b = s.equal b a) ∧
    (∀ a b c, s.equal a b = true → s.equal b c = true → s.equal a c = true) ∧
    (∀ a, s.equal a a = !a.isNaN) ∧
    (∀ t, s.Reordered t → ∀ a b, t.equal a b = s.equal a b) ∧
    (∀ m : Machine, m.store = s → ∀ r v w, s.equal v w = true →
      ∃ b, (Eval.runNative .arrayHas [.array r, v]).run.run m = (.ok (.bool b), m) ∧
        (b = true ↔ ∃ x ∈ s.elems r, s.equal x w = true)) ∧
    (∀ clock, (Session.new clock).machine.store.WellKeyed) ∧
    (∀ (ses : Session) (src : String), ses.machine.store.WellKeyed →
      (ses.run src).2.machine.store.WellKeyed) :=
  ⟨Store.wellKeyed_new 0, equal_partialEquivalence _ (Store.wellKeyed_new 0)⟩

end Treewalk
