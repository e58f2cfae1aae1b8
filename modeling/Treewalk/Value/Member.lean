import Treewalk.Value.Render
import Treewalk.Binary64
import Treewalk.Error
/-!
# Members of arrays and objects

An object is read and written under a property name: a text names itself, and a number names
the text of the number (so `o[1]` is `o["1"]`); other keys are refused. An array is read and
written at an index: a number that is a whole number in range. Reading an array at a number
that is no index gives null, and at anything else is refused; writing refuses every key that
is no index in range. Other values have no members. Refusals are reported at the member's
position.
-/
namespace Treewalk

/-- The property name that a key selects: a text itself, a number its text. -/
def Value.propertyName? : Value → Option String
  | .str k => some k
  | .number x => some (Decimal.Style.language.format x)
  | _ => none

/-- The whole number that a key stands for, if it is a finite whole number (`-0` is `0`). -/
def Value.wholeNumber? : Value → Option Int
  | .number x =>
    match Binary64.ofFloat x with
    | .finite neg m e =>
      if e ≥ 0 then
        let n : Int := (m * Nat.pow 2 e.toNat : Nat)
        some (if neg then -n else n)
      else if m % Nat.pow 2 (-e).toNat = 0 then
        let n : Int := (m / Nat.pow 2 (-e).toNat : Nat)
        some (if neg then -n else n)
      else none
    | _ => none
  | _ => none

namespace Store

def loadMember (s : Store) (container key : Value) (pos : Pos) : Except Error Value :=
  match container with
  | .object r =>
    match key.propertyName? with
    | some k => .ok (((s.props r).get? k).getD .null)
    | none => .error { fault := .objectKeyKind key.kind, pos := some pos }
  | .array r =>
    let xs := s.elems r
    match key with
    | .number _ =>
      match key.wholeNumber? with
      | some i => if 0 ≤ i ∧ i < xs.size then .ok (xs.getD i.toNat .null) else .ok .null
      | none => .ok .null
    | _ => .error { fault := .indexKind key.kind, pos := some pos }
  | _ => .error { fault := .readMember (s.display key) container.kind, pos := some pos }

/-- Writes `v` as member `key` of `container`, for a member expression at `pos`. -/
def storeMember (s : Store) (container key v : Value) (pos : Pos) : Except Error Store :=
  match container with
  | .object r =>
    match key.propertyName? with
    | some k => .ok (s.setProp r k v)
    | none => .error { fault := .objectKeyKind key.kind, pos := some pos }
  | .array r =>
    let n := (s.elems r).size
    match key.wholeNumber? with
    | some i =>
      if 0 ≤ i ∧ i < n then .ok (s.setElem r i.toNat v)
      else .error { fault := .indexRange (s.render key) n, pos := some pos }
    | none => .error { fault := .indexRange (s.render key) n, pos := some pos }
  | _ => .error { fault := .writeMember (s.display key) container.kind, pos := some pos }

end Store

end Treewalk
