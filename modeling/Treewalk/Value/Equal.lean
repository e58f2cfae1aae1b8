import Treewalk.Store
/-!
# Equality of values

Two values are equal when they have the same kind and: both are null; both are numbers and
equal as doubles (so a NaN equals nothing, and `0` equals `-0`); both are the same boolean or
the same text; both are the same array or object, or arrays of the same length with equal
elements in order, or objects with the same property names and equal values under each name;
both are the same function or the same built-in.
-/
namespace Treewalk

namespace Store

/-- Whether `a` and `b` are equal, comparing at most `fuel` containers deep. -/
def equalWith (s : Store) : Nat → Value → Value → Bool
  | 0, _, _ => false
  | fuel + 1, a, b =>
    match a, b with
    | .null, .null => true
    | .number x, .number y => x == y
    | .bool x, .bool y => x == y
    | .str x, .str y => x == y
    | .array r, .array q =>
      r == q ||
        (let xs := s.elems r
         let ys := s.elems q
         xs.size == ys.size && (xs.toList.zip ys.toList).all (fun e => s.equalWith fuel e.1 e.2))
    | .object r, .object q =>
      r == q ||
        (let xs := s.props r
         let ys := s.props q
         xs.length == ys.length &&
           xs.all (fun e => match ys.get? e.1 with
             | some w => s.equalWith fuel e.2 w
             | none => false))
    | .function r, .function q => r == q
    | .native m, .native n => m == n
    | _, _ => false

def equal (s : Store) (a b : Value) : Bool :=
  s.equalWith (s.arrays.size + s.objects.size + 1) a b

end Store

end Treewalk
