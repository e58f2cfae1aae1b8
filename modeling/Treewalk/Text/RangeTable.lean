/-!
# Tables of code point ranges

A character class of the Unicode standard is stored as a sorted array of closed ranges of
code points that neither overlap nor touch. Membership is a binary search over that array,
so a lookup takes a logarithmic number of steps in the size of the table.
-/
namespace Treewalk.Text

/-- A character class, as sorted closed ranges `(first, last)` of code points. -/
structure RangeTable where
  ranges : Array (Nat × Nat)

namespace RangeTable

/-- Whether `n` lies in one of the ranges with index in `[lo, hi)`, by halving that window. -/
def searchIn (t : RangeTable) (n : Nat) (lo hi : Nat) : Bool :=
  if h : lo < hi then
    let mid := (lo + hi) / 2
    let r := t.ranges.getD mid (0, 0)
    if n < r.1 then t.searchIn n lo mid
    else if r.2 < n then t.searchIn n (mid + 1) hi
    else true
  else false
termination_by hi - lo

def containsNat (t : RangeTable) (n : Nat) : Bool :=
  t.searchIn n 0 t.ranges.size

def contains (t : RangeTable) (c : Char) : Bool :=
  t.containsNat c.toNat

end RangeTable

end Treewalk.Text
