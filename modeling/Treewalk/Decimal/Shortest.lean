import Treewalk.Binary64
/-!
# Shortest decimal digits

A positive double stands for every real number that rounds to it: an interval around its
value that reaches halfway to each neighbour, ends included exactly when the significand is
even. Its shortest decimal form is the point of the coarsest decimal grid `t · 10^k` inside
that interval; when two points of that grid lie inside, the one nearer to the value wins, and
of two equally near the one with an even `t`. Only the two grid points around the value can be
the nearest inside, so each grid costs two exact comparisons.
-/
namespace Treewalk.Decimal

/-- Decimal digits and the place of the point: the number `0.d₁d₂…dₙ · 10^point`. -/
structure Digits where
  digits : List Nat
  point : Int
deriving DecidableEq, Repr

def digitCount (n : Nat) : Nat :=
  (Nat.toDigits 10 n).length

def digitsOf (n : Nat) : List Nat :=
  (Nat.toDigits 10 n).map (fun c => c.toNat - 48)

/-- The exponent `E` with `10^E ≤ num / den < 10^(E+1)`, for positive `num` and `den`. -/
def decimalExponent (num den : Nat) : Int :=
  if num ≥ den then (digitCount (num / den) : Int) - 1
  else
    let d := digitCount den - digitCount num
    if num * Nat.pow 10 d ≥ den then -(d : Int) else -(d : Int) - 1

/-- A point of a decimal grid and an exact rational, both scaled to naturals: `t · 10^k`
against `x · 2^b` becomes a comparison of two naturals. -/
def scaled (t : Nat) (k : Int) (x : Nat) (b : Int) : Nat × Nat :=
  (t * Nat.pow 10 k.toNat * Nat.pow 2 (-b).toNat, x * Nat.pow 10 (-k).toNat * Nat.pow 2 b.toNat)

/-- The interval of reals that round to `m · 2^e`, in units of `2^(e-2)`: its lower end, the
value and its upper end. Below a power of two the gap to the lower neighbour is half as wide,
unless the value is at the bottom of the exponent range. -/
def roundingInterval (m : Nat) (e : Int) : Nat × Nat × Nat :=
  let low := if m = Nat.pow 2 52 ∧ e > -1074 then 4 * m - 1 else 4 * m - 2
  (low, 4 * m, 4 * m + 2)

def inInterval (m : Nat) (e : Int) (t : Nat) (k : Int) : Bool :=
  let (low, _, high) := roundingInterval m e
  let (a, lo) := scaled t k low (e - 2)
  let (b, hi) := scaled t k high (e - 2)
  if m % 2 = 0 then lo ≤ a ∧ b ≤ hi else lo < a ∧ b < hi

/-- Of two grid points `t` and `t + 1` (times `10^k`) around `m · 2^e`, those inside its
interval, the nearer first, and `t` first on a tie only when it is even. -/
def pick (m : Nat) (e : Int) (t : Nat) (k : Int) : Option Nat :=
  let downOk := t > 0 ∧ inInterval m e t k
  let upOk := inInterval m e (t + 1) k
  if downOk ∧ upOk then
    -- distances from the value, both scaled by the same factor
    let (gd, vd) := scaled t k (4 * m) (e - 2)
    let (gu, vu) := scaled (t + 1) k (4 * m) (e - 2)
    let below := vd - gd
    let above := gu - vu
    if below < above then some t
    else if above < below then some (t + 1)
    else if t % 2 = 0 then some t else some (t + 1)
  else if downOk then some t
  else if upOk then some (t + 1)
  else none

def gridFloor (m : Nat) (e : Int) (k : Int) : Nat :=
  (m * Nat.pow 2 e.toNat * Nat.pow 10 (-k).toNat) / (Nat.pow 10 k.toNat * Nat.pow 2 (-e).toNat)

def trimZeros (ds : List Nat) : List Nat :=
  (ds.reverse.dropWhile (· == 0)).reverse

/-- The first grid, from `10^start` down by one digit at a time for at most `fuel` grids, on
which a point lies in the interval of `m · 2^e`, and that point. -/
def searchGrids (m : Nat) (e : Int) : Nat → Int → Option (Nat × Int)
  | 0, _ => none
  | fuel + 1, k =>
    match pick m e (gridFloor m e k) k with
    | some t => some (t, k)
    | none => searchGrids m e fuel (k - 1)

/-- The shortest digits of the positive value `m · 2^e` that read back to it, nearest to it
among those of that length. Seventeen significant digits always suffice for a double. -/
def shortest (m : Nat) (e : Int) : Digits :=
  if m = 0 then ⟨[], 0⟩
  else
    let num := m * Nat.pow 2 e.toNat
    let den := Nat.pow 2 (-e).toNat
    let top := decimalExponent num den
    match searchGrids m e 18 top with
    | some (t, k) =>
      let ds := digitsOf t
      ⟨trimZeros ds, k + ds.length⟩
    | none => ⟨digitsOf m, 0⟩

end Treewalk.Decimal
