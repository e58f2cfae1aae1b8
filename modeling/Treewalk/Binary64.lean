/-!
# Binary64 numbers

A finite double is `± m · 2^e` with a 53-bit significand. This module reads a `Float` into
that form from its bits, and builds the double nearest to a non-negative ratio of naturals,
rounding a tie to the even significand. Everything is exact arithmetic on naturals, so the
rounding is correct for every input and the definitions can be reasoned about.
-/
namespace Treewalk

/-- What a double is: not a number, an infinity, or `± m · 2^e` (finite, zero included). -/
inductive Binary64
  | nan
  | infinite (negative : Bool)
  | finite (negative : Bool) (m : Nat) (e : Int)
deriving DecidableEq, Repr

namespace Binary64

/-- The class and exact value of `x`, read from its bits: a biased exponent of 2047 marks NaN
and the infinities; 0 marks zero and the subnormals, whose scale is `2^-1074`. -/
def ofFloat (x : Float) : Binary64 :=
  let b : Nat := x.toBits.toNat
  let negative := b / Nat.pow 2 63 % 2 == 1
  let biased : Nat := b / Nat.pow 2 52 % Nat.pow 2 11
  let fraction : Nat := b % Nat.pow 2 52
  if biased = 2047 then (if fraction = 0 then .infinite negative else .nan)
  else if biased = 0 then .finite negative fraction (-1074)
  else .finite negative (fraction + Nat.pow 2 52) ((biased : Int) - 1075)

/-- The double with the given sign, biased exponent and fraction field. -/
def assemble (negative : Bool) (biased fraction : Nat) : Float :=
  Float.ofBits (UInt64.ofNat ((if negative then Nat.pow 2 63 else 0) + biased * Nat.pow 2 52 + fraction))

/-- The floor of the base-2 logarithm of `num / den`, for positive `num` and `den`. -/
def log2Ratio (num den : Nat) : Int :=
  let l : Int := (num.log2 : Int) - den.log2
  let fits := if l ≥ 0 then den * Nat.pow 2 l.toNat ≤ num else den ≤ num * Nat.pow 2 (-l).toNat
  if fits then l else l - 1

/-- `num / den` rounded to the nearest natural, a tie going to the even one. -/
def roundHalfEven (num den : Nat) : Nat :=
  let q := num / den
  let r := num % den
  if 2 * r > den ∨ (2 * r = den ∧ q % 2 = 1) then q + 1 else q

/-- The double nearest to `num / den` with the given sign; a tie goes to the even significand,
and a ratio at or beyond the largest double's rounding bound gives an infinity. -/
def ofRatio (negative : Bool) (num den : Nat) : Float :=
  if num = 0 ∨ den = 0 then assemble negative 0 0
  else
    let e : Int := max (log2Ratio num den - 52) (-1074)
    let q := if e ≥ 0 then roundHalfEven num (den * Nat.pow 2 e.toNat)
      else roundHalfEven (num * Nat.pow 2 (-e).toNat) den
    let (q, e) := if q = Nat.pow 2 53 then (Nat.pow 2 52, e + 1) else (q, e)
    if e > 971 then assemble negative 2047 0
    else if q < Nat.pow 2 52 then assemble negative 0 q
    else assemble negative (e + 1075).toNat (q - Nat.pow 2 52)

/-- The double nearest to `m · 10^k`. -/
def ofDecimal (negative : Bool) (m : Nat) (k : Int) : Float :=
  if k ≥ 0 then ofRatio negative (m * Nat.pow 10 k.toNat) 1 else ofRatio negative m (Nat.pow 10 (-k).toNat)

def nanFloat : Float := assemble false 2047 (Nat.pow 2 51)

def infFloat : Float := assemble false 2047 0

/-- The remainder of `x / y` truncated toward zero, exactly: its sign is that of `x` and its
magnitude is below that of `y`. NaN when `y` is zero, `x` is infinite, or either is NaN; `x`
itself when `y` is infinite and `x` finite. -/
def fmod (x y : Float) : Float :=
  match ofFloat x, ofFloat y with
  | .finite neg mx ex, .finite _ my ey =>
    if my = 0 then nanFloat
    else
      let e0 := min ex ey
      let r := (mx * Nat.pow 2 (ex - e0).toNat) % (my * Nat.pow 2 (ey - e0).toNat)
      if e0 ≥ 0 then ofRatio neg (r * Nat.pow 2 e0.toNat) 1 else ofRatio neg r (Nat.pow 2 (-e0).toNat)
  | .finite _ _ _, .infinite _ => x
  | _, _ => nanFloat

end Binary64

end Treewalk
