import Treewalk.Decimal.Shortest
/-!
# Laying out decimal digits

Digits and the place of the point are written in one of two layouts: positional, with every
digit before the point padded by zeros up to the point and no trailing zeros after it, or
scientific, with one digit before the point and a signed exponent of at least two digits. A
style fixes which layout each number gets and how the values that are not finite are spelled.
-/
namespace Treewalk.Decimal

/-- How numbers are written. -/
structure Style where
  /-- The text of a NaN. -/
  nan : String
  /-- The text of positive infinity. -/
  posInf : String
  /-- The text of negative infinity. -/
  negInf : String
  /-- Integral values of magnitude below `10^n` are always positional, when set. -/
  integralPositionalBelow : Option Nat
  /-- Values whose leading digit has an exponent in `[minPositional, maxPositional)` are
  positional; the others are scientific. -/
  minPositional : Int
  maxPositional : Int
  /-- The least number of digits of an exponent. -/
  exponentDigits : Nat

/-- Numbers of the language: integral values below `10^21` in full (`-0` keeps its sign), the
others positional for leading exponents from -4 to 5 and scientific beyond; `NaN`, `inf`,
`-inf`. -/
def Style.language : Style :=
  ⟨"NaN", "inf", "-inf", some 21, -4, 6, 2⟩

/-- Number literals in a syntax dump: positional for leading exponents from -4 to 5, scientific
beyond; a literal too large for a double reads `+Inf`. -/
def Style.literal : Style :=
  ⟨"NaN", "+Inf", "-Inf", none, -4, 6, 2⟩

def digitChar (d : Nat) : Char := Char.ofNat (48 + d)

def digitAt (ds : List Nat) (i : Int) : Char :=
  if i < 0 then '0' else digitChar (ds.getD i.toNat 0)

/-- Positional layout: the digits up to the point (at least `0`), then a point and the rest
when any digit follows it. -/
def positional (d : Digits) : String :=
  let n : Int := d.digits.length
  let intPart : List Char :=
    if d.point ≤ 0 then ['0']
    else (List.range d.point.toNat).map (fun (i : Nat) => digitAt d.digits (Int.ofNat i))
  let fracLen : Int := n - d.point
  let fracPart : List Char :=
    if fracLen ≤ 0 then []
    else '.' :: (List.range fracLen.toNat).map (fun (i : Nat) => digitAt d.digits (d.point + Int.ofNat i))
  String.ofList (intPart ++ fracPart)

/-- Scientific layout: one digit, the others after a point, `e`, the sign and at least
`width` digits of the exponent. -/
def scientific (width : Nat) (d : Digits) : String :=
  let ds := if d.digits.isEmpty then [0] else d.digits
  let mant : List Char := match ds with
    | [] => ['0']
    | [a] => [digitChar a]
    | a :: rest => digitChar a :: '.' :: rest.map digitChar
  let x : Int := d.point - 1
  let sign := if x < 0 then '-' else '+'
  let expDigits := Nat.toDigits 10 x.natAbs
  let pad := List.replicate (width - expDigits.length) '0'
  String.ofList (mant ++ 'e' :: sign :: pad ++ expDigits)

def integralBelow (m : Nat) (e : Int) (n : Nat) : Bool :=
  (e ≥ 0 ∨ m % Nat.pow 2 (-e).toNat = 0) ∧ m * Nat.pow 2 e.toNat < Nat.pow 10 n * Nat.pow 2 (-e).toNat

/-- The text of `x` in style `s`, with the shortest digits that read back to `x`. -/
def Style.format (s : Style) (x : Float) : String :=
  match Binary64.ofFloat x with
  | .nan => s.nan
  | .infinite neg => if neg then s.negInf else s.posInf
  | .finite neg m e =>
    let d := shortest m e
    let sign := if neg then "-" else ""
    let whole := match s.integralPositionalBelow with
      | some n => integralBelow m e n
      | none => false
    let lead := d.point - 1
    let body :=
      if whole || m == 0 then positional d
      else if s.minPositional ≤ lead ∧ lead < s.maxPositional then positional d
      else scientific s.exponentDigits d
    sign ++ body

end Treewalk.Decimal
