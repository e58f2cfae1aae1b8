/-!
# Base64 and bytes as text

Binary data in a settings file is written in base64 with the standard alphabet (`A`–`Z`,
`a`–`z`, `0`–`9`, `+`, `/`) in groups of four characters, the last group padded with `=`;
line breaks may stand anywhere and are ignored.

Decoded bytes need not be UTF-8. Where they are shown as text, each maximal well-formed
UTF-8 sequence is its character and every other byte becomes U+FFFD.
-/
namespace Treewalk.Text

def base64Digit (c : Char) : Option Nat :=
  if 'A' ≤ c ∧ c ≤ 'Z' then some (c.toNat - 65)
  else if 'a' ≤ c ∧ c ≤ 'z' then some (c.toNat - 71)
  else if '0' ≤ c ∧ c ≤ '9' then some (c.toNat + 4)
  else if c = '+' then some 62
  else if c = '/' then some 63
  else none

/-- The bytes of base64 groups of four characters, none when a group is malformed. The
last group may end in `==` (one byte) or `=` (two bytes); nothing may follow it. -/
def base64Groups : List Char → Option (List UInt8)
  | [] => some []
  | [a, b, '=', '='] => do
    let x ← base64Digit a
    let y ← base64Digit b
    some [UInt8.ofNat (x * 4 + y / 16)]
  | [a, b, c, '='] => do
    let x ← base64Digit a
    let y ← base64Digit b
    let z ← base64Digit c
    some [UInt8.ofNat (x * 4 + y / 16), UInt8.ofNat ((y % 16) * 16 + z / 4)]
  | a :: b :: c :: d :: rest => do
    let x ← base64Digit a
    let y ← base64Digit b
    let z ← base64Digit c
    let w ← base64Digit d
    let more ← base64Groups rest
    some (UInt8.ofNat (x * 4 + y / 16) :: UInt8.ofNat ((y % 16) * 16 + z / 4) ::
      UInt8.ofNat ((z % 4) * 64 + w) :: more)
  | _ => none

/-- The bytes that base64 text spells, ignoring line feeds and carriage returns; none when
it is not base64. -/
def base64Decode (s : String) : Option (List UInt8) :=
  base64Groups (s.toList.filter fun c => c ≠ '\n' ∧ c ≠ '\r')

def inRange (b : UInt8) (lo hi : Nat) : Bool := lo ≤ b.toNat ∧ b.toNat ≤ hi

/-- The first character of bytes and how many bytes it takes: a well-formed UTF-8 sequence,
or U+FFFD for one byte that begins none. -/
def firstChar (b0 : UInt8) (rest : List UInt8) : Char × Nat :=
  let n := b0.toNat
  let cont (b : UInt8) : Nat := b.toNat % 64
  if n < 0x80 then (Char.ofNat n, 1)
  else if 0xC2 ≤ n ∧ n ≤ 0xDF then
    match rest with
    | b1 :: _ => if inRange b1 0x80 0xBF then (Char.ofNat ((n % 32) * 64 + cont b1), 2) else ('\uFFFD', 1)
    | _ => ('\uFFFD', 1)
  else if 0xE0 ≤ n ∧ n ≤ 0xEF then
    let (lo, hi) := if n = 0xE0 then (0xA0, 0xBF) else if n = 0xED then (0x80, 0x9F) else (0x80, 0xBF)
    match rest with
    | b1 :: b2 :: _ =>
      if inRange b1 lo hi ∧ inRange b2 0x80 0xBF then
        (Char.ofNat (((n % 16) * 64 + cont b1) * 64 + cont b2), 3)
      else ('\uFFFD', 1)
    | _ => ('\uFFFD', 1)
  else if 0xF0 ≤ n ∧ n ≤ 0xF4 then
    let (lo, hi) := if n = 0xF0 then (0x90, 0xBF) else if n = 0xF4 then (0x80, 0x8F) else (0x80, 0xBF)
    match rest with
    | b1 :: b2 :: b3 :: _ =>
      if inRange b1 lo hi ∧ inRange b2 0x80 0xBF ∧ inRange b3 0x80 0xBF then
        (Char.ofNat ((((n % 8) * 64 + cont b1) * 64 + cont b2) * 64 + cont b3), 4)
      else ('\uFFFD', 1)
    | _ => ('\uFFFD', 1)
  else ('\uFFFD', 1)

/-- Bytes as text: UTF-8 where well formed, U+FFFD for each other byte. -/
def bytesToText (bytes : List UInt8) : String :=
  let rec go : Nat → List UInt8 → String → String
    | 0, _, acc => acc
    | _, [], acc => acc
    | fuel + 1, b :: rest, acc =>
      let (c, width) := firstChar b rest
      go fuel (rest.drop (width - 1)) (acc.push c)
  go bytes.length bytes ""

end Treewalk.Text
