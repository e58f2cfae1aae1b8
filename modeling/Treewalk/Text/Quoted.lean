import Treewalk.Text.Printable
/-!
# Quoted text

A text is quoted by writing it between double quotes, where the quote and the backslash are
preceded by a backslash, printable characters stand as they are, the seven control characters
with a letter escape use it (`\a \b \f \n \r \t \v`), the other ASCII controls and DEL are
written `\xHH`, and every other character that is not printable is written `\uHHHH` or, beyond
the first 65536 code points, `\UHHHHHHHH`, always with lowercase hexadecimal digits.
-/
namespace Treewalk.Text

def hexChar (d : Nat) : Char :=
  if d < 10 then Char.ofNat (48 + d) else Char.ofNat (87 + d)

def hexDigits : Nat → Nat → List Char
  | 0, _ => []
  | k + 1, n => hexDigits k (n / 16) ++ [hexChar (n % 16)]

def escapeChar (c : Char) : List Char :=
  if c = '"' ∨ c = '\\' then ['\\', c]
  else if isPrintable c then [c]
  else if c = '\x07' then ['\\', 'a']
  else if c = '\x08' then ['\\', 'b']
  else if c = '\x0c' then ['\\', 'f']
  else if c = '\n' then ['\\', 'n']
  else if c = '\r' then ['\\', 'r']
  else if c = '\t' then ['\\', 't']
  else if c = '\x0b' then ['\\', 'v']
  else if c.toNat < 0x20 ∨ c.toNat = 0x7F then '\\' :: 'x' :: hexDigits 2 c.toNat
  else if c.toNat < 0x10000 then '\\' :: 'u' :: hexDigits 4 c.toNat
  else '\\' :: 'U' :: hexDigits 8 c.toNat

def quoteChars (cs : List Char) : List Char :=
  '"' :: cs.flatMap escapeChar ++ ['"']

/-- The text `s` written between double quotes, with escapes. -/
def quote (s : String) : String :=
  String.ofList (quoteChars s.toList)

end Treewalk.Text
