import Treewalk.Binary64
/-!
# What a scalar stands for

A scalar is resolved by its tag. Without a tag, a plain scalar is read as the first of these
that it spells: null (`~`, `null`, the empty text), a boolean (`true`, `False`, …), a special
float (`.inf`, `-.Inf`, `.nan`, …), negative zero (`-0`), a timestamp (`2001-12-14`,
`2001-12-14T21:59:43Z`, …), an integer in 64 bits (decimal, `0x` hexadecimal, `0o` or
leading-zero octal, `0b` binary; underscores ignored), a decimal float, or else a text. Which
forms are tried depends on the first character, so `yes` and `on` stay texts.

With one of the standard tags `!!null`, `!!bool`, `!!int`, `!!float` or `!!timestamp`, the
text is resolved the same way and must come out of that kind; an integer is accepted as a
float. Under `!!str` every text is a text, and any other tag leaves the text as it is.
-/
namespace Treewalk.Yaml

/-- What a scalar resolves to. Integers cover the signed and unsigned 64-bit ranges. -/
inductive Resolved
  | null
  | bool (b : Bool)
  | int (n : Int)
  | float (x : Float)
  | timestamp
  | text (s : String)
deriving Inhabited

def standardTagPrefix : String := "tag:yaml.org,2002:"

def shortTag (tag : String) : String :=
  if tag.startsWith standardTagPrefix then
    "!!" ++ String.ofList (tag.toList.drop standardTagPrefix.length)
  else tag

def minInt64 : Int := -(Nat.pow 2 63)

def maxInt64 : Int := Nat.pow 2 63 - 1

def digitValue (c : Char) : Option Nat :=
  if '0' ≤ c ∧ c ≤ '9' then some (c.toNat - 48)
  else if 'a' ≤ c ∧ c ≤ 'f' then some (c.toNat - 87)
  else if 'A' ≤ c ∧ c ≤ 'F' then some (c.toNat - 55)
  else none

/-- The number written by digits in `base`; none for an invalid digit. The empty list is 0. -/
def digitsValue (base : Nat) (cs : List Char) : Option Nat :=
  cs.foldl (fun acc c => acc.bind fun n =>
    (digitValue c).bind fun d => if d < base then some (base * n + d) else none) (some 0)

/-- An unsigned number with its base given by a prefix: `0b`, `0o`, `0x` (either case, with
at least one character after it), a leading `0` for octal, else decimal. -/
def unsignedValue (cs : List Char) : Option Nat :=
  match cs with
  | [] => none
  | '0' :: p :: rest =>
    if rest ≠ [] ∧ (p = 'b' ∨ p = 'B') then digitsValue 2 rest
    else if rest ≠ [] ∧ (p = 'o' ∨ p = 'O') then digitsValue 8 rest
    else if rest ≠ [] ∧ (p = 'x' ∨ p = 'X') then digitsValue 16 rest
    else digitsValue 8 (p :: rest)
  | '0' :: [] => some 0
  | _ => digitsValue 10 cs

def signedValue (cs : List Char) : Option Int :=
  let (negative, body) := match cs with
    | '-' :: rest => (true, rest)
    | '+' :: rest => (false, rest)
    | _ => (false, cs)
  (unsignedValue body).bind fun n =>
    let v : Int := if negative then -(n : Int) else n
    if minInt64 ≤ v ∧ v ≤ maxInt64 then some v else none

/-- A signed 64-bit integer in a fixed base after an optional sign, with at least one digit. -/
def signedInBase (base : Nat) (cs : List Char) : Option Int :=
  let (negative, body) := match cs with
    | '-' :: rest => (true, rest)
    | '+' :: rest => (false, rest)
    | _ => (false, cs)
  if body.isEmpty then none
  else (digitsValue base body).bind fun n =>
    let v : Int := if negative then -(n : Int) else n
    if minInt64 ≤ v ∧ v ≤ maxInt64 then some v else none

/-- The integer a scalar spells, signed in 64 bits or (without a sign) unsigned in 64 bits. -/
def integerValue (cs : List Char) : Option Int :=
  match signedValue cs with
  | some v => some v
  | none =>
    match cs with
    | '-' :: _ | '+' :: _ => none
    | _ => (unsignedValue cs).bind fun n => if n < Nat.pow 2 64 then some n else none

def decimalWidth (n : Nat) : Nat := (toString n).length

/-- The double nearest to `±m·10^k`, where exponents far out of range go straight to zero or
infinity instead of building huge powers. -/
def decimalFloat (negative : Bool) (m : Nat) (k : Int) : Float :=
  let zero : Float := if negative then -0.0 else 0.0
  if m = 0 then zero
  else if k + decimalWidth m > 310 then (if negative then -Binary64.infFloat else Binary64.infFloat)
  else if k + decimalWidth m < -330 then zero
  else Binary64.ofDecimal negative m k

def spanDigits (cs : List Char) : List Char × List Char :=
  (cs.takeWhile Char.isDigit, cs.dropWhile Char.isDigit)

/-- The exponent `[eE][-+]?digits` ending a float, as an integer; none if malformed. -/
def exponentPart : List Char → Option Int
  | [] => some 0
  | e :: rest =>
    if e = 'e' ∨ e = 'E' then
      let (negative, body) := match rest with
        | '-' :: more => (true, more)
        | '+' :: more => (false, more)
        | _ => (false, rest)
      if body.isEmpty ∨ ¬ body.all Char.isDigit then none
      else
        let n := digitsValue 10 body |>.getD 0
        some (if negative then -(n : Int) else n)
    else none

/-- A decimal float `[-+]?(.digits|digits(.digits?)?)([eE][-+]?digits)?` as sign, digits and
exponent: the value is `±digits·10^exponent`. -/
def decimalParts (cs : List Char) : Option (Bool × Nat × Int) :=
  let (negative, body) := match cs with
    | '-' :: rest => (true, rest)
    | '+' :: rest => (false, rest)
    | _ => (false, cs)
  let (whole, afterWhole) := spanDigits body
  let (frac, afterFrac, pointOk) : List Char × List Char × Bool :=
    match afterWhole with
    | '.' :: rest =>
      let (f, r) := spanDigits rest
      (f, r, !whole.isEmpty || !f.isEmpty)
    | rest => ([], rest, !whole.isEmpty)
  if !pointOk then none
  else
    (exponentPart afterFrac).map fun k =>
      (negative, (digitsValue 10 (whole ++ frac)).getD 0, k - frac.length)

def decimalFloatValue (cs : List Char) : Option Float :=
  (decimalParts cs).bind fun (negative, m, k) =>
    let x := decimalFloat negative m k
    if x.isInf then none else some x

def isLeapYear (y : Nat) : Bool := y % 4 = 0 ∧ (y % 100 ≠ 0 ∨ y % 400 = 0)

def daysInMonth (y m : Nat) : Nat :=
  match m with
  | 2 => if isLeapYear y then 29 else 28
  | 4 | 6 | 9 | 11 => 30
  | _ => 31

def shortNumber : List Char → Option (Nat × List Char)
  | a :: b :: rest =>
    if a.isDigit then
      if b.isDigit then some ((a.toNat - 48) * 10 + (b.toNat - 48), rest)
      else some (a.toNat - 48, b :: rest)
    else none
  | [a] => if a.isDigit then some (a.toNat - 48, []) else none
  | [] => none

def twoDigits : List Char → Option (Nat × List Char)
  | a :: b :: rest => if a.isDigit ∧ b.isDigit then some ((a.toNat - 48) * 10 + (b.toNat - 48), rest) else none
  | _ => none

/-- A date `YYYY-M-D` at the front (month and day of one or two digits, the day valid for the
month), and what follows it. -/
def datePart (cs : List Char) : Option (List Char) := do
  let year := cs.take 4
  if year.length ≠ 4 ∨ ¬ year.all Char.isDigit then none
  let y := (digitsValue 10 year).getD 0
  let rest ← match cs.drop 4 with
    | '-' :: r => some r
    | _ => none
  let (m, rest) ← shortNumber rest
  if m < 1 ∨ m > 12 then none
  let rest ← match rest with
    | '-' :: r => some r
    | _ => none
  let (d, rest) ← shortNumber rest
  if d < 1 ∨ d > daysInMonth y m then none
  some rest

/-- A time `H:M:S` (each of one or two digits, in range) with an optional fraction of a second
`.digits`, and what follows it. -/
def timePart (cs : List Char) : Option (List Char) := do
  let (h, rest) ← shortNumber cs
  if h ≥ 24 then none
  let rest ← match rest with
    | ':' :: r => some r
    | _ => none
  let (mi, rest) ← shortNumber rest
  if mi ≥ 60 then none
  let rest ← match rest with
    | ':' :: r => some r
    | _ => none
  let (s, rest) ← shortNumber rest
  if s ≥ 60 then none
  match rest with
  | p :: d :: more =>
    if (p = '.' ∨ p = ',') ∧ d.isDigit then some (more.dropWhile Char.isDigit)
    else some rest
  | _ => some rest

def zonePart : List Char → Bool
  | ['Z'] => true
  | s :: rest =>
    decide ((s = '+' ∨ s = '-') ∧ rest.length = 5 ∧ rest.getD 2 ' ' = ':') &&
      (match twoDigits rest, twoDigits (rest.drop 3) with
        | some (h, _), some (m, _) => decide (h ≤ 24 ∧ m ≤ 60)
        | _, _ => false)
  | [] => false

/-- Whether a scalar spells a timestamp: a date alone, a date and time joined by `T` or `t`
with a zone, or a date and time joined by spaces without one. -/
def isTimestamp (cs : List Char) : Bool :=
  match datePart cs with
  | none => false
  | some [] => true
  | some (sep :: rest) =>
    let rest := if sep = ' ' then rest.dropWhile (· = ' ') else rest
    match timePart rest with
    | none => false
    | some tail =>
      if sep = 'T' ∨ sep = 't' then zonePart tail
      else sep = ' ' ∧ tail.isEmpty

/-- Whether the scalar starts with exactly four digits and a dash, the mark of a timestamp. -/
def looksLikeDate (cs : List Char) : Bool :=
  (cs.takeWhile Char.isDigit).length = 4 ∧ (cs.drop 4).head? = some '-'

def fixedScalar (s : String) : Option (String × Resolved) :=
  if s = "true" ∨ s = "True" ∨ s = "TRUE" then some ("!!bool", .bool true)
  else if s = "false" ∨ s = "False" ∨ s = "FALSE" then some ("!!bool", .bool false)
  else if s = "" ∨ s = "~" ∨ s = "null" ∨ s = "Null" ∨ s = "NULL" then some ("!!null", .null)
  else if s = ".nan" ∨ s = ".NaN" ∨ s = ".NAN" then some ("!!float", .float Binary64.nanFloat)
  else if s = ".inf" ∨ s = ".Inf" ∨ s = ".INF" ∨ s = "+.inf" ∨ s = "+.Inf" ∨ s = "+.INF" then
    some ("!!float", .float Binary64.infFloat)
  else if s = "-.inf" ∨ s = "-.Inf" ∨ s = "-.INF" then some ("!!float", .float (-Binary64.infFloat))
  else if s = "-0" ∨ s = "-0.0" then some ("!!float", .float (-0.0))
  else none

/-- The kind of scalar the first character allows: a sign, a digit, a letter of a fixed word,
or a point. -/
inductive Hint
  | sign | digit | word | point | none

def hintOf : List Char → Hint
  | [] => .word
  | c :: _ =>
    if c = '+' ∨ c = '-' then .sign
    else if c.isDigit then .digit
    else if "yYnNtTfFoO~".toList.contains c then .word
    else if c = '.' then .point
    else .none

/-- The numbers written with the prefixes `0b` and `0o` but a sign after the prefix. -/
def prefixedValue (cs : List Char) : Option Int :=
  match cs with
  | '0' :: 'b' :: rest => signedInBase 2 rest
  | '0' :: 'o' :: rest => signedInBase 8 rest
  | _ => none

/-- Whether the underscores of a number stand only between digits: after an optional sign,
each underscore follows a digit and is followed by one. -/
def underscoresBetweenDigits (cs : List Char) : Bool :=
  let body := match cs with
    | '-' :: rest | '+' :: rest => rest
    | _ => cs
  let rec go : List Char → Char → Bool
    | [], saw => saw ≠ '_'
    | c :: rest, saw =>
      if c.isDigit then go rest '0'
      else if c = '_' then saw = '0' && go rest '_'
      else saw ≠ '_' && go rest '!'
  go body '^'

/-- The digits of a decimal mantissa with underscores among them: the digits, how many came
before the point, whether there was a point, and what follows. -/
def mantissaDigits : List Char → List Char → Nat → Bool → List Char × Nat × Bool × List Char
  | [], ds, before, dot => (ds.reverse, before, dot, [])
  | c :: rest, ds, before, dot =>
    if c.isDigit then mantissaDigits rest (c :: ds) (if dot then before else before + 1) dot
    else if c = '_' then mantissaDigits rest ds before dot
    else if c = '.' && !dot then mantissaDigits rest ds before true
    else (ds.reverse, before, dot, c :: rest)

/-- The float a decimal number spells, as a float parser of the usual syntax reads it:
an optional sign, digits with at most one point, an optional exponent, and underscores only
between digits. None when malformed or out of range. -/
def decimalFloatText (cs : List Char) : Option Float :=
  let (negative, body) := match cs with
    | '-' :: rest => (true, rest)
    | '+' :: rest => (false, rest)
    | _ => (false, cs)
  let (digits, before, _, rest) := mantissaDigits body [] 0 false
  if digits.isEmpty then none
  else
    let exponent : Option Int := match rest with
      | [] => some 0
      | e :: more =>
        if e = 'e' ∨ e = 'E' then
          let (eneg, edigits) := match more with
            | '-' :: r => (true, r)
            | '+' :: r => (false, r)
            | r => (false, r)
          match edigits with
          | d :: _ =>
            if d.isDigit && edigits.all (fun c => c.isDigit || c = '_') then
              let n := (digitsValue 10 (edigits.filter Char.isDigit)).getD 0
              some (if eneg then -(n : Int) else n)
            else none
          | [] => none
        else none
    match exponent with
    | none => none
    | some k =>
      if cs.contains '_' && !underscoresBetweenDigits cs then none
      else
        let m := (digitsValue 10 digits).getD 0
        let x := decimalFloat negative m (k + before - digits.length)
        if x.isInf then none else some x

/-- What a scalar stands for when tagged `tag` (in short form; empty for an untagged plain
scalar), before the tag is checked: the tag the text itself suggests and its value. -/
def implicitScalar (tag : String) (s : String) : String × Resolved :=
  let cs := s.toList
  let asText : String × Resolved := ("!!str", .text s)
  match hintOf cs with
  | .none => asText
  | hint =>
    if tag = "!!str" ∨ tag = "!!binary" then asText
    else
      match fixedScalar s with
      | some r => r
      | none =>
        match hint with
        | .point =>
          match decimalFloatText cs with
          | some x => ("!!float", .float x)
          | none => asText
        | .sign | .digit =>
          if (tag = "" ∨ tag = "!!timestamp") ∧ looksLikeDate cs ∧ isTimestamp cs then
            ("!!timestamp", .timestamp)
          else
            let plain := cs.filter (· ≠ '_')
            match integerValue plain with
            | some n => ("!!int", .int n)
            | none =>
              match decimalFloatValue plain with
              | some x => ("!!float", .float x)
              | none =>
                match prefixedValue plain with
                | some n => ("!!int", .int n)
                | none => asText
        | _ => asText

def resolvableTag (tag : String) : Bool :=
  ["", "!!str", "!!bool", "!!int", "!!float", "!!null", "!!timestamp"].contains tag

/-- What a scalar of text `s` stands for under `tag` (in short form; empty for an untagged
plain scalar), with the tag it resolves to. A text that does not fit a standard tag is
refused; an integer in the signed 64-bit range fits `!!float` too. -/
def resolve (tag : String) (s : String) : Except String (String × Resolved) :=
  if !resolvableTag tag then .ok (tag, .text s)
  else
    let (rtag, value) := implicitScalar tag s
    let refuse : Except String (String × Resolved) :=
      .error ("cannot decode " ++ rtag ++ " `" ++ s ++ "` as a " ++ tag)
    if tag = "" ∨ tag = rtag ∨ tag = "!!str" then .ok (rtag, value)
    else if tag = "!!float" ∧ rtag = "!!int" then
      match value with
      | .int n =>
        if minInt64 ≤ n ∧ n ≤ maxInt64 then
          .ok ("!!float", .float (Binary64.ofDecimal (n < 0) n.natAbs 0))
        else refuse
      | _ => refuse
    else refuse

def plainTag (s : String) : String := (implicitScalar "" s).1

end Treewalk.Yaml
