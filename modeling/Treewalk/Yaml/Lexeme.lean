import Treewalk.Yaml.Token
/-!
# Reading one token

Each reader here starts at the first character of a token and answers the token and the
cursor after it, or the problem that stops it. The places a problem cites follow one rule:
the context is where the token began and the problem is where reading stopped.

* A directive is `%YAML major.minor` or `%TAG handle prefix`, alone on its line but for a
  comment.
* A tag is verbatim `!<uri>`, or a handle `!`, `!!` or `!name!` and a suffix; `!` alone
  is the non-specific tag.
* An anchor `&name` or alias `*name` is a run of word characters.
* A quoted scalar folds its line breaks: one break becomes a space, and each further empty
  line a line feed. Double quotes also take escapes.
* A plain scalar runs until `: `, a comment, a document marker or, in a block, a line less
  indented than the collection it belongs to.
* A block scalar (`|` literal, `>` folded) takes the lines indented at least as much as its
  first non-empty line, with its trailing breaks chomped as its header says.
-/
namespace Treewalk.Yaml

def tagProblem (start : Mark) (c : Cursor) (text : String) : Problem :=
  Problem.ofTokens start c.mark text

def readVersionNumber (start : Mark) : Nat → Cursor → Nat → Nat → Except Problem (Nat × Cursor)
  | 0, c, value, _ => .ok (value, c)
  | fuel + 1, c, value, length =>
    match c.peek with
    | some d =>
      if d.isDigit then
        if length + 1 > 2 then .error (Problem.ofTokens start c.mark "found extremely long version number")
        else readVersionNumber start fuel c.skip (value * 10 + (d.toNat - 48)) (length + 1)
      else if length = 0 then
        .error (Problem.ofTokens start c.mark "did not find expected version number")
      else .ok (value, c)
    | none =>
      if length = 0 then .error (Problem.ofTokens start c.mark "did not find expected version number")
      else .ok (value, c)

def readVersion (start : Mark) (c : Cursor) : Except Problem (TokenKind × Cursor) := do
  let c := c.skipBlanks c.fuel
  let (major, c) ← readVersionNumber start c.fuel c 0 0
  if c.peek ≠ some '.' then
    throw (Problem.ofTokens start c.mark "did not find expected digit or '.' character")
  let c := c.skip
  let (minor, c) ← readVersionNumber start c.fuel c 0 0
  return (.versionDirective major minor, c)

/-- Reads a tag handle: `!`, then word characters, then `!` if present. In a `%TAG`
directive the handle must be `!` or end with `!`. -/
def readTagHandle (directive : Bool) (start : Mark) (c : Cursor) :
    Except Problem (String × Cursor) := do
  if c.peek ≠ some '!' then throw (tagProblem start c "did not find expected '!'")
  let (s, c) := c.read ""
  let (s, c) := c.readWord c.fuel s
  if c.peek = some '!' then
    return c.read s
  else if directive && s ≠ "!" then
    throw (tagProblem start c "did not find expected '!'")
  else return (s, c)

/-- Whether a character may stand in a tag: a word character, one of `;/?:@&=+$.%!~*'()`,
and inside `!<…>` or a directive also `,`, `[` and `]`. -/
def isUriChar (wide : Bool) (c : Option Char) : Bool :=
  isWordChar c || isOneOf ";/?:@&=+$.%!~*'()" c || (wide && isOneOf ",[]" c)

def hexDigit (c : Option Char) : Option Nat :=
  match c with
  | some d =>
    if d.isDigit then some (d.toNat - 48)
    else if 'a' ≤ d ∧ d ≤ 'f' then some (d.toNat - 87)
    else if 'A' ≤ d ∧ d ≤ 'F' then some (d.toNat - 55)
    else none
  | none => none

/-- The length of a UTF-8 sequence from its first byte, zero for a byte that cannot begin
one. -/
def utf8Width (b : Nat) : Nat :=
  if b < 0x80 then 1
  else if b / 32 = 6 then 2
  else if b / 16 = 14 then 3
  else if b / 8 = 30 then 4
  else 0

def utf8Char (bytes : List Nat) : Char :=
  match bytes with
  | [a] => Char.ofNat a
  | [a, b] => Char.ofNat ((a % 32) * 64 + b % 64)
  | [a, b, c] => Char.ofNat (((a % 16) * 64 + b % 64) * 64 + c % 64)
  | [a, b, c, d] => Char.ofNat ((((a % 8) * 64 + b % 64) * 64 + c % 64) * 64 + d % 64)
  | _ => '\uFFFD'

def readUriEscapes (start : Mark) : Nat → Cursor → Nat → List Nat → Except Problem (Char × Cursor)
  | 0, c, _, bytes => .ok (utf8Char bytes.reverse, c)
  | fuel + 1, c, width, bytes =>
    match c.peek, hexDigit (c.ahead 1), hexDigit (c.ahead 2) with
    | some '%', some hi, some lo =>
      let octet := hi * 16 + lo
      if bytes.isEmpty then
        let w := utf8Width octet
        if w = 0 then .error (tagProblem start c "found an incorrect leading UTF-8 octet")
        else if w = 1 then .ok (utf8Char [octet], c.skipN 3)
        else readUriEscapes start fuel (c.skipN 3) (w - 1) [octet]
      else if octet / 64 ≠ 2 then
        .error (tagProblem start c "found an incorrect trailing UTF-8 octet")
      else if width ≤ 1 then .ok (utf8Char (octet :: bytes).reverse, c.skipN 3)
      else readUriEscapes start fuel (c.skipN 3) (width - 1) (octet :: bytes)
    | _, _, _ => .error (tagProblem start c "did not find URI escaped octet")

/-- Reads the characters of a tag after `head` (a text that was read as a handle but is
not one; its leading `!` is dropped). At least one character must be there in all. -/
def readTagUri (wide : Bool) (head : String) (start : Mark) (c : Cursor) :
    Except Problem (String × Cursor) :=
  let init := if head.length > 1 then String.ofList (head.toList.drop 1) else ""
  let rec go : Nat → Cursor → String → Bool → Except Problem (String × Cursor)
    | 0, c, s, found => if found then .ok (s, c) else .error (tagProblem start c "did not find expected tag URI")
    | fuel + 1, c, s, found =>
      if isUriChar wide c.peek then
        if c.peek = some '%' then
          match readUriEscapes start 4 c 0 [] with
          | .ok (ch, c) => go fuel c (s.push ch) true
          | .error p => .error p
        else
          let (s, c) := c.read s
          go fuel c s true
      else if found then .ok (s, c)
      else .error (tagProblem start c "did not find expected tag URI")
  go c.fuel c init (!head.isEmpty)

def readTagDirective (start : Mark) (c : Cursor) : Except Problem (TokenKind × Cursor) := do
  let c := c.skipBlanks c.fuel
  let (handle, c) ← readTagHandle true start c
  if !isBlank c.peek then throw (Problem.ofTokens start c.mark "did not find expected whitespace")
  let c := c.skipBlanks c.fuel
  let (pfx, c) ← readTagUri true "" start c
  if !isBlankOrEnd c.peek then
    throw (Problem.ofTokens start c.mark "did not find expected whitespace or line break")
  return (.tagDirective handle pfx, c)

/-- Reads a directive, at a `%` that starts a line, with the rest of its line. -/
def readDirective (c : Cursor) : Except Problem (Token × Cursor) := do
  let start := c.mark
  let c := c.skip
  let (name, c) := c.readWord c.fuel ""
  if name.isEmpty then throw (Problem.ofTokens start c.mark "could not find expected directive name")
  if !isBlankOrEnd c.peek then
    throw (Problem.ofTokens start c.mark "found unexpected non-alphabetical character")
  let (kind, c) ←
    if name = "YAML" then readVersion start c
    else if name = "TAG" then readTagDirective start c
    else throw (Problem.ofTokens start c.mark "found unknown directive name")
  let stop := c.mark
  let c := c.skipBlanks c.fuel
  let c := if c.peek = some '#' then c.skipToBreak c.fuel else c
  if !isBreakOrEnd c.peek then
    throw (Problem.ofTokens start c.mark "did not find expected comment or line break")
  let c := if isBreak c.peek then c.skipLine else c
  return (⟨kind, start, stop⟩, c)

def readTag (inFlow : Bool) (c : Cursor) : Except Problem (Token × Cursor) := do
  let start := c.mark
  let (handle, suffix, c) ←
    if c.ahead 1 = some '<' then do
      let c := c.skipN 2
      let (suffix, c) ← readTagUri true "" start c
      if c.peek ≠ some '>' then throw (tagProblem start c "did not find the expected '>'")
      pure ("", suffix, c.skip)
    else do
      let (handle, c) ← readTagHandle false start c
      if handle.length > 1 && handle.startsWith "!" && handle.endsWith "!" then
        let (suffix, c) ← readTagUri false "" start c
        pure (handle, suffix, c)
      else
        let (suffix, c) ← readTagUri false handle start c
        if suffix.isEmpty then pure ("", "!", c) else pure ("!", suffix, c)
  if !isBlankOrEnd c.peek && !(inFlow && c.peek = some ',') then
    throw (tagProblem start c "did not find expected whitespace or line break")
  return (⟨.tag handle suffix, start, c.mark⟩, c)

/-- Reads an anchor (`&name`) or an alias (`*name`). The name must be followed by a blank,
a break, the end, or one of `?:,]}%@` and the backquote. -/
def readAnchor (isAlias : Bool) (c : Cursor) : Except Problem (Token × Cursor) := do
  let start := c.mark
  let c := c.skip
  let (name, c) := c.readWord c.fuel ""
  let ends := isBlankOrEnd c.peek || isOneOf "?:,]\x7d%@" c.peek || c.peek = some '\x60'
  if name.isEmpty || !ends then
    throw (Problem.ofTokens start c.mark "did not find expected alphabetic or numeric character")
  let kind := if isAlias then TokenKind.alias name else TokenKind.anchor name
  return (⟨kind, start, c.mark⟩, c)

/-- The character an escape letter after `\` stands for, or the number of hexadecimal digits
that follow the letter. -/
def escapeOf : Char → Option (Sum Char Nat)
  | '0' => some (.inl '\x00')
  | 'a' => some (.inl '\x07')
  | 'b' => some (.inl '\x08')
  | 't' | '\t' => some (.inl '\t')
  | 'n' => some (.inl '\n')
  | 'v' => some (.inl '\x0b')
  | 'f' => some (.inl '\x0c')
  | 'r' => some (.inl '\r')
  | 'e' => some (.inl '\x1b')
  | ' ' => some (.inl ' ')
  | '"' => some (.inl '"')
  | '\'' => some (.inl '\'')
  | '\\' => some (.inl '\\')
  | 'N' => some (.inl '\x85')
  | '_' => some (.inl '\xa0')
  | 'L' => some (.inl '\u2028')
  | 'P' => some (.inl '\u2029')
  | 'x' => some (.inr 2)
  | 'u' => some (.inr 4)
  | 'U' => some (.inr 8)
  | _ => none

/-- The number that `n` hexadecimal digits at the cursor spell, none if one is missing. -/
def hexValue (c : Cursor) : Nat → Nat → Option Nat
  | 0, acc => some acc
  | n + 1, acc =>
    match hexDigit c.peek with
    | some d => hexValue c.skip n (acc * 16 + d)
    | none => none

/-- Reads the non-blank characters of a quoted scalar onto `s`, up to a blank, a break, the
end or the closing quote. An escaped line break ends the run and says so. -/
def readQuotedRun (single : Bool) (start : Mark) :
    Nat → Cursor → String → Except Problem (String × Cursor × Bool)
  | 0, c, s => .ok (s, c, false)
  | fuel + 1, c, s =>
    if isBlankOrEnd c.peek then .ok (s, c, false)
    else if single && c.peek = some '\'' && c.ahead 1 = some '\'' then
      readQuotedRun single start fuel (c.skipN 2) (s.push '\'')
    else if single && c.peek = some '\'' then .ok (s, c, false)
    else if !single && c.peek = some '"' then .ok (s, c, false)
    else if !single && c.peek = some '\\' && isBreak (c.ahead 1) then
      .ok (s, c.skip.skipLine, true)
    else if !single && c.peek = some '\\' then
      match (c.ahead 1).bind escapeOf with
      | none => .error (Problem.ofTokens start c.mark "found unknown escape character")
      | some (.inl ch) => readQuotedRun single start fuel (c.skipN 2) (s.push ch)
      | some (.inr n) =>
        let c := c.skipN 2
        match hexValue c n 0 with
        | none => .error (Problem.ofTokens start c.mark "did not find expected hexdecimal number")
        | some v =>
          if (0xD800 ≤ v ∧ v ≤ 0xDFFF) ∨ v > 0x10FFFF then
            .error (Problem.ofTokens start c.mark "found invalid Unicode character escape code")
          else readQuotedRun single start fuel (c.skipN n) (s.push (Char.ofNat v))
    else
      let (s, c) := c.read s
      readQuotedRun single start fuel c s

/-- The blanks and breaks between two runs of a scalar: the blanks kept since the last run,
the first line break, the further line breaks, and whether a break was met. -/
structure Gap where
  whitespaces : String := ""
  leadingBreak : String := ""
  trailingBreaks : String := ""
  leadingBlanks : Bool := false

/-- The text that joins two runs across a gap: kept blanks when no line was broken, else a
space for a single break, or the breaks of the empty lines. -/
def Gap.join (g : Gap) : String :=
  if g.leadingBlanks then
    if g.leadingBreak.startsWith "\n" then
      if g.trailingBreaks.isEmpty then " " else g.trailingBreaks
    else g.leadingBreak ++ g.trailingBreaks
  else g.whitespaces

def readQuotedGap : Nat → Cursor → Gap → Gap × Cursor
  | 0, c, g => (g, c)
  | fuel + 1, c, g =>
    if isBlank c.peek then
      if g.leadingBlanks then readQuotedGap fuel c.skip g
      else
        let (w, c) := c.read g.whitespaces
        readQuotedGap fuel c { g with whitespaces := w }
    else if isBreak c.peek then
      if g.leadingBlanks then
        let (t, c) := c.readLine g.trailingBreaks
        readQuotedGap fuel c { g with trailingBreaks := t }
      else
        let (l, c) := c.readLine ""
        readQuotedGap fuel c { g with whitespaces := "", leadingBreak := l, leadingBlanks := true }
    else (g, c)

def readQuoted (single : Bool) (c : Cursor) : Except Problem (Token × Cursor) :=
  let start := c.mark
  let quote := if single then '\'' else '"'
  let rec go : Nat → Cursor → String → Except Problem (String × Cursor)
    | 0, c, s => .ok (s, c)
    | fuel + 1, c, s =>
      if c.atDocumentMarker then
        .error (Problem.ofTokens start c.mark "found unexpected document indicator")
      else if c.peek.isNone then
        .error (Problem.ofTokens start c.mark "found unexpected end of stream")
      else
        match readQuotedRun single start c.fuel c s with
        | .error p => .error p
        | .ok (s, c, escapedBreak) =>
          if c.peek = some quote then .ok (s, c)
          else
            let (g, c) := readQuotedGap c.fuel c { leadingBlanks := escapedBreak }
            go fuel c (s ++ g.join)
  match go c.fuel c.skip "" with
  | .ok (s, c) =>
    let c := c.skip
    let style := if single then ScalarStyle.single else ScalarStyle.double
    .ok (⟨.scalar s style, start, c.mark⟩, c)
  | .error p => .error p

/-- The state of a plain scalar being read: its text so far, the gap since the last run,
and the place after its last character. -/
structure PlainState where
  text : String := ""
  gap : Gap := {}
  stop : Mark

/-- Reads a run of non-blank characters of a plain scalar. A run ends at a blank, a break,
the end, `:` before a blank, and in a flow collection at `,`, `?` and brackets. -/
def readPlainRun (inFlow : Bool) : Nat → Cursor → PlainState → Cursor × PlainState
  | 0, c, st => (c, st)
  | fuel + 1, c, st =>
    if isBlankOrEnd c.peek then (c, st)
    else if (c.peek = some ':' && isBlankOrEnd (c.ahead 1)) || (inFlow && isOneOf ",?[]\x7b\x7d" c.peek) then
      (c, st)
    else
      let text :=
        if st.gap.leadingBlanks || !st.gap.whitespaces.isEmpty then st.text ++ st.gap.join
        else st.text
      let (text, c) := c.read text
      readPlainRun inFlow fuel c { text, gap := {}, stop := c.mark }

/-- Reads the blanks and breaks after a run of a plain scalar. A tab may not stand in the
indentation of a continuation line. -/
def readPlainGap (start : Mark) (indent : Int) :
    Nat → Cursor → Gap → Except Problem (Gap × Cursor)
  | 0, c, g => .ok (g, c)
  | fuel + 1, c, g =>
    if isBlank c.peek then
      if g.leadingBlanks && (c.mark.column : Int) < indent && c.peek = some '\t' then
        .error (Problem.ofTokens start c.mark "found a tab character that violates indentation")
      else if g.leadingBlanks then readPlainGap start indent fuel c.skip g
      else
        let (w, c) := c.read g.whitespaces
        readPlainGap start indent fuel c { g with whitespaces := w }
    else if isBreak c.peek then
      if g.leadingBlanks then
        let (t, c) := c.readLine g.trailingBreaks
        readPlainGap start indent fuel c { g with trailingBreaks := t }
      else
        let (l, c) := c.readLine ""
        readPlainGap start indent fuel c { g with whitespaces := "", leadingBreak := l, leadingBlanks := true }
    else .ok (g, c)

/-- Reads a plain scalar. `indent` is the indentation of the enclosing block collection;
the answer also says whether the scalar ended after a line break, after which a simple key
may start. -/
def readPlain (inFlow : Bool) (indent : Int) (c : Cursor) : Except Problem (Token × Cursor × Bool) :=
  let start := c.mark
  let rec go : Nat → Cursor → PlainState → Except Problem (Cursor × PlainState)
    | 0, c, st => .ok (c, st)
    | fuel + 1, c, st =>
      if c.atDocumentMarker || c.peek = some '#' then .ok (c, st)
      else
        let (c, st) := readPlainRun inFlow c.fuel c st
        if !(isBlank c.peek || isBreak c.peek) then .ok (c, st)
        else
          match readPlainGap start (indent + 1) c.fuel c st.gap with
          | .error p => .error p
          | .ok (g, c) =>
            let st := { st with gap := g }
            if !inFlow && (c.mark.column : Int) < indent + 1 then .ok (c, st)
            else go fuel c st
  match go c.fuel c { stop := start } with
  | .ok (c, st) => .ok (⟨.scalar st.text .plain, start, st.stop⟩, c, st.gap.leadingBlanks)
  | .error p => .error p

/-- Moves past the indentation and empty lines before a line of a block scalar, collecting
the breaks. With no indentation fixed yet (`indent = 0`) it is set to the deepest of those
lines, but at least one more than the enclosing collection's and at least one. -/
def blockBreaks (start : Mark) (outer : Int) (indent : Nat) (breaks : String) (c : Cursor) :
    Except Problem (Nat × String × Cursor × Mark) :=
  let rec spaces : Nat → Cursor → Cursor
    | 0, c => c
    | fuel + 1, c =>
      if (indent = 0 || c.mark.column < indent) && c.peek = some ' ' then spaces fuel c.skip else c
  let rec go : Nat → Cursor → String → Nat → Mark → Except Problem (String × Cursor × Nat × Mark)
    | 0, c, b, m, stop => .ok (b, c, m, stop)
    | fuel + 1, c, b, m, stop =>
      let c := spaces c.fuel c
      let m := max m c.mark.column
      if (indent = 0 || c.mark.column < indent) && c.peek = some '\t' then
        .error (Problem.ofTokens start c.mark
          "found a tab character where an indentation space is expected")
      else if !isBreak c.peek then .ok (b, c, m, stop)
      else
        let (b, c) := c.readLine b
        go fuel c b m c.mark
  match go c.fuel c breaks 0 c.mark with
  | .error p => .error p
  | .ok (b, c, m, stop) =>
    let indent :=
      if indent = 0 then max (max m (outer + 1).toNat) 1 else indent
    .ok (indent, b, c, stop)

/-- The header of a block scalar after `|` or `>`: the chomping (`-1` strip, `0` clip,
`1` keep) and the indentation indicator (zero for none), in either order. -/
def readBlockHeader (start : Mark) (c : Cursor) : Except Problem (Int × Nat × Cursor) := do
  let chompOf (ch : Option Char) : Option Int :=
    if ch = some '+' then some 1 else if ch = some '-' then some (-1) else none
  let digit (c : Cursor) : Except Problem (Option (Nat × Cursor)) :=
    match c.peek with
    | some d =>
      if d.isDigit then
        if d = '0' then .error (Problem.ofTokens start c.mark "found an indentation indicator equal to 0")
        else .ok (some (d.toNat - 48, c.skip))
      else .ok none
    | none => .ok none
  match chompOf c.peek with
  | some chomp =>
    let c := c.skip
    match ← digit c with
    | some (n, c) => return (chomp, n, c)
    | none => return (chomp, 0, c)
  | none =>
    match ← digit c with
    | some (n, c) =>
      match chompOf c.peek with
      | some chomp => return (chomp, n, c.skip)
      | none => return (0, n, c)
    | none => return (0, 0, c)

def readRestOfLine : Nat → Cursor → String → String × Cursor
  | 0, c, s => (s, c)
  | fuel + 1, c, s =>
    if isBreakOrEnd c.peek then (s, c)
    else
      let (s, c) := c.read s
      readRestOfLine fuel c s

/-- The state of a block scalar being read: its text, the break after the last line, the
breaks of the empty lines since, and whether the last line began with a blank. -/
structure BlockState where
  text : String := ""
  leadingBreak : String := ""
  trailingBreaks : String := ""
  leadingBlank : Bool := false

/-- Reads a block scalar, at `|` (literal) or `>` (folded). `outer` is the indentation of
the enclosing block collection. -/
def readBlock (literal : Bool) (outer : Int) (c : Cursor) : Except Problem (Token × Cursor) := do
  let start := c.mark
  let (chomp, increment, c) ← readBlockHeader start c.skip
  let c := c.skipBlanks c.fuel
  let c := if c.peek = some '#' then c.skipToBreak c.fuel else c
  if !isBreakOrEnd c.peek then
    throw (Problem.ofTokens start c.mark "did not find expected comment or line break")
  let c := if isBreak c.peek then c.skipLine else c
  let indent : Nat :=
    if increment > 0 then (if outer ≥ 0 then outer.toNat + increment else increment) else 0
  let (indent, breaks, c, stop) ← blockBreaks start outer indent "" c
  let rec lines : Nat → Cursor → BlockState → Mark → Except Problem (Cursor × BlockState × Mark)
    | 0, c, st, stop => .ok (c, st, stop)
    | fuel + 1, c, st, stop =>
      if c.mark.column ≠ indent || c.peek.isNone then .ok (c, st, stop)
      else
        let trailingBlank := isBlank c.peek
        let text :=
          if !literal && !st.leadingBlank && !trailingBlank && st.leadingBreak.startsWith "\n" then
            (if st.trailingBreaks.isEmpty then st.text.push ' ' else st.text)
          else st.text ++ st.leadingBreak
        let text := text ++ st.trailingBreaks
        let leadingBlank := isBlank c.peek
        let (text, c) := readRestOfLine c.fuel c text
        let (leadingBreak, c) := c.readLine ""
        match blockBreaks start outer indent "" c with
        | .error p => .error p
        | .ok (_, trailing, c, stop) =>
          lines fuel c { text, leadingBreak, trailingBreaks := trailing, leadingBlank } stop
  let (c, st, stop) ← lines c.fuel c { trailingBreaks := breaks } stop
  let text := if chomp ≠ -1 then st.text ++ st.leadingBreak else st.text
  let text := if chomp = 1 then text ++ st.trailingBreaks else text
  let style := if literal then ScalarStyle.literal else ScalarStyle.folded
  return (⟨.scalar text style, start, stop⟩, c)

end Treewalk.Yaml
