import Treewalk.Yaml.Lexeme
/-!
# The token stream

Tokens are fetched on demand, a few ahead of the one the grammar looks at. Two things make
the stream more than a sequence of lexemes.

* A *simple key* is a scalar, a flow collection, an anchor or a tag that turns out to be a
  mapping key only when a `:` follows it on the same line within 1024 characters. The
  stream remembers where each candidate began and, when the `:` comes, puts a key token
  (and, if the key opens a new block mapping, a mapping start) back in front of it. A
  candidate that must be a key, because it stands at the indentation of its block mapping,
  is an error when the line ends without its `:`.
* Indentation opens and closes block collections: a sequence entry or a key further right
  than the current indentation pushes a level with a start token, and a line further left
  pops levels with end tokens.

While a candidate key is the next token for the grammar, more tokens are fetched until the
candidate is settled, and the grammar always has two tokens of lookahead; a problem in the
text is reported when the fetching reaches it.
-/
namespace Treewalk.Yaml

/-- A place where a simple key may begin: whether it still may, whether it must (at the
indentation of its block mapping), the number of its first token, and its place. -/
structure SimpleKey where
  possible : Bool := false
  required : Bool := false
  number : Nat := 0
  mark : Mark := {}
deriving Inhabited

/-- The state of the token stream. `queue` holds the tokens fetched but not taken, the
next one first; `parsed` counts the tokens taken. `keys` holds one candidate key per flow
level, the innermost first; `indents` the enclosing block indentations. -/
structure TokenStream where
  cursor : Cursor
  started : Bool := false
  finished : Bool := false
  flowLevel : Nat := 0
  queue : List Token := []
  parsed : Nat := 0
  available : Bool := false
  indent : Int := -1
  indents : List Int := []
  keyAllowed : Bool := false
  keys : List SimpleKey := []
  budget : Nat

namespace TokenStream

def ofList (cs : List Char) : TokenStream :=
  { cursor := Cursor.ofList cs, budget := 4 * cs.length + 64 }

/-- The deepest nesting of flow collections or block indentation the stream accepts. -/
def maxDepth : Nat := 10000

def append (s : TokenStream) (t : Token) : TokenStream := { s with queue := s.queue ++ [t] }

def insertAt (s : TokenStream) (pos : Nat) (t : Token) : TokenStream :=
  { s with queue := s.queue.take pos ++ t :: s.queue.drop pos }

def topKey (s : TokenStream) : SimpleKey := s.keys.headD {}

def setTopKey (s : TokenStream) (k : SimpleKey) : TokenStream :=
  { s with keys := k :: s.keys.tail }

/-- Drops the candidate key of the innermost flow level; a required one is an error. -/
def removeKey (s : TokenStream) : Except Problem TokenStream :=
  let k := s.topKey
  if k.possible then
    if k.required then .error (Problem.ofTokens k.mark s.cursor.mark "could not find expected ':'")
    else .ok (s.setTopKey { k with possible := false })
  else .ok s

def saveKey (s : TokenStream) : Except Problem TokenStream := do
  if s.keyAllowed then
    let k : SimpleKey :=
      { possible := true
        required := s.flowLevel = 0 && s.indent = (s.cursor.mark.column : Int)
        number := s.parsed + s.queue.length
        mark := s.cursor.mark }
    let s ← s.removeKey
    return s.setTopKey k
  else return s

/-- Whether a candidate key is still possible at the cursor: on its own line and within
1024 characters. A stale candidate is dropped; a stale required one is an error. -/
def keyValid (s : TokenStream) (k : SimpleKey) : Except Problem (Bool × SimpleKey) :=
  if !k.possible then .ok (false, k)
  else if k.mark.line < s.cursor.mark.line || k.mark.index + 1024 < s.cursor.mark.index then
    if k.required then .error (Problem.ofTokens k.mark s.cursor.mark "could not find expected ':'")
    else .ok (false, { k with possible := false })
  else .ok (true, k)

def increaseFlow (s : TokenStream) : Except Problem TokenStream :=
  let k : SimpleKey := { mark := s.cursor.mark }
  let s := { s with keys := k :: s.keys, flowLevel := s.flowLevel + 1 }
  if s.flowLevel > maxDepth then
    .error (Problem.ofTokens k.mark s.cursor.mark "exceeded max depth of 10000")
  else .ok s

def decreaseFlow (s : TokenStream) : TokenStream :=
  if s.flowLevel > 0 then { s with flowLevel := s.flowLevel - 1, keys := s.keys.tail } else s

/-- In a block, opens a collection at `column` if that is deeper than the current
indentation: its start token goes at position `number` of the stream, or at the end. -/
def rollIndent (s : TokenStream) (column : Nat) (number : Option Nat) (kind : TokenKind)
    (mark : Mark) : Except Problem TokenStream :=
  if s.flowLevel > 0 then .ok s
  else if s.indent < (column : Int) then
    let s := { s with indents := s.indent :: s.indents, indent := column }
    if s.indents.length > maxDepth then
      .error (Problem.ofTokens s.topKey.mark s.cursor.mark "exceeded max depth of 10000")
    else
      let t : Token := ⟨kind, mark, mark⟩
      match number with
      | some n => .ok (s.insertAt (n - s.parsed) t)
      | none => .ok (s.append t)
  else .ok s

/-- In a block, closes every collection deeper than `column`, each with an end token. -/
def unrollIndent (s : TokenStream) (column : Int) (scanMark : Mark) : TokenStream :=
  let endMark : Mark := { scanMark with index := scanMark.index - 1 }
  let rec go : Nat → TokenStream → TokenStream
    | 0, s => s
    | fuel + 1, s =>
      if s.indent > column then
        let s := s.append ⟨.blockEnd, endMark, endMark⟩
        go fuel { s with indent := s.indents.headD (-1), indents := s.indents.tail }
      else s
  if s.flowLevel > 0 then s else go (s.indents.length + 1) s

/-- Whether the next character after blanks and line breaks, within 512 characters, starts
a comment. -/
def commentAhead (c : Cursor) : Nat → Nat → Bool
  | 0, _ => false
  | fuel + 1, k =>
    match c.ahead k with
    | some '#' => true
    | ch => if isBlank ch || isBreak ch then commentAhead c fuel (k + 1) else false

def passToComment : Nat → Cursor → Cursor
  | 0, c => c
  | fuel + 1, c =>
    if c.peek = some '#' || c.peek.isNone then c
    else if isBreak c.peek then passToComment fuel c.skipLine
    else passToComment fuel c.skip

/-- Moves past comments: the one at the cursor, and every later one that only blanks and
line breaks separate from the one before, looking at most 512 characters ahead. -/
def skipComments : Nat → Cursor → Cursor
  | 0, c => c
  | fuel + 1, c =>
    let c := c.skipToBreak c.fuel
    if commentAhead c 512 0 then skipComments fuel (passToComment c.fuel c) else c

def skipSpaces (tabsOk : Bool) : Nat → Cursor → Cursor
  | 0, c => c
  | fuel + 1, c =>
    if c.peek = some ' ' || (tabsOk && c.peek = some '\t') then skipSpaces tabsOk fuel c.skip else c

/-- Moves to the start of the next token, past blanks, comments and line breaks. Tabs are
skipped only in flow collections and where no simple key may start; a line break in a block
lets a simple key start. -/
def scanToNext (s : TokenStream) : TokenStream :=
  let rec go : Nat → TokenStream → TokenStream
    | 0, s => s
    | fuel + 1, s =>
      let tabsOk := s.flowLevel > 0 || !s.keyAllowed
      let c := skipSpaces tabsOk s.cursor.fuel s.cursor
      let c := if c.peek = some '#' then skipComments c.fuel c else c
      if isBreak c.peek then
        let s := { s with cursor := c.skipLine }
        go fuel (if s.flowLevel = 0 then { s with keyAllowed := true } else s)
      else { s with cursor := c }
  go s.cursor.fuel s

def fetchStreamStart (s : TokenStream) : TokenStream :=
  let s := { s with indent := -1, keys := [{}], keyAllowed := true, started := true }
  s.append ⟨.streamStart, s.cursor.mark, s.cursor.mark⟩

def fetchStreamEnd (s : TokenStream) : Except Problem TokenStream := do
  let m := s.cursor.mark
  let s := if m.column ≠ 0 then
      { s with cursor := { s.cursor with mark := { m with column := 0, line := m.line + 1 } } }
    else s
  let s := s.unrollIndent (-1) s.cursor.mark
  let s ← s.removeKey
  let s := { s with keyAllowed := false }
  return s.append ⟨.streamEnd, s.cursor.mark, s.cursor.mark⟩

def fetchDirective (s : TokenStream) : Except Problem TokenStream := do
  let s := s.unrollIndent (-1) s.cursor.mark
  let s ← s.removeKey
  let s := { s with keyAllowed := false }
  let (t, c) ← readDirective s.cursor
  return { s with cursor := c }.append t

def fetchDocumentMarker (s : TokenStream) (kind : TokenKind) : Except Problem TokenStream := do
  let s := s.unrollIndent (-1) s.cursor.mark
  let s ← s.removeKey
  let s := { s with keyAllowed := false }
  let start := s.cursor.mark
  let c := s.cursor.skipN 3
  return { s with cursor := c }.append ⟨kind, start, c.mark⟩

def indicator (s : TokenStream) (kind : TokenKind) : TokenStream :=
  let start := s.cursor.mark
  let c := s.cursor.skip
  { s with cursor := c }.append ⟨kind, start, c.mark⟩

def fetchFlowStart (s : TokenStream) (kind : TokenKind) : Except Problem TokenStream := do
  let s ← s.saveKey
  let s ← s.increaseFlow
  return { s with keyAllowed := true }.indicator kind

def fetchFlowEnd (s : TokenStream) (kind : TokenKind) : Except Problem TokenStream := do
  let s ← s.removeKey
  return { s.decreaseFlow with keyAllowed := false }.indicator kind

def fetchFlowEntry (s : TokenStream) : Except Problem TokenStream := do
  let s ← s.removeKey
  return { s with keyAllowed := true }.indicator .flowEntry

def fetchBlockEntry (s : TokenStream) : Except Problem TokenStream := do
  let s ← if s.flowLevel = 0 then do
      if !s.keyAllowed then
        throw (Problem.ofTokens s.cursor.mark s.cursor.mark
          "block sequence entries are not allowed in this context")
      s.rollIndent s.cursor.mark.column none .blockSequenceStart s.cursor.mark
    else pure s
  let s ← s.removeKey
  return { s with keyAllowed := true }.indicator .blockEntry

def fetchKey (s : TokenStream) : Except Problem TokenStream := do
  let s ← if s.flowLevel = 0 then do
      if !s.keyAllowed then
        throw (Problem.ofTokens s.cursor.mark s.cursor.mark "mapping keys are not allowed in this context")
      s.rollIndent s.cursor.mark.column none .blockMappingStart s.cursor.mark
    else pure s
  let s ← s.removeKey
  return { s with keyAllowed := s.flowLevel = 0 }.indicator .key

/-- Fetches `:`. After a simple key, the key token goes back in front of it; otherwise the
value follows an explicit key or none. -/
def fetchValue (s : TokenStream) : Except Problem TokenStream := do
  let (valid, k) ← s.keyValid s.topKey
  let s := s.setTopKey k
  let s ← if valid then do
      let s := s.insertAt (k.number - s.parsed) ⟨.key, k.mark, k.mark⟩
      let s ← s.rollIndent k.mark.column (some k.number) .blockMappingStart k.mark
      let s := s.setTopKey { k with possible := false }
      pure { s with keyAllowed := false }
    else do
      let s ← if s.flowLevel = 0 then do
          if !s.keyAllowed then
            throw (Problem.ofTokens s.cursor.mark s.cursor.mark
              "mapping values are not allowed in this context")
          s.rollIndent s.cursor.mark.column none .blockMappingStart s.cursor.mark
        else pure s
      pure { s with keyAllowed := s.flowLevel = 0 }
  return s.indicator .value

def fetchKeyCandidate (s : TokenStream) (read : Cursor → Except Problem (Token × Cursor)) :
    Except Problem TokenStream := do
  let s ← s.saveKey
  let s := { s with keyAllowed := false }
  let (t, c) ← read s.cursor
  return { s with cursor := c }.append t

def fetchBlockScalar (s : TokenStream) (literal : Bool) : Except Problem TokenStream := do
  let s ← s.removeKey
  let s := { s with keyAllowed := true }
  let (t, c) ← readBlock literal s.indent s.cursor
  return { s with cursor := c }.append t

def fetchPlainScalar (s : TokenStream) : Except Problem TokenStream := do
  let s ← s.saveKey
  let (t, c, afterBreak) ← readPlain (s.flowLevel > 0) s.indent s.cursor
  return { s with cursor := c, keyAllowed := afterBreak }.append t

/-- After a token, moves past a comment that ends its line, unless a line was broken since
or the token was a sequence entry. -/
def skipLineComment (s : TokenStream) : TokenStream :=
  let lastIsEntry := match s.queue.getLast? with
    | some t => t.kind.isBlockEntry
    | none => false
  if lastIsEntry || s.cursor.newlines > 0 then s
  else
    let c := s.cursor.skipBlanks 512
    if c.peek = some '#' then { s with cursor := c.skipToBreak c.fuel } else s

/-- Fetches the token that starts at the cursor, after the markers of the stream, of
directives and of documents. -/
def fetchContent (s : TokenStream) : Except Problem TokenStream :=
  let c := s.cursor
  let ch := c.peek
  let next := c.ahead 1
  let inFlow := s.flowLevel > 0
  match ch with
  | some '[' => s.fetchFlowStart .flowSequenceStart
  | some '{' => s.fetchFlowStart .flowMappingStart
  | some ']' => s.fetchFlowEnd .flowSequenceEnd
  | some '}' => s.fetchFlowEnd .flowMappingEnd
  | some ',' => s.fetchFlowEntry
  | _ =>
    if ch = some '-' && isBlankOrEnd next then s.fetchBlockEntry
    else if ch = some '?' && (inFlow || isBlankOrEnd next) then s.fetchKey
    else if ch = some ':' && (inFlow || isBlankOrEnd next) then s.fetchValue
    else if ch = some '*' then s.fetchKeyCandidate (readAnchor true)
    else if ch = some '&' then s.fetchKeyCandidate (readAnchor false)
    else if ch = some '!' then s.fetchKeyCandidate (readTag inFlow)
    else if ch = some '|' && !inFlow then s.fetchBlockScalar true
    else if ch = some '>' && !inFlow then s.fetchBlockScalar false
    else if ch = some '\'' then s.fetchKeyCandidate (readQuoted true)
    else if ch = some '"' then s.fetchKeyCandidate (readQuoted false)
    else if !(isBlankOrEnd ch || isOneOf "-?:,[]\x7b\x7d#&*!|>'\"%@" ch || ch = some '\x60') ||
        (ch = some '-' && !isBlank next) ||
        (!inFlow && (ch = some '?' || ch = some ':') && !isBlankOrEnd next) then
      s.fetchPlainScalar
    else
      .error (Problem.ofTokens c.mark c.mark "found character that cannot start any token")

def fetchNext (s : TokenStream) : Except Problem TokenStream :=
  if !s.started then .ok s.fetchStreamStart
  else
    let scanMark := s.cursor.mark
    let s := s.scanToNext
    let s := s.unrollIndent s.cursor.mark.column scanMark
    let c := s.cursor
    if c.peek.isNone then s.fetchStreamEnd
    else if c.mark.column = 0 && c.peek = some '%' then s.fetchDirective
    else if c.mark.column = 0 && c.ahead 0 = some '-' && c.ahead 1 = some '-' &&
        c.ahead 2 = some '-' && isBlankOrEnd (c.ahead 3) then
      s.fetchDocumentMarker .documentStart
    else if c.mark.column = 0 && c.ahead 0 = some '.' && c.ahead 1 = some '.' &&
        c.ahead 2 = some '.' && isBlankOrEnd (c.ahead 3) then
      s.fetchDocumentMarker .documentEnd
    else (s.fetchContent).map skipLineComment

/-- Checks the possible candidate key that begins at token `number`, if there is one:
whether it is still valid, with the list of keys where a stale one is no longer
possible. -/
def settleKeyAt (s : TokenStream) (number : Nat) :
    List SimpleKey → Except Problem (Option (Bool × List SimpleKey))
  | [] => .ok none
  | k :: rest =>
    if k.possible && k.number == number then
      match s.keyValid k with
      | .error p => .error p
      | .ok (valid, k') => .ok (some (valid, k' :: rest))
    else
      match settleKeyAt s number rest with
      | .ok (some (valid, rest')) => .ok (some (valid, k :: rest'))
      | r => r

def atLeastThree {α : Type} : List α → Bool
  | _ :: _ :: _ :: _ => true
  | _ => false

/-- Fetches tokens until the grammar may look at the next one: two more must be queued
behind it, and if it may begin a simple key, that key must be settled. -/
def fetchMore (s : TokenStream) : Except Problem TokenStream :=
  let rec go : Nat → TokenStream → Except Problem TokenStream
    | 0, s => .ok { s with available := true }
    | fuel + 1, s =>
      if atLeastThree s.queue then
        match settleKeyAt s s.parsed s.keys with
        | .error p => .error p
        | .ok none => .ok { s with available := true }
        | .ok (some (valid, keys)) =>
          let s := { s with keys }
          if valid then
            match s.fetchNext with
            | .ok s => go fuel s
            | .error p => .error p
          else .ok { s with available := true }
      else
        match s.fetchNext with
        | .ok s => go fuel s
        | .error p => .error p
  go s.budget s

def peek (s : TokenStream) : Except Problem (Token × TokenStream) := do
  let s ← if s.available then pure s else s.fetchMore
  return (s.queue.headD ⟨.streamEnd, s.cursor.mark, s.cursor.mark⟩, s)

def skipToken (s : TokenStream) : TokenStream :=
  match s.queue with
  | t :: rest =>
    { s with
      available := false
      parsed := s.parsed + 1
      finished := t.kind.isStreamEnd
      queue := rest }
  | [] => { s with available := false }

end TokenStream

end Treewalk.Yaml
