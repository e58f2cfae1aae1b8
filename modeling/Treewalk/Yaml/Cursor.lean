/-!
# Reading YAML text

A YAML text is read one character at a time. The reader knows a handful of character
classes: blanks (space and tab), line breaks (line feed, carriage return, the pair of them,
next line U+0085, and the line and paragraph separators U+2028 and U+2029), and the end of
the text, which counts as a break wherever a break may stand.

A `Cursor` is the text not yet read together with the `Mark` of its first character: how
many characters came before, and its line and column, all counted from zero. Every step of
the reader moves a cursor forward; a `Problem` records why a text is refused and which line
its message cites.
-/
namespace Treewalk.Yaml

/-- A place in the text: characters before it, and its line and column, from zero. -/
structure Mark where
  index : Nat := 0
  line : Nat := 0
  column : Nat := 0
deriving Repr, Inhabited, BEq

/-- Why a text is refused: the message and the line it cites, zero for none. -/
structure Problem where
  line : Nat
  text : String
deriving Repr, Inhabited

def Problem.message (p : Problem) : String :=
  "yaml: " ++ (if p.line = 0 then "" else "line " ++ toString p.line ++ ": ") ++ p.text

/-- A problem met while cutting the text into tokens. The line cited is the one after the
place where the offending construct began, or, when that was the first line, the one after
the place where the problem showed. -/
def Problem.ofTokens (context problem : Mark) (text : String) : Problem :=
  if context.line ≠ 0 then ⟨context.line + 1, text⟩
  else if problem.line ≠ 0 then ⟨problem.line + 1, text⟩
  else ⟨0, text⟩

/-- A problem met while fitting tokens to the grammar. The line cited is that of the place
where the offending construct began, or else that of the offending token, both as counted
from zero. -/
def Problem.ofGrammar (context problem : Mark) (text : String) : Problem :=
  if context.line ≠ 0 then ⟨context.line, text⟩ else ⟨problem.line, text⟩

def Problem.plain (text : String) : Problem := ⟨0, text⟩

def isBlank : Option Char → Bool
  | some ' ' | some '\t' => true
  | _ => false

def isBreak : Option Char → Bool
  | some c => c = '\r' || c = '\n' || c = '\x85' || c = '\u2028' || c = '\u2029'
  | none => false

def isBreakOrEnd (c : Option Char) : Bool := isBreak c || c.isNone

def isBlankOrEnd (c : Option Char) : Bool := isBlank c || isBreakOrEnd c

/-- Whether a character may appear in a directive name, tag handle or anchor: an ASCII
letter or digit, `_` or `-`. -/
def isWordChar : Option Char → Bool
  | some c => c.isAlphanum || c = '_' || c = '-'
  | none => false

def isDigitChar : Option Char → Bool
  | some c => c.isDigit
  | none => false

def isOneOf (set : String) : Option Char → Bool
  | some c => set.toList.contains c
  | none => false

/-- The text still to read, with the place of its first character. `newlines` counts the
line breaks passed since the last character that is not a blank; `limit` is one more than
the length of the whole text, a bound for every loop over it. -/
structure Cursor where
  rest : List Char
  mark : Mark := {}
  newlines : Nat := 0
  limit : Nat := 0
deriving Inhabited

namespace Cursor

def ofList (cs : List Char) : Cursor := { rest := cs, limit := cs.length + 1 }

def peek (c : Cursor) : Option Char := c.rest.head?

def ahead (c : Cursor) (k : Nat) : Option Char := c.rest[k]?

def skip (c : Cursor) : Cursor :=
  match c.rest with
  | [] => c
  | x :: rest =>
    { c with
      rest
      mark := { c.mark with index := c.mark.index + 1, column := c.mark.column + 1 }
      newlines := if x = ' ' ∨ x = '\t' then c.newlines else 0 }

def skipN (c : Cursor) : Nat → Cursor
  | 0 => c
  | n + 1 => c.skip.skipN n

/-- Moves past one line break; a carriage return and line feed together are one. -/
def skipLine (c : Cursor) : Cursor :=
  match c.rest with
  | '\r' :: '\n' :: rest =>
    { c with rest, mark := ⟨c.mark.index + 2, c.mark.line + 1, 0⟩, newlines := c.newlines + 1 }
  | x :: rest =>
    if isBreak (some x) then
      { c with rest, mark := ⟨c.mark.index + 1, c.mark.line + 1, 0⟩, newlines := c.newlines + 1 }
    else c
  | [] => c

def read (c : Cursor) (acc : String) : String × Cursor :=
  match c.peek with
  | some x => (acc.push x, c.skip)
  | none => (acc, c)

/-- Reads one line break onto `acc`: carriage return, line feed, their pair and next line
become a line feed; the line and paragraph separators stay themselves. -/
def readLine (c : Cursor) (acc : String) : String × Cursor :=
  match c.rest with
  | '\r' :: '\n' :: _ | '\r' :: _ | '\n' :: _ | '\x85' :: _ => (acc.push '\n', c.skipLine)
  | '\u2028' :: _ => (acc.push '\u2028', c.skipLine)
  | '\u2029' :: _ => (acc.push '\u2029', c.skipLine)
  | _ => (acc, c)

def skipBlanks : Nat → Cursor → Cursor
  | 0, c => c
  | fuel + 1, c => if isBlank c.peek then skipBlanks fuel c.skip else c

def skipToBreak : Nat → Cursor → Cursor
  | 0, c => c
  | fuel + 1, c => if isBreakOrEnd c.peek then c else skipToBreak fuel c.skip

def readWord : Nat → Cursor → String → String × Cursor
  | 0, c, acc => (acc, c)
  | fuel + 1, c, acc =>
    if isWordChar c.peek then
      let (acc, c) := c.read acc
      readWord fuel c acc
    else (acc, c)

/-- Whether a document marker (`---` or `...`, then a blank, a break or the end) starts at
the cursor, which must be at the start of a line. -/
def atDocumentMarker (c : Cursor) : Bool :=
  c.mark.column = 0 &&
    ((c.ahead 0 = some '-' && c.ahead 1 = some '-' && c.ahead 2 = some '-') ||
      (c.ahead 0 = some '.' && c.ahead 1 = some '.' && c.ahead 2 = some '.')) &&
    isBlankOrEnd (c.ahead 3)

def fuel (c : Cursor) : Nat := c.limit

end Cursor

end Treewalk.Yaml
