import Treewalk.Syntax.Rune
/-!
# Source positions

A position in a source is a line, a column and a byte offset. Lines count only line feeds and
start at 1; the column counts runes since the last line feed, also from 1, so a tab and an
invalid byte are one column each; the offset counts bytes from the start of the source, from 0.
-/
namespace Treewalk

/-- A place in a source: 1-based line and column (in runes), 0-based byte offset. -/
structure Pos where
  line : Nat
  column : Nat
  offset : Nat
deriving DecidableEq, Repr, Inhabited

namespace Pos

def start : Pos := ⟨1, 1, 0⟩

/-- The position just after the rune `r` read at `p`. -/
def next (p : Pos) (r : Rune) : Pos :=
  if r.toChar = '\n' then ⟨p.line + 1, 1, p.offset + r.width⟩
  else ⟨p.line, p.column + 1, p.offset + r.width⟩

def advance (p : Pos) (rs : List Rune) : Pos :=
  rs.foldl next p

def label (p : Pos) : String :=
  toString p.line ++ ":" ++ toString p.column

@[simp] theorem advance_nil (p : Pos) : p.advance [] = p := rfl

@[simp] theorem advance_cons (p : Pos) (r : Rune) (rs : List Rune) :
    p.advance (r :: rs) = (p.next r).advance rs := rfl

theorem advance_append (p : Pos) (xs ys : List Rune) :
    p.advance (xs ++ ys) = (p.advance xs).advance ys := by
  simp [advance, List.foldl_append]

end Pos

end Treewalk
