/-!
# Runes

A source is a sequence of bytes, which the lexer reads one rune at a time, decoding UTF-8 as
Go's `utf8.DecodeRune` does: where the bytes start with the valid encoding of a character, the
rune is that character and takes its bytes; anywhere else the rune is the first byte alone,
which the lexer sees as the replacement character U+FFFD. An invalid byte is thus one rune of
one byte. Valid means what the standard says: no overlong form, no surrogate, nothing past
U+10FFFF.
-/
namespace Treewalk

/-- What the lexer reads at a time: a character, or a byte that starts no valid encoding. -/
inductive Rune
  | char (c : Char)
  | invalid (b : UInt8)
deriving DecidableEq, Repr, Inhabited

namespace Rune

/-- The character the lexer sees: an invalid byte reads as U+FFFD. -/
def toChar : Rune → Char
  | char c => c
  | invalid _ => '�'

def width : Rune → Nat
  | char c => c.utf8Size
  | invalid _ => 1

theorem width_pos (r : Rune) : 0 < r.width := by
  cases r with
  | char c => exact c.utf8Size_pos
  | invalid _ => exact Nat.one_pos

/-- The rune that the bytes `b :: rest` start with; an encoding is at most four bytes long, so
only those are read. -/
def decode (b : UInt8) (rest : List UInt8) : Rune :=
  match (b :: rest.take 3).toByteArray.utf8DecodeChar? 0 with
  | some c => char c
  | none => invalid b

end Rune

/-- The runes of a byte sequence, each decoded where the one before it ends. -/
def decodeRunes : List UInt8 → List Rune
  | [] => []
  | b :: rest =>
    let r := Rune.decode b rest
    r :: decodeRunes ((b :: rest).drop r.width)
termination_by bs => bs.length
decreasing_by
  have := (Rune.decode b rest).width_pos
  simp only [List.length_drop, List.length_cons]
  omega

end Treewalk
