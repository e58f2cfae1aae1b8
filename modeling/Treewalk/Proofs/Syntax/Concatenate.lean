import Mathlib
import Treewalk.Proofs.Syntax.LexShift
import Treewalk.Proofs.Syntax.ParseSequence
import Treewalk.Proofs.Syntax.ReadProgram
/-!
# Programs one after another

Two programs written one after the other, with a line holding a lone `;` between them, parse
as one program: the statements of the first, then those the second has on its own. Every
position in the second part, of a statement or of the error that stops it, is moved down by the
lines of the first text and the two line feeds around the `;`, and on by their bytes; columns
stay, since the second text starts on a fresh line. The programs are bytes, and the first may
end in any of them, one that is no UTF-8 included: a line feed always starts a rune of its
own, so the runes split where the bytes do (`decodeRunes_semicolonLine`).

The lexer half rests on `scanFrom_lineFeed` (a text that lexes ends its tokens at a line feed),
`scanFrom_acc` and `scanFrom_map`; the parser half on `parseProgramFrom_semicolon` (reading goes
on after the `;` as if the input started there) and `parseProgramFrom_map`.
-/
namespace Treewalk

namespace Pos

/-- The position `lines` lines further down and `bytes` bytes further on, in the same column.
The position on line 0, which no text has and which the parser reports past the end of an
empty token list, stays where it is. -/
def shift (lines bytes : Nat) (p : Pos) : Pos :=
  if p.line = 0 then p else ⟨p.line + lines, p.column, p.offset + bytes⟩

theorem next_newline (p : Pos) : p.next (.char '\n') = ⟨p.line + 1, 1, p.offset + 1⟩ := rfl

theorem next_of_ne {r : Rune} (hr : r ≠ .char '\n') (p : Pos) :
    p.next r = ⟨p.line, p.column + 1, p.offset + r.width⟩ :=
  if_neg fun h => hr (Rune.eq_char_of_toChar h (by decide))

theorem offset_next (p : Pos) (r : Rune) : (p.next r).offset = p.offset + r.width := by
  unfold next
  split <;> rfl

theorem shift_next {lines bytes : Nat} {p : Pos} (hp : 1 ≤ p.line) (r : Rune) :
    shift lines bytes (p.next r) = (shift lines bytes p).next r := by
  have hq : (p.next r).line ≠ 0 := by
    have := Lexer.line_le_next p r
    omega
  rw [shift, if_neg hq, shift, if_neg (by omega)]
  by_cases hr : r = .char '\n'
  · subst hr
    rw [next_newline, next_newline]
    simp only [mk.injEq, true_and]
    omega
  · rw [next_of_ne hr, next_of_ne hr]
    simp only [mk.injEq, true_and]
    omega

theorem line_advance (p : Pos) (rs : List Rune) :
    (p.advance rs).line = p.line + rs.count (.char '\n') := by
  induction rs generalizing p with
  | nil => simp
  | cons r rs ih =>
    rw [advance_cons, ih, List.count_cons]
    by_cases hr : r = .char '\n'
    · subst hr
      rw [next_newline]
      simp
      omega
    · rw [next_of_ne hr]
      simp [hr]

theorem offset_advance (p : Pos) (rs : List Rune) :
    (p.advance rs).offset = p.offset + (rs.map Rune.width).sum := by
  induction rs generalizing p with
  | nil => simp
  | cons r rs ih =>
    rw [advance_cons, ih, offset_next, List.map_cons, List.sum_cons]
    omega

theorem advance_semicolonLine (rs : List Rune) :
    (((start.advance rs).next (.char '\n')).next (.char ';')).next (.char '\n') =
      shift (rs.count (.char '\n') + 2) ((rs.map Rune.width).sum + 3) start := by
  have hl := line_advance start rs
  have ho := offset_advance start rs
  rw [next_newline, next_of_ne (by decide), next_newline, shift, if_neg (by decide)]
  simp only [start, mk.injEq, true_and, Rune.width_char] at hl ho ⊢
  have hsemi : ';'.utf8Size = 1 := by decide
  omega

theorem advance_decodeRunes (p : Pos) (bs : List UInt8) :
    (p.advance (decodeRunes bs)).line = p.line + bs.count 0x0A ∧
      (p.advance (decodeRunes bs)).offset = p.offset + bs.length := by
  rw [line_advance, offset_advance, count_lineFeed_decodeRunes, sum_width_decodeRunes]
  exact ⟨rfl, rfl⟩

end Pos

theorem utf8ByteSize_eq_sum (s : String) : s.utf8ByteSize = (s.toList.map Char.utf8Size).sum := by
  rw [← String.ofList_toList (s := s)]
  generalize s.toList = l
  induction l with
  | nil => rfl
  | cons c l ih =>
    rw [String.ofList_cons, String.utf8ByteSize_append, String.utf8ByteSize_singleton, ih,
      String.toList_ofList]
    simp

namespace Lexer

theorem tokenizeRunes_ends {rs : List Rune} {ts : List Token} (h : tokenizeRunes rs = .ok ts) :
    ∃ A, ts = A ++ [⟨.eof, "", Pos.start.advance rs⟩] ∧ ∀ t ∈ A, t.kind ≠ .eof := by
  unfold tokenizeRunes at h
  cases hs : scanFrom rs Pos.start #[] with
  | error e => rw [hs] at h; cases h
  | ok out =>
    rw [hs] at h
    cases h
    obtain ⟨A, rfl, -⟩ := scanFrom_lineFeed hs
    have hk := scanFrom_kinds hs (by simp)
    simp only [Array.toList_push, List.dropLast_concat] at hk
    exact ⟨A.toList, by simp, hk⟩

/-- Lexing `R₁`, a line feed, `;`, a line feed and `R₂`, where `R₁` lexes to `A` and its end of
input: the tokens `A`, a `;`, then the tokens of `R₂` or its error, every position of them moved
past `R₁` and the `;` line. -/
theorem tokenizeRunes_append_semicolon {R₁ : List Rune} {A : List Token}
    (h : tokenizeRunes R₁ = .ok (A ++ [⟨.eof, "", Pos.start.advance R₁⟩])) (R₂ : List Rune) :
    ∃ s : Token, s.kind = .semicolon ∧
      tokenizeRunes (R₁ ++ .char '\n' :: .char ';' :: .char '\n' :: R₂) =
        ((tokenizeRunes R₂).map fun ts =>
          A ++ s :: ts.map (Token.mapPos (Pos.shift (R₁.count (.char '\n') + 2)
            ((R₁.map Rune.width).sum + 3)))).mapError
          (Error.mapPos (Pos.shift (R₁.count (.char '\n') + 2) ((R₁.map Rune.width).sum + 3))) := by
  set g := Pos.shift (R₁.count (.char '\n') + 2) ((R₁.map Rune.width).sum + 3) with hg
  unfold tokenizeRunes at h ⊢
  obtain ⟨out₁, hs₁⟩ : ∃ out₁, scanFrom R₁ Pos.start #[] = .ok out₁ := by
    cases hs : scanFrom R₁ Pos.start #[] with
    | error e => rw [hs] at h; cases h
    | ok out₁ => exact ⟨out₁, rfl⟩
  obtain ⟨A₁, rfl, hsplit⟩ := scanFrom_lineFeed hs₁
  rw [hs₁] at h
  simp only [Except.map, Except.ok.injEq, Array.toList_push, List.append_cancel_right_eq] at h
  subst h
  let q := (Pos.start.advance R₁).next (.char '\n')
  refine ⟨⟨.semicolon, "", q⟩, rfl, ?_⟩
  have hsemi : scanFrom (.char ';' :: .char '\n' :: R₂) q A₁ =
      scanFrom R₂ (g Pos.start) (A₁.push ⟨.semicolon, "", q⟩) := by
    rw [scanFrom_punct (by decide) (by decide) (by decide) (fun h => absurd h (by decide)) rfl,
      scanFrom_newline_cons, hg, ← Pos.advance_semicolonLine]
    simp [after]
    rfl
  -- what `R₂` lexes to, from the moved start and behind the tokens read so far
  have hmove := scanFrom_map (g := g) (fun p c hp => Pos.shift_next hp c) R₂ Pos.start #[]
    (by decide)
  rw [Array.map_empty] at hmove
  have hkeep := scanFrom_acc R₂ (g Pos.start) (A₁.push ⟨.semicolon, "", q⟩) #[]
  rw [Array.append_empty] at hkeep
  rw [hsplit, hsemi, hkeep, hmove]
  cases scanFrom R₂ Pos.start #[] with
  | error e => rfl
  | ok out₂ => simp [mapTokens, Except.map, Except.mapError]

end Lexer

/-- A line feed starts an encoding, so decoding splits at the separating line. -/
theorem decodeRunes_semicolonLine (P₁ P₂ : List UInt8) :
    decodeRunes (P₁ ++ [0x0A, 0x3B, 0x0A] ++ P₂) =
      decodeRunes P₁ ++ .char '\n' :: .char ';' :: .char '\n' :: decodeRunes P₂ := by
  have hsep : (0x0A : UInt8) :: 0x3B :: 0x0A :: P₂ =
      ['\n', ';', '\n'].flatMap String.utf8EncodeChar ++ P₂ := rfl
  rw [List.append_assoc, List.cons_append, List.cons_append, List.cons_append, List.nil_append,
    decodeRunes_append_first (by decide), hsep, decodeRunes_encode]
  rfl

namespace Parser

theorem parseProgramFrom_acc (limit : Option Nat) (ts : List Token) (acc acc' : Array Stmt) :
    parseProgramFrom limit ts (acc ++ acc') =
      (parseProgramFrom limit ts acc').map (acc.toList ++ ·) := by
  -- as for the lexer, the induction's own call is already unfolded on the right
  fun_induction parseProgramFrom limit ts acc' with
  | case1 acc' t rest ht => rw [parseProgramFrom_eof ht]; simp [Except.map]
  | case2 acc' t rest ht hs ih =>
    rw [parseProgramFrom.eq_1]
    simp only [hs, ↓reduceIte]
    exact ih
  | case3 acc' t rest ht hs e he =>
    rw [parseProgramFrom.eq_1]
    simp only [ht, hs, he, ↓reduceIte]
    rfl
  | case4 acc' t rest ht hs st r hr hst ih =>
    rw [parseProgramFrom_stmt ⟨ht, hs⟩ hst, Array.push_append]
    exact ih
  | case5 acc' => rw [parseProgramFrom.eq_2]; simp [Except.map]

/-- A program `P₁` that parses, then a line holding a lone `;`, then any bytes `P₂`: the
whole parses as `P₁`'s statements followed by what `P₂` parses to on its own, or fails with
the error `P₂` fails with, every position of `P₂`'s part moved down the lines of `P₁` and two
more and on the bytes of `P₁` and three more, columns kept. `P₁` may end in anything, a byte
that is no UTF-8 included: the line feed after it starts a rune of its own. -/
theorem parseBytes_append_semicolon (P₁ P₂ : List UInt8) (B₁ : Program)
    (h : parseBytes P₁ = .ok B₁) :
    parseBytes (P₁ ++ [0x0A, 0x3B, 0x0A] ++ P₂) =
      (mapProgram (Pos.shift (P₁.count 0x0A + 2) (P₁.length + 3)) (parseBytes P₂)).map
        (B₁ ++ ·) := by
  have hg : Pos.shift (P₁.count 0x0A + 2) (P₁.length + 3) =
      Pos.shift ((decodeRunes P₁).count (.char '\n') + 2)
        (((decodeRunes P₁).map Rune.width).sum + 3) := by
    rw [count_lineFeed_decodeRunes, sum_width_decodeRunes]
  rw [hg]
  set g := Pos.shift ((decodeRunes P₁).count (.char '\n') + 2)
    (((decodeRunes P₁).map Rune.width).sum + 3)
  obtain ⟨ts₁, hts₁⟩ : ∃ ts₁, Lexer.tokenizeRunes (decodeRunes P₁) = .ok ts₁ := by
    cases ht : Lexer.tokenizeRunes (decodeRunes P₁) with
    | error e => rw [parseBytes, Lexer.tokenizeBytes, ht] at h; cases h
    | ok ts₁ => exact ⟨ts₁, rfl⟩
  obtain ⟨A₁, rfl, hA₁⟩ := Lexer.tokenizeRunes_ends hts₁
  obtain ⟨s, hs, hcat⟩ := Lexer.tokenizeRunes_append_semicolon hts₁ (decodeRunes P₂)
  have he : (⟨.eof, "", Pos.start.advance (decodeRunes P₁)⟩ : Token).kind = .eof := rfl
  have hB₁ : parseProgramFrom (some maxNesting)
      (A₁ ++ [⟨.eof, "", Pos.start.advance (decodeRunes P₁)⟩]) #[] = .ok B₁ := by
    rw [parseBytes, Lexer.tokenizeBytes, hts₁] at h
    dsimp only at h
    rwa [parseTokens, parseTokensWith, closeTokens_of_eof] at h
  -- the parser's made-up position, on line 0, is not moved
  have hnil : g (current []).pos = (current []).pos := rfl
  unfold parseBytes Lexer.tokenizeBytes
  rw [decodeRunes_semicolonLine, hcat]
  cases ht₂ : Lexer.tokenizeRunes (decodeRunes P₂) with
  | error e => rfl
  | ok ts₂ =>
    obtain ⟨A₂, rfl, -⟩ := Lexer.tokenizeRunes_ends ht₂
    have hts : A₁ ++ s :: (A₂ ++ [(⟨.eof, "", Pos.start.advance (decodeRunes P₂)⟩ : Token)]).map
          (Token.mapPos g) =
        (A₁ ++ s :: A₂.map (Token.mapPos g)) ++
          [(⟨.eof, "", g (Pos.start.advance (decodeRunes P₂))⟩ : Token)] := by
      simp [Token.mapPos]
    have hacc := parseProgramFrom_acc (some maxNesting)
      ((A₂ ++ [(⟨.eof, "", Pos.start.advance (decodeRunes P₂)⟩ : Token)]).map (Token.mapPos g))
      B₁.toArray #[]
    simp only [Array.append_empty] at hacc
    dsimp only [Except.map, Except.mapError]
    rw [parseTokens, parseTokensWith, hts, closeTokens_of_eof, ← hts,
      parseProgramFrom_semicolon he hs A₁ hA₁ #[] B₁ hB₁, hacc, parseTokens, parseTokensWith,
      closeTokens_of_eof, parseProgramFrom_map hnil (some maxNesting) _ #[] #[] (by simp)]
    rfl

/-- The statement `x ;` ending in the byte `0xFF`, which is no UTF-8, then a `;` line, then the
unfinished `x +`. -/
theorem parseBytes_append_semicolon_invalidByte :
    ∃ B₁, parseBytes [0x78, 0x20, 0x3B, 0xFF] = .ok B₁ ∧
      parseBytes ([0x78, 0x20, 0x3B, 0xFF] ++ [0x0A, 0x3B, 0x0A] ++ [0x78, 0x20, 0x2B]) =
        (mapProgram (Pos.shift (([0x78, 0x20, 0x3B, 0xFF] : List UInt8).count 0x0A + 2)
          (([0x78, 0x20, 0x3B, 0xFF] : List UInt8).length + 3))
          (parseBytes [0x78, 0x20, 0x2B])).map (B₁ ++ ·) := by
  -- the bytes lex as the printed `x ; `, whose last space reads as the invalid byte does
  have hprint : ("x ; " : String) = Program.print [.expr (.ident "x" default)] := by
    decide +kernel
  obtain ⟨B₁, hparse, -⟩ := parse_print_of_nesting_le (p := [.expr (.ident "x" default)])
    (by decide +kernel) (by decide +kernel)
  rw [← hprint, parse] at hparse
  have hsame : (Lexer.tokenizeBytes [0x78, 0x20, 0x3B, 0xFF]).toOption =
      (Lexer.tokenize "x ; ").toOption := by
    decide +kernel
  have hB₁ : parseBytes [0x78, 0x20, 0x3B, 0xFF] = .ok B₁ := by
    rw [parseBytes]
    cases ht : Lexer.tokenize "x ; " with
    | error e => rw [ht] at hparse; cases hparse
    | ok ts =>
      rw [ht] at hparse hsame
      cases hb : Lexer.tokenizeBytes [0x78, 0x20, 0x3B, 0xFF] with
      | error e => rw [hb] at hsame; cases hsame
      | ok ts' =>
        rw [hb] at hsame
        cases hsame
        exact hparse
  exact ⟨B₁, hB₁, parseBytes_append_semicolon _ _ B₁ hB₁⟩

end Parser

end Treewalk
