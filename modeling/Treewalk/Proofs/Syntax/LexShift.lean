import Mathlib
import Treewalk.Proofs.Syntax.LexAppend
import Treewalk.Proofs.Syntax.LexPrinted
import Treewalk.Proofs.Syntax.Relocate
/-!
# Lexing past a line feed

Three facts about the lexer that let a text be read after another one. A line feed ends every
token and every line comment, so a text that lexes can be followed by a line feed and more:
its tokens come first, then the tokens of what follows, read from the position after the line
feed (`scanFrom_lineFeed`). The lexer copies its position into the tokens and errors it makes
and moves it only by reading runes, so starting further down the text moves every
position it reports alike (`scanFrom_map`). And the tokens read before do not change what is
read next (`scanFrom_acc`).
-/
namespace Treewalk.Lexer

theorem partOfName_newline : partOfName (.char '\n') = false := by decide

theorem scanFrom_newline_cons {ds : List Rune} {p : Pos} {acc : Array Token} :
    scanFrom (.char '\n' :: ds) p acc = scanFrom ds (p.next (.char '\n')) acc := by
  rw [scanFrom_other (by decide) (by decide) (by decide) (fun h => absurd h (by decide)),
    punctuation_newline]

theorem takeWhile_append_newline {q : Rune → Bool} (hq : q (.char '\n') = false)
    (r ds : List Rune) : (r ++ .char '\n' :: ds).takeWhile q = r.takeWhile q := by
  induction r with
  | nil => simp [hq]
  | cons x r ih => by_cases hx : q x <;> simp [hx, ih]

theorem dropWhile_append_newline {q : Rune → Bool} (hq : q (.char '\n') = false)
    (r ds : List Rune) : (r ++ .char '\n' :: ds).dropWhile q = r.dropWhile q ++ .char '\n' :: ds := by
  induction r with
  | nil => simp [hq]
  | cons x r ih => by_cases hx : q x <;> simp [hx, ih]

theorem scanNumber_append_newline (r ds : List Rune) :
    scanNumber (r ++ .char '\n' :: ds) = ((scanNumber r).1, (scanNumber r).2 ++ .char '\n' :: ds) := by
  unfold scanNumber
  rw [dropWhile_append_newline (by decide), takeWhile_append_newline (by decide)]
  generalize r.dropWhile digit = D
  rcases D with _ | ⟨x, _ | ⟨d, more⟩⟩
  · rfl
  · by_cases hx : x = .char '.'
    · subst hx
      rfl
    · simp only [List.cons_append, List.nil_append]
      split
      · next heq => simp at heq; exact absurd heq.1 hx
      · rfl
  · by_cases hx : x = .char '.'
    · subst hx
      by_cases hd : digit d = true
      · simp only [List.cons_append, hd, if_true, takeWhile_append_newline (q := digit)
          (by decide), dropWhile_append_newline (q := digit) (by decide)]
      · simp only [List.cons_append, hd, Bool.false_eq_true, if_false]
    · simp only [List.cons_append]
      split
      · next heq => simp at heq; exact absurd heq.1 hx
      · split
        · next heq => simp at heq; exact absurd heq.1 hx
        · rfl

theorem scanNumber_fst_append_snd (r : List Rune) : (scanNumber r).1 ++ (scanNumber r).2 = r := by
  conv_rhs => rw [← List.takeWhile_append_dropWhile (p := digit) (l := r)]
  unfold scanNumber
  split
  · next d more heq =>
    rw [heq]
    split
    · simp [List.takeWhile_append_dropWhile]
    · rfl
  · rfl

theorem punctuation_newline_single (c : Rune) :
    punctuation c [.char '\n'] = (punctuation c []).map (fun q => (q.1, q.2 ++ [.char '\n'])) := by
  unfold punctuation
  split <;> simp_all

theorem punctuation_append_newline (c : Rune) (r ds : List Rune) :
    punctuation c (r ++ .char '\n' :: ds) =
      (punctuation c r).map (fun q => (q.1, q.2 ++ .char '\n' :: ds)) := by
  cases r with
  | cons x t => exact punctuation_append (List.cons_ne_nil x t) _
  | nil =>
    rw [List.nil_append, punctuation_cons, punctuation_newline_single, Option.map_map]
    congr 1
    funext q
    simp

theorem skipLine_append_newline {r : List Rune} (hr : .char '\n' ∉ r) (ds : List Rune) :
    skipLine r = [] ∧ skipLine (r ++ .char '\n' :: ds) = ds := by
  have hall : ∀ x ∈ r, (x.toChar != '\n') = true := fun x hx => by
    simp only [bne_iff_ne, ne_eq]
    intro hx'
    rw [Rune.eq_char_of_toChar hx' (by decide)] at hx
    exact hr hx
  unfold skipLine
  rw [List.dropWhile_eq_nil_iff.mpr hall, List.dropWhile_append_of_pos hall]
  simp

theorem scanFrom_block {r rest : List Rune} {p : Pos} {acc : Array Token}
    (hs : skipBlock r = some rest) :
    scanFrom (.char '/' :: .char '*' :: r) p acc =
      scanFrom rest (after p (.char '/' :: .char '*' :: r) rest) acc := by
  rw [scanFrom.eq_3]
  split
  · next h => rw [hs] at h; cases h
  · next rest' h => rw [hs] at h; cases h; rfl

theorem scanFrom_block_none {r : List Rune} {p : Pos} {acc : Array Token}
    (hs : skipBlock r = none) :
    scanFrom (.char '/' :: .char '*' :: r) p acc =
      .error { fault := .unterminatedComment, pos := some p, incomplete := true } := by
  rw [scanFrom.eq_3]
  split
  · rfl
  · next rest' h => rw [hs] at h; cases h

theorem scanFrom_quote_none {r : List Rune} {p : Pos} {acc : Array Token}
    (hs : scanString r = none) :
    scanFrom (.char '"' :: r) p acc =
      .error { fault := .unterminatedString, pos := some p, incomplete := true } := by
  rw [scanFrom.eq_4 _ _ _ _ (fun _ h => absurd h (by decide)) (fun _ h => absurd h (by decide)),
    if_neg (by decide), if_neg (by decide), if_pos (Rune.toChar_char '"')]
  split
  · rfl
  · next d rest h => rw [hs] at h; cases h

theorem scanFrom_punct {c : Rune} {r rest : List Rune} {k : TokenKind} {p : Pos}
    {acc : Array Token} (hn : isNameStart c.toChar = false) (hd : digit c = false)
    (hq : c.toChar ≠ '"') (hs : c = .char '/' → r.head? ≠ some (.char '/') ∧ r.head? ≠ some (.char '*'))
    (hk : punctuation c r = some (k, rest)) :
    scanFrom (c :: r) p acc = scanFrom rest (after p (c :: r) rest) (acc.push ⟨k, "", p⟩) := by
  rw [scanFrom_other hn hd hq hs, hk]

theorem scanFrom_skip {c : Rune} {r : List Rune} {p : Pos} {acc : Array Token}
    (hn : isNameStart c.toChar = false) (hd : digit c = false) (hq : c.toChar ≠ '"')
    (hs : c = .char '/' → r.head? ≠ some (.char '/') ∧ r.head? ≠ some (.char '*'))
    (hk : punctuation c r = none) :
    scanFrom (c :: r) p acc = scanFrom r (p.next c) acc := by
  rw [scanFrom_other hn hd hq hs, hk]

theorem no_comment {c : Rune} {r : List Rune}
    (h₁ : ∀ r', c = .char '/' → r = .char '/' :: r' → False)
    (h₂ : ∀ r', c = .char '/' → r = .char '*' :: r' → False) :
    c = .char '/' → r.head? ≠ some (.char '/') ∧ r.head? ≠ some (.char '*') := by
  intro hc
  cases r with
  | nil => simp
  | cons x t =>
    simp only [List.head?_cons, ne_eq, Option.some.injEq]
    exact ⟨fun hx => h₁ t hc (by rw [hx]), fun hx => h₂ t hc (by rw [hx])⟩

theorem no_comment_newline {c : Rune} {r : List Rune}
    (h₁ : ∀ r', c = .char '/' → r = .char '/' :: r' → False)
    (h₂ : ∀ r', c = .char '/' → r = .char '*' :: r' → False) (ds : List Rune) :
    c = .char '/' → (r ++ .char '\n' :: ds).head? ≠ some (.char '/') ∧
      (r ++ .char '\n' :: ds).head? ≠ some (.char '*') := by
  cases r with
  | nil => intro; simp
  | cons x t => exact no_comment_append (List.cons_ne_nil x t) h₁ h₂ _

/-! ### Positions -/

theorem advance_after {p : Pos} {cs rest : List Rune} (h : rest <:+ cs) :
    (after p cs rest).advance rest = p.advance cs := by
  obtain ⟨l, rfl⟩ := h
  simp [after, Pos.advance_append]

theorem after_append_self (p : Pos) (l ds : List Rune) : after p (l ++ ds) ds = p.advance l := by
  simp [after]

/-! ### Past a line feed -/

/-- A text that lexes, followed by a line feed and more: the end of input is at the end of the
text, and the tokens before it are followed by those of what comes after the line feed, read
from the position after it. -/
theorem scanFrom_lineFeed {cs : List Rune} {p : Pos} {acc out : Array Token}
    (h : scanFrom cs p acc = .ok out) :
    ∃ A, out = A.push ⟨.eof, "", p.advance cs⟩ ∧
      ∀ ds, scanFrom (cs ++ .char '\n' :: ds) p acc =
        scanFrom ds ((p.advance cs).next (.char '\n')) A := by
  fun_induction scanFrom cs p acc with
  | case1 p acc =>
    simp only [Except.ok.injEq] at h
    exact ⟨acc, h.symm, fun ds => by rw [List.nil_append, scanFrom_newline_cons]; rfl⟩
  | case2 p acc r _ ih =>
    obtain ⟨A, hout, heq⟩ := ih h
    have hsuf : skipLine r <:+ .char '/' :: .char '/' :: r :=
      (skipLine_suffix r).trans ((List.suffix_cons _ _).trans (List.suffix_cons _ _))
    rw [advance_after hsuf] at hout heq
    refine ⟨A, hout, fun ds => ?_⟩
    show scanFrom (.char '/' :: .char '/' :: (r ++ .char '\n' :: ds)) p acc = _
    rw [scanFrom.eq_2]
    by_cases hr : .char '\n' ∈ r
    · -- the comment ends at a line feed of the text
      rw [skipLine_append hr, show (.char '/' :: .char '/' :: (r ++ .char '\n' :: ds)) =
        (.char '/' :: .char '/' :: r) ++ .char '\n' :: ds from rfl, after_append hsuf.length_le]
      exact heq ds
    · -- the comment runs to the end of the text, and the line feed ends it
      obtain ⟨hs, hs'⟩ := skipLine_append_newline hr ds
      rw [← heq ds, hs, hs', List.nil_append, scanFrom_newline_cons,
        show (.char '/' :: .char '/' :: (r ++ .char '\n' :: ds)) =
          ((.char '/' :: .char '/' :: r) ++ [.char '\n']) ++ ds by simp,
        after_append_self, Pos.advance_append, after, List.length_nil, Nat.sub_zero,
        List.take_length]
      rfl
  | case3 => cases h
  | case4 p acc r rest hs _ ih =>
    obtain ⟨A, hout, heq⟩ := ih h
    have hsuf : rest <:+ .char '/' :: .char '*' :: r :=
      (skipBlock_suffix hs).trans ((List.suffix_cons _ _).trans (List.suffix_cons _ _))
    rw [advance_after hsuf] at hout heq
    refine ⟨A, hout, fun ds => ?_⟩
    show scanFrom (.char '/' :: .char '*' :: (r ++ .char '\n' :: ds)) p acc = _
    rw [scanFrom.eq_3]
    split
    · next h' => rw [skipBlock_append hs] at h'; cases h'
    · next rest' h' =>
      rw [skipBlock_append hs] at h'
      cases h'
      rw [show (.char '/' :: .char '*' :: (r ++ .char '\n' :: ds)) =
        (.char '/' :: .char '*' :: r) ++ .char '\n' :: ds from rfl, after_append hsuf.length_le]
      exact heq ds
  | case5 p acc c r _ _ hn _ _ ih =>
    obtain ⟨A, hout, heq⟩ := ih h
    have hpos : (p.advance (c :: r.takeWhile partOfName)).advance (r.dropWhile partOfName) =
        p.advance (c :: r) := by
      rw [← Pos.advance_append, List.cons_append, List.takeWhile_append_dropWhile]
    rw [hpos] at hout heq
    refine ⟨A, hout, fun ds => ?_⟩
    rw [List.cons_append, scanFrom_name hn, takeWhile_append_newline partOfName_newline,
      dropWhile_append_newline partOfName_newline]
    exact heq ds
  | case6 p acc c r _ _ _ hd _ _ ih =>
    obtain ⟨A, hout, heq⟩ := ih h
    have hpos : (p.advance (c :: (scanNumber r).1)).advance (scanNumber r).2 =
        p.advance (c :: r) := by
      rw [← Pos.advance_append, List.cons_append, scanNumber_fst_append_snd]
    rw [hpos] at hout heq
    refine ⟨A, hout, fun ds => ?_⟩
    rw [List.cons_append, scanFrom_digit hd, scanNumber_append_newline]
    exact heq ds
  | case7 => cases h
  | case8 p acc c r _ _ _ _ hq d rest hs _ ih =>
    obtain rfl := Rune.eq_char_of_toChar hq (by decide)
    obtain ⟨A, hout, heq⟩ := ih h
    have hsuf : rest <:+ .char '"' :: r := (scanString_suffix hs).trans (List.suffix_cons _ _)
    rw [advance_after hsuf] at hout heq
    refine ⟨A, hout, fun ds => ?_⟩
    rw [List.cons_append, scanFrom_quote (scanString_append hs (.char '\n' :: ds)),
      show (.char '"' :: (r ++ .char '\n' :: ds)) = (.char '"' :: r) ++ .char '\n' :: ds from rfl,
      after_append hsuf.length_le]
    exact heq ds
  | case9 p acc c r h₁ h₂ hn hd hq k rest hk _ ih =>
    obtain ⟨A, hout, heq⟩ := ih h
    have hsuf : rest <:+ c :: r := (punctuation_suffix hk).trans (List.suffix_cons _ _)
    rw [advance_after hsuf] at hout heq
    refine ⟨A, hout, fun ds => ?_⟩
    rw [List.cons_append,
      scanFrom_other (by simpa using hn) (by simpa using hd) hq (no_comment_newline h₁ h₂ ds),
      punctuation_append_newline, hk]
    dsimp only [Option.map]
    rw [show (c :: (r ++ .char '\n' :: ds)) = (c :: r) ++ .char '\n' :: ds from rfl,
      after_append hsuf.length_le]
    exact heq ds
  | case10 p acc c r h₁ h₂ hn hd hq hk ih =>
    obtain ⟨A, hout, heq⟩ := ih h
    refine ⟨A, hout, fun ds => ?_⟩
    rw [List.cons_append,
      scanFrom_other (by simpa using hn) (by simpa using hd) hq (no_comment_newline h₁ h₂ ds),
      punctuation_append_newline, hk]
    exact heq ds

/-! ### The tokens read before -/

/-- The tokens already read are kept in front of what is read next, and change nothing of it. -/
theorem scanFrom_acc (cs : List Rune) (p : Pos) (acc acc' : Array Token) :
    scanFrom cs p (acc ++ acc') = (scanFrom cs p acc').map (acc ++ ·) := by
  -- the induction's own call is already unfolded on the right; only the left is rewritten
  fun_induction scanFrom cs p acc' with
  | case1 p acc' => rw [scanFrom.eq_1, Array.push_append]; rfl
  | case2 p acc' r _ ih => rw [scanFrom.eq_2]; exact ih
  | case3 p acc' r hs => rw [scanFrom_block_none hs]; rfl
  | case4 p acc' r rest hs _ ih => rw [scanFrom_block hs]; exact ih
  | case5 p acc' c r _ _ hn _ _ ih => rw [scanFrom_name hn, Array.push_append]; exact ih
  | case6 p acc' c r _ _ _ hd _ _ ih => rw [scanFrom_digit hd, Array.push_append]; exact ih
  | case7 p acc' c r _ _ _ _ hq hs =>
    obtain rfl := Rune.eq_char_of_toChar hq (by decide)
    rw [scanFrom_quote_none hs]
    rfl
  | case8 p acc' c r _ _ _ _ hq d rest hs _ ih =>
    obtain rfl := Rune.eq_char_of_toChar hq (by decide)
    rw [scanFrom_quote hs, Array.push_append]
    exact ih
  | case9 p acc' c r h₁ h₂ hn hd hq k rest hk _ ih =>
    rw [scanFrom_punct (by simpa using hn) (by simpa using hd) hq (no_comment h₁ h₂) hk,
      Array.push_append]
    exact ih
  | case10 p acc' c r h₁ h₂ hn hd hq hk ih =>
    rw [scanFrom_skip (by simpa using hn) (by simpa using hd) hq (no_comment h₁ h₂) hk]
    exact ih

theorem kinds_push {acc : Array Token} {t : Token} (hacc : ∀ u ∈ acc.toList, u.kind ≠ .eof)
    (ht : t.kind ≠ .eof) : ∀ u ∈ (acc.push t).toList, u.kind ≠ .eof := by
  intro u hu
  simp only [Array.toList_push, List.mem_append, List.mem_singleton] at hu
  rcases hu with hu | rfl
  · exact hacc u hu
  · exact ht

theorem scanFrom_kinds {cs : List Rune} {p : Pos} {acc out : Array Token}
    (h : scanFrom cs p acc = .ok out) (hacc : ∀ t ∈ acc.toList, t.kind ≠ .eof) :
    ∀ t ∈ out.toList.dropLast, t.kind ≠ .eof := by
  fun_induction scanFrom cs p acc with
  | case1 p acc =>
    simp only [Except.ok.injEq] at h
    subst h
    simpa using hacc
  | case2 | case4 | case10 => rename_i ih; exact ih h hacc
  | case3 | case7 => cases h
  | case5 p acc c r _ _ _ name _ ih =>
    refine ih h (kinds_push hacc ?_)
    unfold nameToken
    split <;> simp
  | case6 | case8 => rename_i ih; exact ih h (kinds_push hacc (by simp))
  | case9 p acc c r _ _ _ _ _ k rest hk _ ih =>
    refine ih h (kinds_push hacc ?_)
    unfold punctuation at hk
    split at hk <;> simp only [Option.some.injEq, Prod.mk.injEq, reduceCtorEq] at hk <;>
      (try obtain ⟨rfl, -⟩ := hk) <;> simp

/-! ### Moving the start -/

theorem line_le_next (p : Pos) (c : Rune) : p.line ≤ (p.next c).line := by
  unfold Pos.next
  split <;> simp

theorem line_le_advance (p : Pos) (cs : List Rune) : p.line ≤ (p.advance cs).line := by
  induction cs generalizing p with
  | nil => exact le_rfl
  | cons c cs ih => exact (line_le_next p c).trans (ih _)

def mapTokens (g : Pos → Pos) : Except Error (Array Token) → Except Error (Array Token)
  | .ok out => .ok (out.map (Token.mapPos g))
  | .error e => .error (e.mapPos g)

section Moving

variable {g : Pos → Pos} (hg : ∀ p (c : Rune), 1 ≤ p.line → g (p.next c) = (g p).next c)
include hg

theorem advance_map {p : Pos} (hp : 1 ≤ p.line) (cs : List Rune) :
    g (p.advance cs) = (g p).advance cs := by
  induction cs generalizing p with
  | nil => rfl
  | cons c cs ih =>
    rw [Pos.advance_cons, Pos.advance_cons, ih (hp.trans (line_le_next p c)), hg p c hp]

theorem after_map {p : Pos} (hp : 1 ≤ p.line) {cs rest : List Rune} :
    after (g p) cs rest = g (after p cs rest) := by
  rw [after, after, advance_map hg hp]

omit hg in
theorem nameToken_mapPos (s : String) (p : Pos) :
    nameToken s (g p) = (nameToken s p).mapPos g := by
  unfold nameToken
  split <;> rfl

/-- Lexing from a moved position reports every position moved, provided the move commutes with
reading a rune on every line of the text. -/
theorem scanFrom_map (cs : List Rune) (p : Pos) (acc : Array Token) (hp : 1 ≤ p.line) :
    scanFrom cs (g p) (acc.map (Token.mapPos g)) = mapTokens g (scanFrom cs p acc) := by
  fun_induction scanFrom cs p acc with
  | case1 p acc => rw [scanFrom.eq_1]; simp [mapTokens, Token.mapPos]
  | case2 p acc r _ ih =>
    rw [scanFrom.eq_2, after_map hg hp]
    exact ih (hp.trans (line_le_advance p _))
  | case3 p acc r hs => rw [scanFrom_block_none hs]; rfl
  | case4 p acc r rest hs _ ih =>
    rw [scanFrom_block hs, after_map hg hp]
    exact ih (hp.trans (line_le_advance p _))
  | case5 p acc c r _ _ hn _ _ ih =>
    rw [scanFrom_name hn, ← advance_map hg hp, nameToken_mapPos, ← Array.map_push]
    exact ih (hp.trans (line_le_advance p _))
  | case6 p acc c r _ _ _ hd _ _ ih =>
    rw [scanFrom_digit hd, ← advance_map hg hp,
      show (⟨.number, String.ofList ((c :: (scanNumber r).1).map Rune.toChar), g p⟩ : Token) =
        Token.mapPos g ⟨.number, String.ofList ((c :: (scanNumber r).1).map Rune.toChar), p⟩ from rfl,
      ← Array.map_push]
    exact ih (hp.trans (line_le_advance p _))
  | case7 p acc c r _ _ _ _ hq hs =>
    obtain rfl := Rune.eq_char_of_toChar hq (by decide)
    rw [scanFrom_quote_none hs]
    rfl
  | case8 p acc c r _ _ _ _ hq d rest hs _ ih =>
    obtain rfl := Rune.eq_char_of_toChar hq (by decide)
    rw [scanFrom_quote hs, after_map hg hp,
      show (⟨.string, String.ofList d, g p⟩ : Token) =
        Token.mapPos g ⟨.string, String.ofList d, p⟩ from rfl,
      ← Array.map_push]
    exact ih (hp.trans (line_le_advance p _))
  | case9 p acc c r h₁ h₂ hn hd hq k rest hk _ ih =>
    rw [scanFrom_punct (by simpa using hn) (by simpa using hd) hq (no_comment h₁ h₂) hk,
      after_map hg hp, show (⟨k, "", g p⟩ : Token) = Token.mapPos g ⟨k, "", p⟩ from rfl,
      ← Array.map_push]
    exact ih (hp.trans (line_le_advance p _))
  | case10 p acc c r h₁ h₂ hn hd hq hk ih =>
    rw [scanFrom_skip (by simpa using hn) (by simpa using hd) hq (no_comment h₁ h₂) hk,
      ← hg p c hp]
    exact ih (hp.trans (line_le_next p c))

end Moving

end Treewalk.Lexer
