import Mathlib
import Treewalk.Proofs.Syntax.Concatenate
/-!
# Where tokens stand

A position names the place right after the runes of a source that come before it: its line
is one more than the line feeds among them, its column one more than the runes after the last
of those, and its offset the bytes they take (`Pos.ofRunes`). The lexer starts at the first
rune and moves its position only by the runes it reads, those it skips included, so every
token stands where its runes start, and a name, keyword or number is spelled by the runes from
there on (`Token.PlacedIn`). Tokens come in the order of the source, each at a larger offset
than the one before, and the end of input stands after the whole source. A source that does not
lex fails at the quote or the `/*` that opens the string or comment it ends inside of.

Read back to the bytes (`tokenizeBytes_positions`): a position is the line feed bytes before
it, the runes since the last of them, an invalid byte counting as one, and the bytes before it
(`Pos.ofBytes`), and a verbatim token's lexeme is the slice of bytes from its offset on. Read
back to the characters of a text, the same holds with `Pos.ofPrefix`.
-/
namespace Treewalk

namespace Pos

/-- The position after the runes `pre`: one more than their line feeds, one more than the runes
after the last line feed, and the bytes they take. -/
def ofRunes (pre : List Rune) : Pos :=
  ⟨1 + pre.count (.char '\n'), 1 + (pre.reverse.takeWhile (· != .char '\n')).length,
    (pre.map Rune.width).sum⟩

/-- The position after the characters `pre`, from the characters alone: one more than their
line feeds, one more than the characters after the last line feed, and their UTF-8 bytes. -/
def ofPrefix (pre : List Char) : Pos :=
  ⟨1 + pre.count '\n', 1 + (pre.reverse.takeWhile (· != '\n')).length,
    (pre.map Char.utf8Size).sum⟩

/-- The position after the bytes `pre`: one more than their line feed bytes, one more than the
runes of the bytes after the last line feed, and their number. -/
def ofBytes (pre : List UInt8) : Pos :=
  ⟨1 + pre.count 0x0A, 1 + (decodeRunes (pre.reverse.takeWhile (· != 0x0A)).reverse).length,
    pre.length⟩

theorem column_start_advance (pre : List Rune) :
    (start.advance pre).column = 1 + (pre.reverse.takeWhile (· != .char '\n')).length := by
  -- a line feed resets the column, so the induction adds runes at the end
  induction pre using List.reverseRecOn with
  | nil => rfl
  | append_singleton pre r ih =>
    rw [advance_append, advance_cons, advance_nil, List.reverse_append, List.reverse_singleton,
      List.singleton_append]
    by_cases hr : r = .char '\n'
    · subst hr
      rw [next_newline]
      simp
    · rw [next_of_ne hr, List.takeWhile_cons_of_pos (by simpa using hr), List.length_cons]
      dsimp only
      omega

theorem start_advance (pre : List Rune) : start.advance pre = ofRunes pre := by
  have hl : (start.advance pre).line = 1 + pre.count (.char '\n') := line_advance start pre
  have ho : (start.advance pre).offset = (pre.map Rune.width).sum :=
    (offset_advance start pre).trans (Nat.zero_add _)
  rw [ofRunes, ← hl, ← column_start_advance, ← ho]

theorem ofRunes_map_char (pre : List Char) : ofRunes (pre.map Rune.char) = ofPrefix pre := by
  have hcount : (pre.map Rune.char).count (.char '\n') = pre.count '\n' :=
    List.count_map_of_injective _ _ (fun _ _ h => Rune.char.inj h) _
  have htake : ((pre.map Rune.char).reverse.takeWhile (· != .char '\n')).length =
      (pre.reverse.takeWhile (· != '\n')).length := by
    rw [← List.map_reverse, List.takeWhile_map, List.length_map]
    congr 2
    funext c
    exact Rune.char_bne_char c '\n'
  simp only [ofRunes, ofPrefix, hcount, htake, List.map_map]
  rfl

theorem takeWhile_reverse_of_count {rs : List Rune} (h : rs.count (.char '\n') = 0) :
    rs.reverse.takeWhile (· != .char '\n') = rs.reverse :=
  List.takeWhile_eq_self_iff.mpr fun r hr => by
    have : r ≠ .char '\n' := fun he => by
      rw [List.count_eq_zero] at h
      exact h (he ▸ List.mem_reverse.mp hr)
    simpa using this

theorem ofRunes_decodeRunes (pre : List UInt8) : ofRunes (decodeRunes pre) = ofBytes pre := by
  set T := pre.reverse.takeWhile (· != 0x0A) with hT
  have hsplit := List.takeWhile_append_dropWhile (p := (· != (0x0A : UInt8))) (l := pre.reverse)
  have hT0 : (decodeRunes T.reverse).count (.char '\n') = 0 := by
    rw [count_lineFeed_decodeRunes, List.count_reverse, List.count_eq_zero]
    intro hm
    simpa using List.mem_takeWhile_imp hm
  have hcol : ((decodeRunes pre).reverse.takeWhile (· != .char '\n')).length =
      (decodeRunes T.reverse).length := by
    rcases hD : pre.reverse.dropWhile (· != (0x0A : UInt8)) with _ | ⟨b, D⟩
    · -- no line feed at all
      rw [hD, List.append_nil] at hsplit
      have hpre : pre = T.reverse := by rw [hT, hsplit, List.reverse_reverse]
      rw [hpre, takeWhile_reverse_of_count hT0, List.length_reverse]
    · -- the last line feed, and the runes after it
      have hb : b = 0x0A := by
        have := List.head_dropWhile_not (· != (0x0A : UInt8)) (by rw [hD]; simp)
        simpa [hD] using this
      subst hb
      rw [hD] at hsplit
      have hpre : pre = D.reverse ++ 0x0A :: T.reverse := by
        rw [← List.reverse_reverse pre, ← hsplit, hT]
        simp
      rw [hpre, decodeRunes_append_first (by decide), decodeRunes_cons, Rune.decode_lineFeed,
        Rune.width_char, List.reverse_append, List.reverse_cons, List.append_assoc,
        List.takeWhile_append_of_pos]
      · rw [List.singleton_append, List.takeWhile_cons_of_neg (by decide), List.append_nil,
          List.length_reverse]
        rfl
      · intro r hr
        have : r ≠ .char '\n' := fun he => by
          rw [List.count_eq_zero] at hT0
          have hdrop : (0x0A :: T.reverse).drop (Char.utf8Size '\n') = T.reverse := rfl
          rw [hdrop] at hr
          exact hT0 (he ▸ List.mem_reverse.mp hr)
        simpa using this
  simp only [ofRunes, ofBytes, count_lineFeed_decodeRunes, sum_width_decodeRunes, hcol, hT]

theorem offset_ofPrefix_toList (s : String) : (ofPrefix s.toList).offset = s.utf8ByteSize :=
  (utf8ByteSize_eq_sum s).symm

theorem offset_le_advance (p : Pos) (rs : List Rune) : p.offset ≤ (p.advance rs).offset := by
  rw [offset_advance]
  omega

theorem offset_lt_advance (p : Pos) (r : Rune) (rs : List Rune) :
    p.offset < (p.advance (r :: rs)).offset := by
  rw [offset_advance, List.map_cons, List.sum_cons]
  have := r.width_pos
  omega

end Pos

def TokenKind.isVerbatim : TokenKind → Bool
  | .ident | .number | .keyword _ => true
  | _ => false

/-- A token stands in the runes `src` where its runes start: after some `pre` of them, at the
position those runes give; and a name, keyword or number is spelled by the runes from there
on, each the character of its lexeme. -/
def Token.PlacedIn (src : List Rune) (t : Token) : Prop :=
  ∃ pre rest, src = pre ++ rest ∧ t.pos = Pos.ofRunes pre ∧
    (t.kind.isVerbatim → t.lexeme.toList.map Rune.char <+: rest)

/-- The text `rest` starts with what opens the string or comment that the fault says is never
closed; no other fault opens anything. -/
def Fault.OpensAt : Fault → List Char → Prop
  | .unterminatedString, rest => ∃ r, rest = '"' :: r
  | .unterminatedComment, rest => ∃ r, rest = '/' :: '*' :: r
  | _, _ => False

namespace Lexer

/-- The tokens returned before position `p` of `src`: each stands in `src`, their offsets
grow, and all lie before `p`. -/
structure Scanned (src : List Rune) (p : Pos) (acc : Array Token) : Prop where
  placed : ∀ t ∈ acc.toList, t.PlacedIn src
  ordered : acc.toList.Pairwise (fun a b => a.pos.offset < b.pos.offset)
  before : ∀ t ∈ acc.toList, t.pos.offset < p.offset

/-- What a run of the lexer over `src` answers when its positions are right: tokens that stand
in `src`, at growing offsets; or a failure at the quote or `/*` that the runes never close. -/
def Lexed (src : List Rune) : Except Error (Array Token) → Prop
  | .ok out => (∀ t ∈ out.toList, t.PlacedIn src) ∧
      out.toList.Pairwise (fun a b => a.pos.offset < b.pos.offset)
  | .error e => ∃ pre rest, src = pre ++ rest ∧ e.pos = some (Pos.ofRunes pre) ∧
      e.fault.OpensAt (rest.map Rune.toChar)

section Scanned

variable {src : List Rune} {p : Pos} {acc : Array Token} {t : Token}

theorem Scanned.empty (src : List Rune) (p : Pos) : Scanned src p #[] :=
  ⟨by simp, by simp, by simp⟩

theorem Scanned.placed_push (h : Scanned src p acc) (ht : t.PlacedIn src) :
    ∀ u ∈ (acc.push t).toList, u.PlacedIn src := by
  intro u hu
  rw [Array.toList_push, List.mem_append, List.mem_singleton] at hu
  rcases hu with hu | rfl
  · exact h.placed u hu
  · exact ht

theorem Scanned.ordered_push (h : Scanned src p acc) (hpos : t.pos = p) :
    (acc.push t).toList.Pairwise (fun a b => a.pos.offset < b.pos.offset) := by
  rw [Array.toList_push, List.pairwise_append]
  refine ⟨h.ordered, List.pairwise_singleton _ _, ?_⟩
  intro a ha b hb
  rw [List.mem_singleton] at hb
  subst hb
  rw [hpos]
  exact h.before a ha

theorem Scanned.advance (h : Scanned src p acc) (rs : List Rune) :
    Scanned src (p.advance rs) acc :=
  ⟨h.placed, h.ordered, fun u hu => lt_of_lt_of_le (h.before u hu) (Pos.offset_le_advance p rs)⟩

theorem Scanned.push (h : Scanned src p acc) (ht : t.PlacedIn src) (hpos : t.pos = p)
    (r : Rune) (rs : List Rune) : Scanned src (p.advance (r :: rs)) (acc.push t) := by
  refine ⟨h.placed_push ht, h.ordered_push hpos, ?_⟩
  have hlt := Pos.offset_lt_advance p r rs
  intro u hu
  rw [Array.toList_push, List.mem_append, List.mem_singleton] at hu
  rcases hu with hu | rfl
  · exact lt_trans (h.before u hu) hlt
  · rw [hpos]
    exact hlt

end Scanned

section Reading

variable {src done cs taken rest : List Rune} {p : Pos}

theorem read_past (hsrc : src = done ++ cs) (hp : p = Pos.start.advance done)
    (hcs : taken ++ rest = cs) :
    src = (done ++ taken) ++ rest ∧ p.advance taken = Pos.start.advance (done ++ taken) := by
  subst hsrc hp hcs
  exact ⟨(List.append_assoc _ _ _).symm, (Pos.advance_append _ _ _).symm⟩

theorem after_of_append (hcs : taken ++ rest = cs) : after p cs rest = p.advance taken := by
  subst hcs
  exact after_append_self p taken rest

theorem placed_here {t : Token} (hsrc : src = done ++ cs) (hp : p = Pos.start.advance done)
    (hpos : t.pos = p) (hlex : t.kind.isVerbatim → t.lexeme.toList.map Rune.char <+: cs) :
    t.PlacedIn src :=
  ⟨done, cs, hsrc, by rw [hpos, hp, Pos.start_advance], hlex⟩

end Reading

theorem map_char_toChar {rs : List Rune} (h : ∀ r ∈ rs, r.toChar ≠ '�') :
    (rs.map Rune.toChar).map Rune.char = rs := by
  induction rs with
  | nil => rfl
  | cons r rs ih =>
    rw [List.map_cons, List.map_cons, ← Rune.eq_char_of_toChar rfl (h r List.mem_cons_self),
      ih fun r' hr' => h r' (List.mem_cons_of_mem r hr')]

theorem map_char_lexeme {rs : List Rune} (h : ∀ r ∈ rs, r.toChar ≠ '�') :
    (String.ofList (rs.map Rune.toChar)).toList.map Rune.char = rs := by
  rw [String.toList_ofList, map_char_toChar h]

theorem replacement_ne_of_isNamePart {c : Char} (h : isNamePart c = true) : c ≠ '�' := by
  rintro rfl
  exact absurd h (by decide +kernel)

theorem isNamePart_of_isNameStart {c : Char} (h : isNameStart c = true) : isNamePart c = true := by
  unfold isNameStart at h
  simp [isNamePart, h]

theorem toChar_ne_of_mem_scanNumber (r : List Rune) : ∀ x ∈ (scanNumber r).1, x.toChar ≠ '�' := by
  have hdigits : ∀ (l : List Rune), ∀ x ∈ l.takeWhile digit, x.toChar ≠ '�' := by
    intro l x hx h
    have := List.mem_takeWhile_imp hx
    simp [digit, h] at this
  unfold scanNumber
  split
  · next d more heq =>
    split
    · next hd =>
      intro x hx
      simp only [List.mem_append, List.mem_cons] at hx
      rcases hx with hx | rfl | rfl | hx
      · exact hdigits r x hx
      · decide
      · intro h
        simp [digit, h] at hd
      · exact hdigits more x hx
    · exact hdigits r
  · exact hdigits r

theorem Fault.opensAt_iff {f : Fault} {rest : List Char} :
    f.OpensAt rest ↔ (f = .unterminatedString ∧ ∃ r, rest = '"' :: r) ∨
      (f = .unterminatedComment ∧ ∃ r, rest = '/' :: '*' :: r) := by
  constructor
  · intro h
    unfold Fault.OpensAt at h
    split at h
    · exact .inl ⟨rfl, h⟩
    · exact .inr ⟨rfl, h⟩
    · exact h.elim
  · rintro (⟨rfl, h⟩ | ⟨rfl, h⟩) <;> exact h

theorem nameToken_pos (s : String) (p : Pos) : (nameToken s p).pos = p := by
  unfold nameToken
  split <;> rfl

theorem nameToken_lexeme (s : String) (p : Pos) : (nameToken s p).lexeme = s := by
  unfold nameToken
  split <;> rfl

theorem punctuation_not_verbatim {c : Rune} {r rest : List Rune} {k : TokenKind}
    (hk : punctuation c r = some (k, rest)) : k.isVerbatim = false := by
  unfold punctuation at hk
  split at hk <;> simp only [Option.some.injEq, Prod.mk.injEq, reduceCtorEq] at hk <;>
    (try obtain ⟨rfl, -⟩ := hk) <;> rfl

/-- The lexer, having read `done` of `src` and returned `acc`, answers as `Lexed` says: it
reads on from the position of `done`, every token it makes stands at that position, and it
fails only at an opening quote or `/*`. -/
theorem scanFrom_lexed {src done cs : List Rune} {p : Pos} {acc : Array Token}
    (hsrc : src = done ++ cs) (hp : p = Pos.start.advance done) (hacc : Scanned src p acc) :
    Lexed src (scanFrom cs p acc) := by
  fun_induction scanFrom cs p acc generalizing done with
  | case1 p acc =>
    have ht : Token.PlacedIn src ⟨.eof, "", p⟩ :=
      placed_here hsrc hp rfl (by simp [TokenKind.isVerbatim])
    exact ⟨hacc.placed_push ht, hacc.ordered_push rfl⟩
  | case2 p acc r _ ih =>
    obtain ⟨l, hl⟩ := skipLine_suffix r
    have hcs : (.char '/' :: .char '/' :: l) ++ skipLine r = .char '/' :: .char '/' :: r := by
      rw [List.cons_append, List.cons_append, hl]
    obtain ⟨hsrc', hp'⟩ := read_past hsrc hp hcs
    rw [after_of_append hcs] at ih ⊢
    exact ih hsrc' hp' (hacc.advance _)
  | case3 p acc r hs =>
    exact ⟨done, _, hsrc, by rw [hp, Pos.start_advance], ⟨_, rfl⟩⟩
  | case4 p acc r rest hs _ ih =>
    obtain ⟨l, hl⟩ := skipBlock_suffix hs
    have hcs : (.char '/' :: .char '*' :: l) ++ rest = .char '/' :: .char '*' :: r := by
      rw [List.cons_append, List.cons_append, hl]
    obtain ⟨hsrc', hp'⟩ := read_past hsrc hp hcs
    rw [after_of_append hcs] at ih ⊢
    exact ih hsrc' hp' (hacc.advance _)
  | case5 p acc c r _ _ hc _ _ =>
    rename_i ih
    have hcs : (c :: r.takeWhile partOfName) ++ r.dropWhile partOfName = c :: r := by
      rw [List.cons_append, List.takeWhile_append_dropWhile]
    have hchars : ∀ x ∈ c :: r.takeWhile partOfName, x.toChar ≠ '�' := by
      intro x hx
      rcases List.mem_cons.mp hx with rfl | hx
      · exact replacement_ne_of_isNamePart (isNamePart_of_isNameStart hc)
      · have hpart : partOfName x = true := List.mem_takeWhile_imp hx
        exact replacement_ne_of_isNamePart hpart
    have ht : (nameToken (String.ofList ((c :: r.takeWhile partOfName).map Rune.toChar)) p).PlacedIn
        src :=
      placed_here hsrc hp (nameToken_pos _ _) (fun _ => by
        rw [nameToken_lexeme, map_char_lexeme hchars, ← hcs]
        exact List.prefix_append _ _)
    obtain ⟨hsrc', hp'⟩ := read_past hsrc hp hcs
    exact ih hsrc' hp' (hacc.push ht (nameToken_pos _ _) _ _)
  | case6 p acc c r _ _ _ hd _ _ =>
    rename_i ih
    have hcs : (c :: (scanNumber r).1) ++ (scanNumber r).2 = c :: r := by
      rw [List.cons_append, scanNumber_fst_append_snd]
    have hchars : ∀ x ∈ c :: (scanNumber r).1, x.toChar ≠ '�' := by
      intro x hx
      rcases List.mem_cons.mp hx with rfl | hx
      · intro h
        simp [digit, h] at hd
      · exact toChar_ne_of_mem_scanNumber r x hx
    have ht : Token.PlacedIn src ⟨.number, String.ofList ((c :: (scanNumber r).1).map Rune.toChar), p⟩ :=
      placed_here hsrc hp rfl (fun _ => by
        rw [map_char_lexeme hchars, ← hcs]
        exact List.prefix_append _ _)
    obtain ⟨hsrc', hp'⟩ := read_past hsrc hp hcs
    exact ih hsrc' hp' (hacc.push ht rfl _ _)
  | case7 p acc c r _ _ _ _ hq hs =>
    exact ⟨done, _, hsrc, by rw [hp, Pos.start_advance], ⟨_, by rw [List.map_cons, hq]⟩⟩
  | case8 p acc c r _ _ _ _ hq d rest hs _ ih =>
    obtain ⟨l, hl⟩ := scanString_suffix hs
    have hcs : (c :: l) ++ rest = c :: r := by
      rw [List.cons_append, hl]
    have ht : Token.PlacedIn src ⟨.string, String.ofList d, p⟩ :=
      placed_here hsrc hp rfl (by simp [TokenKind.isVerbatim])
    obtain ⟨hsrc', hp'⟩ := read_past hsrc hp hcs
    rw [after_of_append hcs] at ih ⊢
    exact ih hsrc' hp' (hacc.push ht rfl _ _)
  | case9 p acc c r h₁ h₂ hn hd hq k rest hk _ ih =>
    obtain ⟨l, hl⟩ := punctuation_suffix hk
    have hcs : (c :: l) ++ rest = c :: r := by
      rw [List.cons_append, hl]
    have ht : Token.PlacedIn src ⟨k, "", p⟩ :=
      placed_here hsrc hp rfl (fun hv => absurd hv (by rw [punctuation_not_verbatim hk]; decide))
    obtain ⟨hsrc', hp'⟩ := read_past hsrc hp hcs
    rw [after_of_append hcs] at ih ⊢
    exact ih hsrc' hp' (hacc.push ht rfl _ _)
  | case10 p acc c r h₁ h₂ hn hd hq hk ih =>
    obtain ⟨hsrc', hp'⟩ := read_past hsrc hp (show [c] ++ r = c :: r from rfl)
    exact ih hsrc' hp' (hacc.advance [c])

theorem scanFrom_start_lexed (rs : List Rune) : Lexed rs (scanFrom rs Pos.start #[]) :=
  scanFrom_lexed (List.nil_append rs).symm rfl (Scanned.empty _ _)

/-- Every token of runes that lex stands where its runes start; a failure is at the quote or
`/*` that opens what the runes end inside of. -/
theorem tokenizeRunes_lexed (rs : List Rune) :
    (∀ ts, tokenizeRunes rs = .ok ts → (∀ t ∈ ts, t.PlacedIn rs) ∧
      ts.Pairwise (fun a b => a.pos.offset < b.pos.offset)) ∧
    (∀ e, tokenizeRunes rs = .error e → ∃ pre rest, rs = pre ++ rest ∧
      e.pos = some (Pos.ofRunes pre) ∧ e.fault.OpensAt (rest.map Rune.toChar)) := by
  have hlex := scanFrom_start_lexed rs
  unfold tokenizeRunes
  cases hs : scanFrom rs Pos.start #[] with
  | ok out =>
    rw [hs] at hlex
    refine ⟨fun ts hts => ?_, fun e he => by cases he⟩
    simp only [Except.map, Except.ok.injEq] at hts
    subst hts
    exact hlex
  | error e =>
    rw [hs] at hlex
    refine ⟨fun ts hts => (by cases hts), fun e' he => ?_⟩
    simp only [Except.map, Except.error.injEq] at he
    subst he
    exact hlex

/-- A rune split of the runes of some bytes, where the second part starts with the runes of
the characters `cs`: a byte split where the second part starts with the bytes of `cs`. -/
theorem bytes_of_runes {src : List UInt8} {pre rest : List Rune} {cs : List Char}
    (hsrc : decodeRunes src = pre ++ rest) (hcs : cs.map Rune.char <+: rest) :
    ∃ B₁ B₂, src = B₁ ++ B₂ ∧ decodeRunes B₁ = pre ∧ decodeRunes B₂ = rest ∧
      cs.flatMap String.utf8EncodeChar <+: B₂ := by
  obtain ⟨B₁, B₂, rfl, h₁, h₂⟩ := decodeRunes_eq_append hsrc
  obtain ⟨R, hR⟩ := hcs
  obtain ⟨C₁, C₂, rfl, hC₁, -⟩ := decodeRunes_eq_append (h₂.trans hR.symm)
  exact ⟨B₁, C₁ ++ C₂, rfl, h₁, h₂, by rw [eq_encode_of_decodeRunes hC₁]; exact List.prefix_append _ _⟩

/-- Every token of bytes that lex stands where its bytes start: on the line one more than the
line feed bytes before it, in the column one more than the runes since the last of them, an
invalid byte counting as one, at the offset of the bytes before it; and a name, keyword or
number is exactly the slice of bytes from there on. The offsets grow strictly, and the last
token is the only end of input, at the offset of the length of the bytes. Bytes that do not lex
fail at the position, by the same formula, of the quote or `/*` that opens the string or comment
they end inside of. -/
theorem tokenizeBytes_positions (src : List UInt8) :
    (∀ ts, tokenizeBytes src = .ok ts →
      ts.Pairwise (fun a b => a.pos.offset < b.pos.offset) ∧
      (∀ t ∈ ts, ∃ pre rest, src = pre ++ rest ∧ t.pos = Pos.ofBytes pre ∧
        (t.kind.isVerbatim → t.lexeme.toUTF8.data.toList <+: rest)) ∧
      ∃ A q, ts = A ++ [⟨.eof, "", q⟩] ∧ (∀ t ∈ A, t.kind ≠ .eof) ∧ q.offset = src.length) ∧
    (∀ e, tokenizeBytes src = .error e →
      ∃ pre rest, src = pre ++ rest ∧ e.pos = some (Pos.ofBytes pre) ∧
        ((e.fault = .unterminatedString ∧ ∃ r, rest = 0x22 :: r) ∨
          (e.fault = .unterminatedComment ∧ ∃ r, rest = 0x2F :: 0x2A :: r))) := by
  obtain ⟨hok, herr⟩ := tokenizeRunes_lexed (decodeRunes src)
  constructor
  · intro ts hts
    obtain ⟨hplaced, hordered⟩ := hok ts hts
    obtain ⟨A, hA', hA⟩ := tokenizeRunes_ends hts
    refine ⟨hordered, fun t ht => ?_, A, _, hA', hA,
      (Pos.advance_decodeRunes _ _).2.trans (Nat.zero_add _)⟩
    obtain ⟨pre, rest, hsrc, hpos, hlex⟩ := hplaced t ht
    by_cases hv : t.kind.isVerbatim
    · obtain ⟨B₁, B₂, rfl, h₁, -, hB₂⟩ := bytes_of_runes hsrc (hlex hv)
      exact ⟨B₁, B₂, rfl, by rw [hpos, ← h₁, Pos.ofRunes_decodeRunes],
        fun _ => by rwa [toUTF8_toList]⟩
    · obtain ⟨B₁, B₂, rfl, h₁, -⟩ := decodeRunes_eq_append hsrc
      exact ⟨B₁, B₂, rfl, by rw [hpos, ← h₁, Pos.ofRunes_decodeRunes],
        fun h => absurd h hv⟩
  · intro e he
    obtain ⟨pre, rest, hsrc, hpos, hopen⟩ := herr e he
    obtain ⟨B₁, B₂, rfl, h₁, h₂⟩ := decodeRunes_eq_append hsrc
    refine ⟨B₁, B₂, rfl, by rw [hpos, ← h₁, Pos.ofRunes_decodeRunes], ?_⟩
    -- the opener is ASCII, so its runes are its bytes
    rw [← h₂] at hopen
    rcases Fault.opensAt_iff.mp hopen with ⟨hf, r, hr⟩ | ⟨hf, r, hr⟩
    · obtain ⟨bs, rfl, -⟩ := eq_cons_of_decodeRunes rfl (by decide) hr
      exact .inl ⟨hf, bs, rfl⟩
    · obtain ⟨bs, rfl, hbs⟩ := eq_cons_of_decodeRunes rfl (by decide) hr
      obtain ⟨bs', rfl, -⟩ := eq_cons_of_decodeRunes rfl (by decide) hbs
      exact .inr ⟨hf, bs', rfl⟩

/-- A text that does not lex fails at the quote or `/*` it never closes, at the position of
the characters before it. -/
theorem tokenize_error_opens {src : String} {e : Error} (h : tokenize src = .error e) :
    ∃ pre rest, src.toList = pre ++ rest ∧ e.pos = some (Pos.ofPrefix pre) ∧
      e.fault.OpensAt rest := by
  rw [tokenize_eq] at h
  obtain ⟨pre, rest, hsrc, hpos, hopen⟩ := (tokenizeRunes_lexed _).2 e h
  obtain ⟨cs₁, cs₂, hcs, rfl, rfl⟩ := List.map_eq_append_iff.mp hsrc
  exact ⟨cs₁, cs₂, hcs, by rw [hpos, Pos.ofRunes_map_char], by rwa [Rune.map_toChar_char] at hopen⟩

theorem one_le_line_of_tokenize {src : String} {ts : List Token} (h : tokenize src = .ok ts) :
    ∀ t ∈ ts, 1 ≤ t.pos.line := by
  intro t ht
  rw [tokenize_eq] at h
  obtain ⟨pre, rest, -, hpos, -⟩ := ((tokenizeRunes_lexed _).1 ts h).1 t ht
  rw [hpos]
  exact Nat.le_add_right 1 _

end Lexer

end Treewalk
