import Mathlib
import Treewalk.Syntax.Position
/-!
# Decoding bytes into runes

What `decodeRunes` does with every byte sequence. The bytes of characters decode as those
characters, whatever follows them (`decodeRunes_encode`), so a text's bytes decode to its
characters (`decodeRunes_toUTF8`). A rune never reaches past an ASCII byte, so the runes of a
sequence split at a line feed or a semicolon are the runes of the parts
(`decodeRunes_append_ascii`); the runes' widths add up to the length of the bytes, and their line
feeds are the bytes' line feeds. A split of the runes is a split of the bytes
(`decodeRunes_eq_append`).
-/
namespace Treewalk

namespace Rune

@[simp] theorem toChar_char (c : Char) : (char c).toChar = c := rfl
@[simp] theorem toChar_invalid (b : UInt8) : (invalid b).toChar = '�' := rfl
@[simp] theorem width_char (c : Char) : (char c).width = c.utf8Size := rfl
@[simp] theorem width_invalid (b : UInt8) : (invalid b).width = 1 := rfl

@[simp] theorem toChar_comp_char : toChar ∘ char = id := rfl

@[simp] theorem map_toChar_char (cs : List Char) : (cs.map char).map toChar = cs := by
  rw [List.map_map, toChar_comp_char, List.map_id]

@[simp] theorem char_bne_char (c d : Char) : (char c != char d) = (c != d) := by
  rw [Bool.eq_iff_iff, bne_iff_ne, bne_iff_ne, ne_eq, ne_eq, char.injEq]

theorem eq_char_of_toChar {r : Rune} {c : Char} (h : r.toChar = c) (hc : c ≠ '�') : r = char c := by
  cases r with
  | char c' => rw [← h]; rfl
  | invalid _ => exact absurd h.symm hc

theorem decode_eq_char_iff {b : UInt8} {rest : List UInt8} {c : Char} :
    decode b rest = char c ↔ ∃ tl, b :: rest = String.utf8EncodeChar c ++ tl := by
  constructor
  · intro h
    have hdec : (b :: rest.take 3).toByteArray.utf8DecodeChar? 0 = some c := by
      unfold decode at h
      split at h
      · next c' hc => cases h; exact hc
      · cases h
    have hbytes := congrArg (fun a : ByteArray => a.data.toList)
      (ByteArray.eq_of_utf8DecodeChar?_eq_some hdec)
    simp only [ByteArray.toList_data_append, List.toList_data_toByteArray] at hbytes
    obtain ⟨tl, htl⟩ : ∃ tl, b :: rest.take 3 = String.utf8EncodeChar c ++ tl := ⟨_, hbytes⟩
    refine ⟨tl ++ rest.drop 3, ?_⟩
    rw [← List.append_assoc, ← htl, List.cons_append, List.take_append_drop]
  · rintro ⟨tl, h⟩
    have hlen : (String.utf8EncodeChar c).length ≤ 4 := by
      rw [String.length_utf8EncodeChar]
      exact c.utf8Size_le_four
    have htake : b :: rest.take 3 = String.utf8EncodeChar c ++ tl.take (4 - c.utf8Size) :=
      calc b :: rest.take 3 = (String.utf8EncodeChar c ++ tl).take 4 := by rw [← h]; rfl
        _ = String.utf8EncodeChar c ++ tl.take (4 - c.utf8Size) := by
          rw [List.take_append, List.take_of_length_le hlen, String.length_utf8EncodeChar]
    unfold decode
    rw [htake, List.toByteArray_append, ByteArray.utf8DecodeChar?_utf8EncodeChar_append]

theorem decode_cases (b : UInt8) (rest : List UInt8) :
    decode b rest = invalid b ∨ ∃ c, decode b rest = char c := by
  unfold decode
  split
  · next c _ => exact .inr ⟨c, rfl⟩
  · exact .inl rfl

theorem decode_append_of_char {b : UInt8} {rest : List UInt8} {c : Char}
    (h : decode b rest = char c) (more : List UInt8) : decode b (rest ++ more) = char c := by
  obtain ⟨tl, htl⟩ := decode_eq_char_iff.mp h
  exact decode_eq_char_iff.mpr ⟨tl ++ more, by rw [← List.append_assoc, ← htl, List.cons_append]⟩

theorem width_decode_le (b : UInt8) (rest : List UInt8) :
    (decode b rest).width ≤ rest.length + 1 := by
  rcases decode_cases b rest with h | ⟨c, h⟩
  · rw [h, width_invalid]
    omega
  · obtain ⟨tl, htl⟩ := decode_eq_char_iff.mp h
    have hlen := congrArg List.length htl
    rw [List.length_cons, List.length_append, String.length_utf8EncodeChar] at hlen
    rw [h, width_char]
    omega

/-- An encoding has a first byte only at its start, so a byte that may start an encoding and
stands past the first byte of `b :: xs ++ a :: ys` is not inside the encoding read from `b`. -/
theorem length_encode_le {b a : UInt8} {xs ys tl : List UInt8} {c : Char}
    (ha : a.IsUTF8FirstByte) (h : b :: (xs ++ a :: ys) = String.utf8EncodeChar c ++ tl) :
    (String.utf8EncodeChar c).length ≤ xs.length + 1 := by
  by_contra hlt
  have hi : xs.length + 1 < (String.utf8EncodeChar c).length := by omega
  have hget : (String.utf8EncodeChar c)[xs.length + 1] = a := by
    have := congrArg (fun l => l[xs.length + 1]?) h
    simp only [List.getElem?_cons_succ, List.getElem?_append_right (Nat.le_refl _),
      Nat.sub_self, List.getElem?_cons_zero, List.getElem?_append_left hi,
      List.getElem?_eq_getElem hi, Option.some.injEq] at this
    exact this.symm
  have hfirst := (@UInt8.isUTF8FirstByte_getElem_utf8EncodeChar c (xs.length + 1) hi).mp
  rw [hget] at hfirst
  exact absurd (hfirst ha) (Nat.succ_ne_zero _)

theorem decode_append_first {a : UInt8} (ha : a.IsUTF8FirstByte) (b : UInt8)
    (xs ys : List UInt8) : decode b (xs ++ a :: ys) = decode b xs := by
  rcases decode_cases b xs with h | ⟨c, h⟩
  · rcases decode_cases b (xs ++ a :: ys) with h' | ⟨c, h'⟩
    · rw [h, h']
    · -- a character read across `a` would already be read from `b :: xs`
      obtain ⟨tl, htl⟩ := decode_eq_char_iff.mp h'
      have hle := length_encode_le ha htl
      have hpre : b :: xs = String.utf8EncodeChar c ++ tl.take (xs.length + 1 -
          (String.utf8EncodeChar c).length) := by
        have := congrArg (List.take (xs.length + 1)) htl
        rwa [← List.cons_append, List.take_left' (by simp), List.take_append,
          List.take_of_length_le hle] at this
      have hc := decode_eq_char_iff.mpr ⟨_, hpre⟩
      rw [h] at hc
      cases hc
  · rw [h, decode_append_of_char h]

@[simp] theorem decode_lineFeed (rest : List UInt8) : decode 10 rest = char '\n' :=
  decode_eq_char_iff.mpr ⟨rest, rfl⟩

theorem count_lineFeed_encode (c : Char) :
    (String.utf8EncodeChar c).count 10 = if c = '\n' then 1 else 0 := by
  by_cases hc : c = '\n'
  · subst hc
    rfl
  · rw [if_neg hc, List.count_eq_zero]
    intro hmem
    obtain ⟨i, hi, hget⟩ := List.mem_iff_getElem.mp hmem
    -- a line feed starts an encoding, so it can only be the first byte, where it reads `'\n'`
    have hzero : i = 0 := (@UInt8.isUTF8FirstByte_getElem_utf8EncodeChar c i hi).mp
      (by rw [hget]; decide)
    subst hzero
    obtain ⟨b, t, ht⟩ := List.exists_cons_of_ne_nil (String.utf8EncodeChar_ne_nil (c := c))
    have hb : b = 10 := by simpa [ht] using hget
    have hdec : decode 10 t = char c := decode_eq_char_iff.mpr ⟨[], by rw [ht, hb, List.append_nil]⟩
    rw [decode_lineFeed] at hdec
    exact hc (char.inj hdec).symm

theorem count_lineFeed_take_width (b : UInt8) (rest : List UInt8) :
    ((b :: rest).take (decode b rest).width).count 10 = [decode b rest].count (char '\n') := by
  rcases decode_cases b rest with h | ⟨c, h⟩
  · have hb : b ≠ 10 := by
      rintro rfl
      rw [decode_lineFeed] at h
      cases h
    rw [h, width_invalid, List.take_succ_cons, List.take_zero]
    simp [hb]
  · obtain ⟨tl, htl⟩ := decode_eq_char_iff.mp h
    rw [h, width_char, htl, ← String.length_utf8EncodeChar, List.take_left,
      count_lineFeed_encode]
    by_cases hc : c = '\n' <;> simp [hc]

end Rune

open Rune

theorem decodeRunes_cons (b : UInt8) (rest : List UInt8) :
    decodeRunes (b :: rest) =
      decode b rest :: decodeRunes ((b :: rest).drop (decode b rest).width) := by
  rw [decodeRunes]

@[simp] theorem decodeRunes_nil : decodeRunes [] = [] := by
  rw [decodeRunes]

theorem decodeRunes_encode_append (c : Char) (tl : List UInt8) :
    decodeRunes (String.utf8EncodeChar c ++ tl) = char c :: decodeRunes tl := by
  obtain ⟨b, enc, henc⟩ := List.exists_cons_of_ne_nil (String.utf8EncodeChar_ne_nil (c := c))
  have hdec : decode b (enc ++ tl) = char c :=
    decode_eq_char_iff.mpr ⟨tl, by rw [henc, List.cons_append]⟩
  rw [henc, List.cons_append, decodeRunes_cons, hdec, ← List.cons_append, ← henc, width_char,
    ← String.length_utf8EncodeChar, List.drop_left]

theorem decodeRunes_encode (cs : List Char) (tl : List UInt8) :
    decodeRunes (cs.flatMap String.utf8EncodeChar ++ tl) = cs.map char ++ decodeRunes tl := by
  induction cs with
  | nil => rfl
  | cons c cs ih =>
    rw [List.flatMap_cons, List.append_assoc, decodeRunes_encode_append, ih, List.map_cons,
      List.cons_append]

theorem toUTF8_toList (s : String) :
    s.toUTF8.data.toList = s.toList.flatMap String.utf8EncodeChar := by
  rw [String.toUTF8_eq_toByteArray, ← String.utf8Encode_toList, List.utf8Encode,
    List.toList_data_toByteArray]

/-- The bytes of a text decode to its characters. -/
theorem decodeRunes_toUTF8 (s : String) :
    decodeRunes s.toUTF8.data.toList = s.toList.map char := by
  have h := decodeRunes_encode s.toList []
  rw [List.append_nil, decodeRunes_nil, List.append_nil] at h
  rw [toUTF8_toList, h]

theorem decodeRunes_append_first {a : UInt8} (ha : a.IsUTF8FirstByte) (xs ys : List UInt8) :
    decodeRunes (xs ++ a :: ys) = decodeRunes xs ++ decodeRunes (a :: ys) := by
  fun_induction decodeRunes xs with
  | case1 => rfl
  | case2 b rest r ih =>
    have hw : r.width ≤ (b :: rest).length := by
      rw [List.length_cons]
      exact width_decode_le b rest
    rw [List.cons_append, decodeRunes_cons, decode_append_first ha, ← List.cons_append,
      List.drop_append_of_le_length hw, ih, List.cons_append]

theorem sum_width_decodeRunes (bs : List UInt8) :
    ((decodeRunes bs).map width).sum = bs.length := by
  fun_induction decodeRunes bs with
  | case1 => rfl
  | case2 b rest r ih =>
    have hw : r.width ≤ (b :: rest).length := by
      rw [List.length_cons]
      exact width_decode_le b rest
    rw [List.map_cons, List.sum_cons, ih, List.length_drop]
    omega

theorem count_lineFeed_decodeRunes (bs : List UInt8) :
    (decodeRunes bs).count (char '\n') = bs.count 10 := by
  fun_induction decodeRunes bs with
  | case1 => rfl
  | case2 b rest r ih =>
    dsimp only [r] at ih ⊢
    rw [← List.singleton_append, List.count_append, ih, ← count_lineFeed_take_width,
      ← List.count_append, List.take_append_drop]

/-- Decoding on from the bytes of the first rune: a shorter continuation still gives that
rune, since a valid encoding is kept and an invalid byte stays invalid with fewer bytes after
it. -/
theorem decodeRunes_take_width_append (b : UInt8) (rest more : List UInt8)
    (hmore : more <+: (b :: rest).drop (decode b rest).width) :
    decodeRunes ((b :: rest).take (decode b rest).width ++ more) =
      decode b rest :: decodeRunes more := by
  rcases decode_cases b rest with h | ⟨c, h⟩
  · rw [h, width_invalid, List.drop_one, List.tail_cons] at hmore
    rw [h, width_invalid]
    obtain ⟨more', rfl⟩ := hmore
    have hinv : decode b more = invalid b := by
      rcases decode_cases b more with h' | ⟨c, h'⟩
      · exact h'
      · rw [decode_append_of_char h'] at h
        cases h
    rw [List.take_succ_cons, List.take_zero, List.singleton_append, decodeRunes_cons, hinv,
      width_invalid, List.drop_one, List.tail_cons]
  · obtain ⟨tl, htl⟩ := decode_eq_char_iff.mp h
    rw [h, width_char, htl, ← String.length_utf8EncodeChar, List.take_left,
      decodeRunes_encode_append]

/-- Where the runes of some bytes split, the bytes split, each part decoding to its runes. -/
theorem decodeRunes_eq_append {bs : List UInt8} {R₁ R₂ : List Rune}
    (h : decodeRunes bs = R₁ ++ R₂) :
    ∃ B₁ B₂, bs = B₁ ++ B₂ ∧ decodeRunes B₁ = R₁ ∧ decodeRunes B₂ = R₂ := by
  induction R₁ generalizing bs with
  | nil => exact ⟨[], bs, rfl, decodeRunes_nil, h⟩
  | cons r R₁ ih =>
    cases bs with
    | nil => rw [decodeRunes_nil] at h; cases h
    | cons b rest =>
      rw [decodeRunes_cons, List.cons_append, List.cons.injEq] at h
      obtain ⟨hr, hdrop⟩ := h
      obtain ⟨B₁, B₂, hsplit, h₁, h₂⟩ := ih hdrop
      refine ⟨(b :: rest).take (decode b rest).width ++ B₁, B₂, ?_, ?_, h₂⟩
      · rw [List.append_assoc, ← hsplit, List.take_append_drop]
      · rw [decodeRunes_take_width_append b rest B₁ ⟨B₂, hsplit.symm⟩, hr, h₁]

theorem eq_encode_of_decodeRunes {bs : List UInt8} {cs : List Char}
    (h : decodeRunes bs = cs.map char) : bs = cs.flatMap String.utf8EncodeChar := by
  induction cs generalizing bs with
  | nil =>
    cases bs with
    | nil => rfl
    | cons b rest => rw [decodeRunes_cons] at h; cases h
  | cons c cs ih =>
    cases bs with
    | nil => rw [decodeRunes_nil] at h; cases h
    | cons b rest =>
      rw [decodeRunes_cons, List.map_cons, List.cons.injEq] at h
      obtain ⟨hc, hdrop⟩ := h
      obtain ⟨tl, htl⟩ := decode_eq_char_iff.mp hc
      rw [hc, width_char, htl, ← String.length_utf8EncodeChar, List.drop_left] at hdrop
      rw [htl, ih hdrop, List.flatMap_cons]

theorem eq_cons_of_decodeRunes {bs : List UInt8} {b : UInt8} {c : Char} {cs : List Char}
    (hb : String.utf8EncodeChar c = [b]) (hc : c ≠ '�')
    (h : (decodeRunes bs).map toChar = c :: cs) :
    ∃ bs', bs = b :: bs' ∧ (decodeRunes bs').map toChar = cs := by
  cases bs with
  | nil => rw [decodeRunes_nil] at h; cases h
  | cons x rest =>
    rw [decodeRunes_cons, List.map_cons, List.cons.injEq] at h
    obtain ⟨hx, hrest⟩ := h
    have hdec := eq_char_of_toChar hx hc
    obtain ⟨tl, htl⟩ := decode_eq_char_iff.mp hdec
    rw [hb, List.singleton_append] at htl
    refine ⟨tl, htl, ?_⟩
    rw [hdec, width_char, htl, ← String.length_utf8EncodeChar, hb] at hrest
    exact hrest

end Treewalk
