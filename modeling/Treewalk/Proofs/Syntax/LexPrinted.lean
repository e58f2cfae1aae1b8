import Mathlib
import Treewalk.Proofs.Syntax.Print
import Treewalk.Proofs.Syntax.Runes
/-!
# Lexing printed text

The lexer reads the text of printable words back as exactly those words, then the end of
input (`tokenize_render`): each word is written so that the lexer's longest match stops at the
space after it, and the space itself starts no token. A number word reads back as its numeral
(`ofLexeme_text`) and a string word as its contents.

In the other direction every name token the lexer makes spells a name (`tokenize_names`),
which is the lexer's half of why parsing yields only well-formed programs.
-/
namespace Treewalk.Lexer

open Printer

theorem tokenize_eq (src : String) : tokenize src = tokenizeRunes (src.toList.map Rune.char) := by
  rw [tokenize, tokenizeBytes, decodeRunes_toUTF8]

/-! ### One step of the lexer, by the class of the first rune -/

theorem isNameStart_of_isDigit {c : Char} (h : c.isDigit = true) : isNameStart c = false := by
  have key : ∀ n < 58, 48 ≤ n → isNameStart (Char.ofNat n) = false := by decide
  have hc := Char.isDigit_iff_toNat.mp h
  simpa using key c.toNat (by simp at hc; omega) (by simp at hc; omega)

theorem isNamePart_space : isNamePart ' ' = false := by decide

theorem scanFrom_name {c : Rune} {r : List Rune} {p : Pos} {acc : Array Token}
    (hc : isNameStart c.toChar = true) :
    scanFrom (c :: r) p acc =
      scanFrom (r.dropWhile partOfName) (p.advance (c :: r.takeWhile partOfName))
        (acc.push (nameToken (String.ofList ((c :: r.takeWhile partOfName).map Rune.toChar)) p)) := by
  have hs : c ≠ .char '/' := by rintro rfl; exact absurd hc (by decide)
  rw [scanFrom.eq_4 _ _ _ _ (fun _ h => absurd h hs) (fun _ h => absurd h hs), if_pos hc]

theorem scanFrom_digit {c : Rune} {r : List Rune} {p : Pos} {acc : Array Token}
    (hc : digit c = true) :
    scanFrom (c :: r) p acc =
      scanFrom (scanNumber r).2 (p.advance (c :: (scanNumber r).1))
        (acc.push ⟨.number, String.ofList ((c :: (scanNumber r).1).map Rune.toChar), p⟩) := by
  have hs : c ≠ .char '/' := by rintro rfl; exact absurd hc (by decide)
  rw [scanFrom.eq_4 _ _ _ _ (fun _ h => absurd h hs) (fun _ h => absurd h hs),
    if_neg (by simp [isNameStart_of_isDigit hc]), if_pos hc]

theorem scanFrom_quote {r rest : List Rune} {d : List Char} {p : Pos} {acc : Array Token}
    (h : scanString r = some (d, rest)) :
    scanFrom (.char '"' :: r) p acc =
      scanFrom rest (after p (.char '"' :: r) rest) (acc.push ⟨.string, String.ofList d, p⟩) := by
  rw [scanFrom.eq_4 _ _ _ _ (fun _ h => absurd h (by decide)) (fun _ h => absurd h (by decide)),
    if_neg (by decide), if_neg (by decide), if_pos (Rune.toChar_char '"')]
  split
  · next heq => rw [h] at heq; cases heq
  · next d' rest' heq => rw [h] at heq; cases heq; rfl

theorem scanFrom_other {c : Rune} {r : List Rune} {p : Pos} {acc : Array Token}
    (hn : isNameStart c.toChar = false) (hd : digit c = false) (hq : c.toChar ≠ '"')
    (hs : c = .char '/' → r.head? ≠ some (.char '/') ∧ r.head? ≠ some (.char '*')) :
    scanFrom (c :: r) p acc =
      match punctuation c r with
      | some (k, rest) => scanFrom rest (after p (c :: r) rest) (acc.push ⟨k, "", p⟩)
      | none => scanFrom r (p.next c) acc := by
  rw [scanFrom.eq_4 _ _ _ _ (fun _ h hr => (hs h).1 (by simp [hr]))
      (fun _ h hr => (hs h).2 (by simp [hr])),
    if_neg (by simp [hn]), if_neg (by simp [hd]), if_neg hq]
  split <;> simp_all

theorem scanFrom_space {r : List Rune} {p : Pos} {acc : Array Token} :
    scanFrom (.char ' ' :: r) p acc = scanFrom r (p.next (.char ' ')) acc := by
  rw [scanFrom_other (by decide) (by decide) (by decide) (fun h => absurd h (by decide))]
  rfl

/-! ### Strings and numbers -/

theorem scanString_escape (cs : List Char) (rest : List Rune) :
    scanString ((escape cs).map Rune.char ++ .char '"' :: rest) = some (cs, rest) := by
  induction cs with
  | nil => simp [escape, scanString]
  | cons c cs ih =>
    by_cases h : c = '\\' ∨ c = '"'
    · rcases h with rfl | rfl <;> simp [escape, scanString, ih, unescape]
    · have h1 : c ≠ '\\' := fun e => h (.inl e)
      have h2 : c ≠ '"' := fun e => h (.inr e)
      rw [escape, if_neg h, List.map_cons, List.cons_append,
        scanString.eq_5 _ _ (by simp [h2]) (by simp [h1]) (by simp [h1]), ih]
      rfl

theorem isDigit_of_mem_padDigits {width k : Nat} {c : Char} (h : c ∈ padDigits width k) :
    c.isDigit = true := by
  simp only [padDigits, List.mem_append, List.mem_replicate] at h
  rcases h with ⟨-, rfl⟩ | h
  · rfl
  · exact Nat.isDigit_of_mem_toDigits (by decide) (by decide) h

theorem length_padDigits {width k : Nat} (hw : 0 < width) (h : k < 10 ^ width) :
    (padDigits width k).length = width := by
  have := (Nat.length_toDigits_le_iff (by decide) hw).mpr h
  simp only [padDigits, List.length_append, List.length_replicate]
  omega

theorem ofDigitChars_padDigits (width k : Nat) :
    Nat.ofDigitChars 10 (padDigits width k) 0 = k := by
  simp [padDigits, Nat.ofDigitChars_append]

theorem digits_of_isDigit {ds : List Char} (h : ∀ c ∈ ds, c.isDigit = true) :
    ∀ r ∈ ds.map Rune.char, digit r = true := by
  simpa [digit] using h

private theorem span_digits (ds : List Char) (more : List Rune) (h : ∀ c ∈ ds, c.isDigit = true) :
    (ds.map Rune.char ++ .char ' ' :: more).takeWhile digit = ds.map Rune.char ∧
      (ds.map Rune.char ++ .char ' ' :: more).dropWhile digit = .char ' ' :: more := by
  rw [List.takeWhile_append_of_pos (digits_of_isDigit h),
    List.dropWhile_append_of_pos (digits_of_isDigit h)]
  exact ⟨by simp [digit], by simp [digit]⟩

theorem numeral_text_scan (n : Numeral) :
    ∃ c cs, n.text = c :: cs ∧ c.isDigit = true ∧
      ∀ more, scanNumber (cs.map Rune.char ++ .char ' ' :: more) =
        (cs.map Rune.char, .char ' ' :: more) := by
  have hdig : ∀ k, ∀ c ∈ Nat.toDigits 10 k, c.isDigit = true :=
    fun _ _ h => Nat.isDigit_of_mem_toDigits (by decide) (by decide) h
  by_cases hs : n.scale = 0
  · -- a whole number: digits only, and the scanner stops at the space
    obtain ⟨c, cs, hcs⟩ := List.exists_cons_of_ne_nil (Nat.toDigits_ne_nil (n := n.mantissa))
    have hall : ∀ x ∈ c :: cs, x.isDigit = true := hcs ▸ hdig n.mantissa
    refine ⟨c, cs, by simp [Numeral.text, hs, hcs], hall c (by simp), fun more => ?_⟩
    obtain ⟨ht, hd⟩ := span_digits cs more (fun x hx => hall x (by simp [hx]))
    unfold scanNumber
    rw [hd, ht]
    rfl
  · -- digits, a point and at least one more digit, then the space
    obtain ⟨c, ws, hws⟩ := List.exists_cons_of_ne_nil
      (Nat.toDigits_ne_nil (n := n.mantissa / 10 ^ n.scale))
    have hlen := length_padDigits (k := n.mantissa % 10 ^ n.scale) (Nat.pos_of_ne_zero hs)
      (Nat.mod_lt _ (Nat.pow_pos (by decide)))
    obtain ⟨f, fs, hfs⟩ := List.exists_cons_of_ne_nil
      (List.ne_nil_of_length_pos (hlen ▸ Nat.pos_of_ne_zero hs))
    have hw : ∀ x ∈ c :: ws, x.isDigit = true := hws ▸ hdig _
    have hf : ∀ x ∈ f :: fs, x.isDigit = true := fun x hx =>
      isDigit_of_mem_padDigits (hfs ▸ hx)
    refine ⟨c, ws ++ '.' :: f :: fs, by simp [Numeral.text, hs, hws, hfs], hw c (by simp),
      fun more => ?_⟩
    obtain ⟨ht, hd⟩ := span_digits (f :: fs) more (fun x hx => hf x hx)
    have hw' := digits_of_isDigit (fun x hx => hw x (List.mem_cons_of_mem c hx))
    have hfd : digit (.char f) = true := by simpa [digit] using hf f (by simp)
    have hdrop : (ws.map Rune.char ++ .char '.' :: .char f :: fs.map Rune.char ++
        .char ' ' :: more).dropWhile digit =
        .char '.' :: .char f :: (fs.map Rune.char ++ .char ' ' :: more) := by
      rw [List.append_assoc, List.dropWhile_append_of_pos hw']
      simp [digit]
    have htake : (ws.map Rune.char ++ .char '.' :: .char f ::
        (fs.map Rune.char ++ .char ' ' :: more)).takeWhile digit = ws.map Rune.char := by
      rw [List.takeWhile_append_of_pos hw']
      simp [digit]
    have ht' : (fs.map Rune.char ++ .char ' ' :: more).takeWhile digit = fs.map Rune.char := by
      simpa [List.takeWhile_cons, hfd] using ht
    have hd' : (fs.map Rune.char ++ .char ' ' :: more).dropWhile digit = .char ' ' :: more := by
      simpa [List.dropWhile_cons, hfd] using hd
    unfold scanNumber
    simp only [List.map_append, List.map_cons, List.append_assoc, List.cons_append] at hdrop ⊢
    rw [hdrop]
    simp only [hfd, if_true, htake, ht', hd']

/-- The lexeme of a numeral's text reads back as the numeral. -/
theorem ofLexeme_text (n : Numeral) : Numeral.ofLexeme (String.ofList n.text) = n := by
  have fold : ∀ l : List Char,
      l.foldl (fun n c => 10 * n + (c.toNat - 48)) 0 = Nat.ofDigitChars 10 l 0 := fun _ => rfl
  have hdig : ∀ k, ∀ c ∈ Nat.toDigits 10 k, (c != '.') = true := by
    intro k c h
    have := Nat.isDigit_of_mem_toDigits (by decide) (by decide) h
    simp only [bne_iff_ne, ne_eq]
    rintro rfl
    exact absurd this (by decide)
  obtain ⟨m, s⟩ := n
  by_cases hs : s = 0
  · subst hs
    have ht := List.takeWhile_eq_self_iff.mpr (hdig m)
    have hd := List.dropWhile_eq_nil_iff.mpr (hdig m)
    simp [Numeral.ofLexeme, Numeral.text, String.toList_ofList, ht, hd, fold]
  · have hpos : 0 < 10 ^ s := Nat.pow_pos (by decide)
    have hlen := length_padDigits (k := m % 10 ^ s) (Nat.pos_of_ne_zero hs) (Nat.mod_lt _ hpos)
    have ht := @List.takeWhile_append_of_pos _ _ _ ('.' :: padDigits s (m % 10 ^ s))
      (hdig (m / 10 ^ s))
    have hd := @List.dropWhile_append_of_pos _ _ _ ('.' :: padDigits s (m % 10 ^ s))
      (hdig (m / 10 ^ s))
    simp only [List.takeWhile_cons, List.dropWhile_cons, bne_self_eq_false, Bool.false_eq_true,
      if_false, List.append_nil] at ht hd
    simp only [Numeral.ofLexeme, Numeral.text, hs, if_false, String.toList_ofList, ht, hd,
      List.drop_one, List.tail_cons, fold, Nat.ofDigitChars_append, hlen]
    rw [Nat.ofDigitChars_eq_ofDigitChars_zero, ofDigitChars_padDigits, hlen, Nat.ofDigitChars_ten_toDigits,
      Nat.div_add_mod]

/-! ### Printed words -/

theorem isName_iff {s : String} :
    isName s = true ↔ ∃ c cs, s.toList = c :: cs ∧ isNameStart c = true ∧
      (∀ x ∈ cs, isNamePart x = true) ∧ Keyword.ofString? s = none := by
  unfold isName
  split
  · next c cs h => simp [h, Option.isNone_iff_eq_none, and_assoc]
  · next h => simp [h]

theorem ofString?_spelling (k : Keyword) : Keyword.ofString? k.spelling = some k := by
  cases k <;> rfl

private theorem scanFrom_nameWord {c : Char} {cs : List Char} {more : List Rune} {p : Pos}
    {acc : Array Token} (hc : isNameStart c = true) (hcs : ∀ x ∈ cs, isNamePart x = true) :
    scanFrom ((c :: cs).map Rune.char ++ .char ' ' :: more) p acc =
      scanFrom more ((p.advance ((c :: cs).map Rune.char)).next (.char ' '))
        (acc.push (nameToken (String.ofList (c :: cs)) p)) := by
  have hcs' : ∀ r ∈ cs.map Rune.char, partOfName r = true := by simpa [partOfName] using hcs
  rw [List.map_cons, List.cons_append, scanFrom_name (c := .char c) hc,
    List.takeWhile_append_of_pos hcs',
    List.dropWhile_append_of_pos hcs']
  have hsp : partOfName (.char ' ') = false := isNamePart_space
  simp only [List.takeWhile_cons, List.dropWhile_cons, hsp, Bool.false_eq_true, if_false,
    List.append_nil, List.map_cons, Rune.map_toChar_char, Rune.toChar_char]
  exact scanFrom_space

private theorem scanFrom_punctWord {k : TokenKind} {c : Char} {r : List Char} {more : List Rune}
    {p : Pos} {acc : Array Token} (htext : (⟨k, ""⟩ : Word).text = c :: r)
    (hn : isNameStart c = false) (hd : c.isDigit = false) (hq : c ≠ '"') (hs : c = '/' → r = [])
    (hp : punctuation (.char c) (r.map Rune.char ++ .char ' ' :: more) =
      some (k, .char ' ' :: more)) :
    ∃ t p', t.word = ⟨k, ""⟩ ∧
      scanFrom ((⟨k, ""⟩ : Word).text.map Rune.char ++ .char ' ' :: more) p acc =
        scanFrom more p' (acc.push t) := by
  have hslash : Rune.char c = .char '/' → (r.map Rune.char ++ .char ' ' :: more).head? ≠
      some (.char '/') ∧ (r.map Rune.char ++ .char ' ' :: more).head? ≠ some (.char '*') := by
    intro h
    simp [hs (Rune.char.inj h)]
  rw [htext, List.map_cons, List.cons_append, scanFrom_other (c := .char c) hn hd hq hslash, hp]
  exact ⟨_, _, rfl, scanFrom_space⟩

theorem scanFrom_word {w : Word} (hw : w.Readable) (more : List Rune) (p : Pos)
    (acc : Array Token) :
    ∃ t p', t.word = w ∧
      scanFrom (w.text.map Rune.char ++ .char ' ' :: more) p acc = scanFrom more p' (acc.push t) := by
  obtain ⟨k, s⟩ := w
  cases k
  case ident =>
    obtain ⟨c, cs, hs, hc, hcs, hkw⟩ := isName_iff.mp hw
    refine ⟨nameToken s p, (p.advance ((c :: cs).map Rune.char)).next (.char ' '), ?_, ?_⟩
    · simp [nameToken, hkw, Token.word]
    · simp only [Word.text, hs]
      rw [scanFrom_nameWord hc hcs, ← hs, String.ofList_toList]
  case keyword k =>
    have hs : s = k.spelling := hw
    subst hs
    obtain ⟨c, cs, hs, hc, hcs⟩ : ∃ c cs, k.spelling.toList = c :: cs ∧ isNameStart c = true ∧
        ∀ x ∈ cs, isNamePart x = true := by
      cases k <;> exact ⟨_, _, rfl, by decide, List.all_eq_true.mp (by decide)⟩
    refine ⟨⟨.keyword k, k.spelling, p⟩, (p.advance ((c :: cs).map Rune.char)).next (.char ' '),
      rfl, ?_⟩
    simp only [Word.text, hs]
    rw [scanFrom_nameWord hc hcs, ← hs, String.ofList_toList]
    simp [nameToken, ofString?_spelling]
  case number =>
    obtain ⟨n, rfl⟩ := hw
    obtain ⟨c, cs, hcs, hc, hscan⟩ := numeral_text_scan n
    refine ⟨⟨.number, String.ofList (c :: cs), p⟩,
      (p.advance ((c :: cs).map Rune.char)).next (.char ' '), by simp [Token.word, hcs], ?_⟩
    have hc' : digit (.char c) = true := hc
    simp only [Word.text, String.toList_ofList, hcs, List.map_cons, List.cons_append]
    rw [scanFrom_digit hc', hscan, scanFrom_space]
    simp
  case string =>
    refine ⟨⟨.string, s, p⟩, (after p (.char '"' :: ((escape s.toList).map Rune.char ++
      .char '"' :: .char ' ' :: more)) (.char ' ' :: more)).next (.char ' '), rfl, ?_⟩
    simp only [Word.text, List.map_cons, List.map_append, List.cons_append, List.append_assoc,
      List.nil_append, List.map_nil]
    rw [scanFrom_quote (scanString_escape s.toList (.char ' ' :: more)), String.ofList_toList,
      scanFrom_space]
  case eof => exact hw.elim
  all_goals
    have hs : s = "" := hw
    subst hs
    exact scanFrom_punctWord rfl (by decide) (by decide) (by decide) (by decide) rfl

theorem scanFrom_words {ws : List Word} (h : ∀ w ∈ ws, w.Readable) (more : List Rune)
    (p : Pos) (acc : Array Token) :
    ∃ (ts : List Token) (p' : Pos), ts.map Token.word = ws ∧
      scanFrom ((ws.flatMap fun w => w.text ++ [' ']).map Rune.char ++ more) p acc =
        scanFrom more p' (acc ++ ts.toArray) := by
  induction ws generalizing p acc with
  | nil => exact ⟨[], p, rfl, by simp⟩
  | cons w ws ih =>
    obtain ⟨t, p1, ht, h1⟩ := scanFrom_word (h w (by simp))
      ((ws.flatMap fun w => w.text ++ [' ']).map Rune.char ++ more) p acc
    obtain ⟨ts, p2, hts, h2⟩ := ih (fun w hw => h w (by simp [hw])) p1 (acc.push t)
    refine ⟨t :: ts, p2, by simp [ht, hts], ?_⟩
    simp only [List.flatMap_cons, List.map_append, List.append_assoc, List.map_cons,
      List.cons_append, List.nil_append]
    rw [h1, h2]
    simp

/-- The text of readable words lexes as those words, then the end of input. -/
theorem tokenize_render {ws : List Word} (h : ∀ w ∈ ws, w.Readable) :
    ∃ (ts : List Token) (p : Pos), tokenize (render ws) = .ok (ts ++ [⟨.eof, "", p⟩]) ∧
      ts.map Token.word = ws := by
  obtain ⟨ts, p, hts, hscan⟩ := scanFrom_words h [] Pos.start #[]
  refine ⟨ts, p, ?_, hts⟩
  simp only [List.append_nil] at hscan
  simp only [tokenize_eq, tokenizeRunes, render, String.toList_ofList, hscan, scanFrom,
    Except.map]
  simp

/-! ### Every word of a well-formed program is readable -/

def AllReadable (ws : List Word) : Prop := ∀ w ∈ ws, w.Readable

theorem readable_name {x : String} (h : isName x = true) : (name x).Readable := h

namespace AllReadable

theorem nil : AllReadable [] := by simp [AllReadable]

theorem cons {w : Word} {ws : List Word} (h : w.Readable) (hs : AllReadable ws) :
    AllReadable (w :: ws) := by
  simp only [AllReadable, List.mem_cons, forall_eq_or_imp]
  exact ⟨h, hs⟩

theorem append {a b : List Word} (ha : AllReadable a) (hb : AllReadable b) :
    AllReadable (a ++ b) := by
  simp only [AllReadable, List.mem_append]
  rintro w (h | h)
  exacts [ha w h, hb w h]

theorem punct {k : TokenKind} (hk : (punct k).Readable) {ws : List Word}
    (h : AllReadable ws) : AllReadable (Printer.punct k :: ws) := cons hk h

theorem paren {ws : List Word} (h : AllReadable ws) : AllReadable (Printer.paren ws) :=
  show AllReadable (Printer.punct .lparen :: ws ++ [Printer.punct .rparen]) from
    cons rfl (append h (cons rfl nil))

theorem braced {ws : List Word} (h : AllReadable ws) : AllReadable (Printer.braced ws) :=
  show AllReadable (Printer.punct .lbrace :: ws ++ [Printer.punct .rbrace]) from
    cons rfl (append h (cons rfl nil))

theorem names {xs : List String} (h : xs.all isName = true) : AllReadable (Printer.names xs) := by
  induction xs using Printer.names.induct with
  | case1 => exact nil
  | case2 x =>
    have hx : isName x = true := by simpa using h
    exact cons hx nil
  | case3 x y xs ih =>
    simp only [List.all_cons, Bool.and_eq_true] at h
    exact cons h.1 (cons rfl (ih (by simpa using h.2)))

end AllReadable

mutual

theorem Expr.allReadable_words : ∀ e : Expr, e.wellFormed = true → AllReadable e.words
  | .num x _, _ => .cons ⟨Numeral.ofLiteral x, rfl⟩ .nil
  | .str _ _, _ => .cons trivial .nil
  | .ident _ _, h => .cons h .nil
  | .binary op l r _, h => by
    simp only [Expr.wellFormed, Bool.and_eq_true] at h
    rw [Expr.words]
    exact (Expr.allReadable_words l h.1).paren.append
      (.cons (by cases op <;> rfl) (Expr.allReadable_words r h.2).paren)
  | .assign t v, h => by
    simp only [Expr.wellFormed, Bool.and_eq_true] at h
    rw [Expr.words]
    exact (Target.allReadable_words t h.1).append (.cons (by rfl) (Expr.allReadable_words v h.2).paren)
  | .array es _, h => by
    rw [Expr.words]
    exact .cons (by rfl) ((Expr.allReadable_listWords es h).append (.cons (by rfl) .nil))
  | .object fs _, h => (Field.allReadable_listWords fs h).braced
  | .member o _ _ _, h => by
    simp only [Expr.wellFormed, Bool.and_eq_true] at h
    rw [Expr.words]
    exact (Expr.allReadable_words o h.1).paren.append (.cons (by rfl) (.cons h.2 .nil))
  | .index o k _, h => by
    simp only [Expr.wellFormed, Bool.and_eq_true] at h
    rw [Expr.words]
    exact ((Expr.allReadable_words o h.1).paren.append
      (.cons (by rfl) (Expr.allReadable_words k h.2))).append (.cons (by rfl) .nil)
  | .call f as _, h => by
    simp only [Expr.wellFormed, Bool.and_eq_true] at h
    rw [Expr.words]
    exact ((Expr.allReadable_words f h.1).paren.append
      (.cons (by rfl) (Expr.allReadable_listWords as h.2))).append (.cons (by rfl) .nil)

theorem Target.allReadable_words : ∀ t : Target, t.wellFormed = true → AllReadable t.words
  | .var _ _, h => .cons h .nil
  | .member o _ _ _, h => by
    simp only [Target.wellFormed, Bool.and_eq_true] at h
    rw [Target.words]
    exact (Expr.allReadable_words o h.1).paren.append (.cons (by rfl) (.cons h.2 .nil))
  | .index o k _, h => by
    simp only [Target.wellFormed, Bool.and_eq_true] at h
    rw [Target.words]
    exact ((Expr.allReadable_words o h.1).paren.append
      (.cons (by rfl) (Expr.allReadable_words k h.2))).append (.cons (by rfl) .nil)

theorem Field.allReadable_words : ∀ f : Field, f.wellFormed = true → AllReadable f.words
  | .keyed _ _ v, h => by
    rw [Field.words]
    exact .cons trivial (.cons (by rfl) (Expr.allReadable_words v h))
  | .shorthand _ _, h => .cons h .nil

theorem Expr.allReadable_listWords :
    ∀ es : List Expr, Expr.allWellFormed es = true → AllReadable (Expr.listWords es)
  | [], _ => .nil
  | [e], h => by
    simp only [Expr.allWellFormed, Bool.and_eq_true] at h
    exact (Expr.allReadable_words e h.1).paren
  | e :: e' :: es, h => by
    simp only [Expr.allWellFormed, Bool.and_eq_true] at h
    rw [Expr.listWords]
    exact (Expr.allReadable_words e h.1).paren.append
      (.cons (by rfl) (Expr.allReadable_listWords (e' :: es) (by simp [Expr.allWellFormed, h.2])))

theorem Field.allReadable_listWords :
    ∀ fs : List Field, Field.allWellFormed fs = true → AllReadable (Field.listWords fs)
  | [], _ => .nil
  | [f], h => by
    simp only [Field.allWellFormed, Bool.and_eq_true] at h
    exact Field.allReadable_words f h.1
  | f :: f' :: fs, h => by
    simp only [Field.allWellFormed, Bool.and_eq_true] at h
    rw [Field.listWords]
    exact (Field.allReadable_words f h.1).append
      (.cons (by rfl) (Field.allReadable_listWords (f' :: fs) (by simp [Field.allWellFormed, h.2])))

end

mutual

theorem Stmt.allReadable_words : ∀ s : Stmt, s.wellFormed = true → AllReadable s.words
  | .expr e, h => by
    rw [Stmt.words]
    exact (Expr.allReadable_words e h).append (.cons (by rfl) .nil)
  | .letDecl _ none _, h => by
    rw [Stmt.words]
    exact .cons (by rfl) (.cons (readable_name h) (.cons (by rfl) .nil))
  | .letDecl _ (some e) _, h => by
    simp only [Stmt.wellFormed, Bool.and_eq_true] at h
    rw [Stmt.words]
    exact (AllReadable.cons (by rfl) (.cons (readable_name h.1) (.cons (by rfl) .nil))).append
      ((Expr.allReadable_words e h.2).append (.cons (by rfl) .nil))
  | .constDecl _ e _, h => by
    simp only [Stmt.wellFormed, Bool.and_eq_true] at h
    rw [Stmt.words]
    exact (AllReadable.cons (by rfl) (.cons (readable_name h.1) (.cons (by rfl) .nil))).append
      ((Expr.allReadable_words e h.2).append (.cons (by rfl) .nil))
  | .funcDecl _ ps body _, h => by
    simp only [Stmt.wellFormed, Bool.and_eq_true] at h
    rw [Stmt.words]
    exact ((AllReadable.cons (by rfl) (.cons (readable_name h.1.1) (.cons (by rfl) .nil))).append
      (AllReadable.names h.1.2)).append (.cons (by rfl) (Stmt.allReadable_listWords body h.2).braced)
  | .ret none _, _ => by
    rw [Stmt.words]
    exact .cons (by rfl) (.cons (by rfl) .nil)
  | .ret (some e) _, h => by
    rw [Stmt.words]
    exact .cons (by rfl) ((Expr.allReadable_words e h).append (.cons (by rfl) .nil))
  | .ifElse c t none _, h => by
    simp only [Stmt.wellFormed, Bool.and_eq_true] at h
    rw [Stmt.words]
    exact .cons (by rfl) ((Expr.allReadable_words c h.1).paren.append
      (Stmt.allReadable_listWords t h.2).braced)
  | .ifElse c t (some b) _, h => by
    simp only [Stmt.wellFormed, Bool.and_eq_true] at h
    rw [Stmt.words]
    exact (AllReadable.cons (by rfl) ((Expr.allReadable_words c h.1.1).paren.append
      (Stmt.allReadable_listWords t h.1.2).braced)).append
      (.cons (by rfl) (Stmt.allReadable_listWords b h.2).braced)
  | .forIn _ it body _, h => by
    simp only [Stmt.wellFormed, Bool.and_eq_true] at h
    rw [Stmt.words]
    exact ((AllReadable.cons (by rfl) (.cons (readable_name h.1.1) (.cons (by rfl) .nil))).append
      (Expr.allReadable_words it h.1.2).paren).append (Stmt.allReadable_listWords body h.2).braced

theorem Stmt.allReadable_listWords :
    ∀ ss : List Stmt, Stmt.allWellFormed ss = true → AllReadable (Stmt.listWords ss)
  | [], _ => .nil
  | s :: ss, h => by
    simp only [Stmt.allWellFormed, Bool.and_eq_true] at h
    rw [Stmt.listWords]
    exact (Stmt.allReadable_words s h.1).append (Stmt.allReadable_listWords ss h.2)

end

/-! ### Name tokens spell names -/

def NamesRead (ts : List Token) : Prop := ∀ t ∈ ts, t.kind = .ident → isName t.lexeme = true

theorem namesRead_nameToken {c : Rune} {r : List Rune} {p : Pos}
    (hc : isNameStart c.toChar = true) :
    NamesRead [nameToken (String.ofList ((c :: r.takeWhile partOfName).map Rune.toChar)) p] := by
  intro t ht hk
  simp only [List.mem_singleton] at ht
  subst ht
  cases hkw : Keyword.ofString? (String.ofList ((c :: r.takeWhile partOfName).map Rune.toChar)) with
  | some k => simp only [nameToken, hkw] at hk; cases hk
  | none =>
    simp only [nameToken, hkw]
    refine isName_iff.mpr ⟨c.toChar, _, by rw [String.toList_ofList, List.map_cons], hc, ?_, hkw⟩
    intro x hx
    obtain ⟨r', hr', rfl⟩ := List.mem_map.mp hx
    have hpart : partOfName r' = true := List.mem_takeWhile_imp hr'
    exact hpart

theorem NamesRead.push {ts : List Token} {t : Token} (hs : NamesRead ts) (ht : NamesRead [t]) :
    NamesRead (ts ++ [t]) := by
  intro u hu hk
  rcases List.mem_append.mp hu with hu | hu
  exacts [hs u hu hk, ht u hu hk]

theorem namesRead_of_ne {t : Token} (h : t.kind ≠ .ident) : NamesRead [t] := by
  intro u hu hk
  simp only [List.mem_singleton] at hu
  exact absurd (hu ▸ hk) h

theorem punctuation_ne_ident {c : Rune} {r rest : List Rune} {k : TokenKind}
    (h : punctuation c r = some (k, rest)) : k ≠ .ident := by
  unfold punctuation at h
  split at h <;> simp only [Option.some.injEq, Prod.mk.injEq, reduceCtorEq] at h <;>
    (try obtain ⟨rfl, -⟩ := h) <;> simp

theorem scanFrom_namesRead {cs : List Rune} {p : Pos} {acc : Array Token} {ts : Array Token}
    (h : scanFrom cs p acc = .ok ts) (hacc : NamesRead acc.toList) : NamesRead ts.toList := by
  fun_induction scanFrom cs p acc with
  | case1 p acc =>
    simp only [Except.ok.injEq] at h
    subst h
    intro t ht hk
    simp only [Array.toList_push, List.mem_append, List.mem_singleton] at ht
    rcases ht with ht | rfl
    · exact hacc t ht hk
    · simp at hk
  | case2 | case4 | case10 => rename_i ih; exact ih h hacc
  | case3 | case7 => simp at h
  | case5 p acc c r _ _ hc _ _ ih =>
    exact ih h (by rw [Array.toList_push]; exact hacc.push (namesRead_nameToken hc))
  | case6 _ acc _ _ _ _ _ _ _ _ ih =>
    exact ih h (by simpa using hacc.push (namesRead_of_ne (by simp)))
  | case8 _ acc _ _ _ _ _ _ _ _ _ _ _ ih =>
    exact ih h (by simpa using hacc.push (namesRead_of_ne (by simp)))
  | case9 _ acc _ _ _ _ _ _ _ _ _ hk _ ih =>
    exact ih h (by simpa using hacc.push (namesRead_of_ne (punctuation_ne_ident hk)))

/-- Every name token the lexer reads spells a name. -/
theorem tokenize_names {src : String} {ts : List Token} (h : tokenize src = .ok ts) :
    NamesRead ts := by
  rw [tokenize_eq, tokenizeRunes] at h
  cases hs : scanFrom (src.toList.map Rune.char) Pos.start #[] with
  | error e => simp [hs, Except.map] at h
  | ok arr =>
    simp only [hs, Except.map, Except.ok.injEq] at h
    subst h
    exact scanFrom_namesRead hs (by simp [NamesRead])

end Treewalk.Lexer
