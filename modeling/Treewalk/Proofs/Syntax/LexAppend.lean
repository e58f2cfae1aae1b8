import Mathlib
import Treewalk.Proofs.Syntax.LexPrinted
/-!
# Lexing a text after a line feed

A token never runs past a line feed unless it is a string or a block comment, and those the
lexer only accepts once they are closed. So when a text that ends with a line feed lexes
without error, any text put after it is lexed on its own, from the position where the first
text ends: the tokens of the whole are those of the first text without its end of input,
followed by those of the second. This is what lets more input be given to the parser as a
continuation of the tokens it has seen.
-/
namespace Treewalk.Lexer

def EndsLine (cs : List Rune) : Prop := cs = [] ∨ cs.getLast? = some (.char '\n')

theorem EndsLine.of_suffix {cs rest : List Rune} (h : EndsLine cs) (hs : rest <:+ cs) :
    EndsLine rest := by
  obtain ⟨l, rfl⟩ := hs
  rcases h with h | h
  · exact .inl (List.append_eq_nil_iff.mp h).2
  · cases hr : rest.getLast? with
    | none => exact .inl (List.getLast?_eq_none_iff.mp hr)
    | some x =>
      rw [List.getLast?_append, hr] at h
      exact .inr (by rw [hr]; simpa using h)

theorem EndsLine.getLast?_tail {c : Rune} {r : List Rune} (h : EndsLine (c :: r))
    (hc : c ≠ .char '\n') : r.getLast? = some (.char '\n') := by
  rcases h with h | h
  · cases h
  · cases r with
    | nil => simp at h; exact absurd h hc
    | cons x r => rwa [List.getLast?_cons_cons] at h

theorem EndsLine.mem_tail {c : Rune} {r : List Rune} (h : EndsLine (c :: r))
    (hc : c ≠ .char '\n') : .char '\n' ∈ r :=
  List.mem_of_getLast? (h.getLast?_tail hc)

theorem EndsLine.tail {c : Rune} {r : List Rune} (h : EndsLine (c :: r)) : EndsLine r :=
  h.of_suffix (List.suffix_cons c r)

theorem takeWhile_append_of_mem {α : Type} {p : α → Bool} {xs ys : List α} {x : α} (hx : x ∈ xs)
    (hp : p x = false) : (xs ++ ys).takeWhile p = xs.takeWhile p := by
  induction xs with
  | nil => simp at hx
  | cons y xs ih =>
    by_cases hy : p y = true
    · rcases List.mem_cons.mp hx with rfl | hx
      · simp [hp] at hy
      · simp [hy, ih hx]
    · simp [hy]

theorem dropWhile_append_of_mem {α : Type} {p : α → Bool} {xs ys : List α} {x : α} (hx : x ∈ xs)
    (hp : p x = false) : (xs ++ ys).dropWhile p = xs.dropWhile p ++ ys := by
  induction xs with
  | nil => simp at hx
  | cons y xs ih =>
    by_cases hy : p y = true
    · rcases List.mem_cons.mp hx with rfl | hx
      · simp [hp] at hy
      · simp [hy, ih hx]
    · simp [hy]

theorem after_append {p : Pos} {cs rest : List Rune} (h : rest.length ≤ cs.length)
    (ds : List Rune) : after p (cs ++ ds) (rest ++ ds) = after p cs rest := by
  unfold after
  rw [List.length_append, List.length_append, Nat.add_sub_add_right,
    List.take_append_of_le_length (by omega)]

/-! ### Each scanner reads the same prefix of a longer text -/

theorem skipLine_suffix (r : List Rune) : skipLine r <:+ r := by
  unfold skipLine
  have h := List.dropWhile_suffix (·.toChar != '\n') (l := r)
  split
  · exact List.nil_suffix
  · next rest heq =>
    rw [heq] at h
    exact (List.suffix_cons _ rest).trans h

theorem skipLine_append {r : List Rune} (hr : .char '\n' ∈ r) (ds : List Rune) :
    skipLine (r ++ ds) = skipLine r ++ ds := by
  unfold skipLine
  rw [dropWhile_append_of_mem hr (by decide)]
  cases h : r.dropWhile (·.toChar != '\n') with
  | nil =>
    have := List.dropWhile_eq_nil_iff.mp h (.char '\n') hr
    simp at this
  | cons c rest => rfl

theorem skipBlock_suffix {r rest : List Rune} (h : skipBlock r = some rest) : rest <:+ r := by
  fun_induction skipBlock r with
  | case1 => simp at h
  | case2 r =>
    simp only [Option.some.injEq] at h
    subst h
    exact (List.suffix_cons _ _).trans (List.suffix_cons _ _)
  | case3 c r _ ih => exact (ih h).trans (List.suffix_cons c r)

theorem skipBlock_append {r rest : List Rune} (h : skipBlock r = some rest) (ds : List Rune) :
    skipBlock (r ++ ds) = some (rest ++ ds) := by
  fun_induction skipBlock r with
  | case1 => simp at h
  | case2 r =>
    simp only [Option.some.injEq] at h
    subst h
    rfl
  | case3 c r hne ih =>
    have hne' : ∀ r', c = .char '*' → r ++ ds = .char '/' :: r' → False := by
      intro r' hc hr
      cases r with
      | nil => simp [skipBlock] at h
      | cons x r₀ =>
        simp only [List.cons_append, List.cons.injEq] at hr
        exact hne r₀ hc (by rw [hr.1])
    rw [List.cons_append, skipBlock.eq_3 _ _ hne']
    exact ih h

theorem scanString_suffix {r rest : List Rune} {d : List Char}
    (h : scanString r = some (d, rest)) :
    rest <:+ r := by
  fun_induction scanString r generalizing d with
  | case1 => simp at h
  | case2 r =>
    simp only [Option.some.injEq, Prod.mk.injEq] at h
    rw [← h.2]
    exact List.suffix_cons _ _
  | case3 => simp at h
  | case4 e r ih =>
    obtain ⟨⟨q₁, q₂⟩, hq, hqe⟩ := Option.map_eq_some_iff.mp h
    simp only [Prod.mk.injEq] at hqe
    obtain ⟨rfl, rfl⟩ := hqe
    exact (ih hq).trans ((List.suffix_cons _ _).trans (List.suffix_cons _ _))
  | case5 c r _ _ _ ih =>
    obtain ⟨⟨q₁, q₂⟩, hq, hqe⟩ := Option.map_eq_some_iff.mp h
    simp only [Prod.mk.injEq] at hqe
    obtain ⟨rfl, rfl⟩ := hqe
    exact (ih hq).trans (List.suffix_cons _ _)

theorem scanString_append {r rest : List Rune} {d : List Char}
    (h : scanString r = some (d, rest)) (ds : List Rune) : scanString (r ++ ds) = some (d, rest ++ ds) := by
  fun_induction scanString r generalizing d with
  | case1 => simp at h
  | case2 r =>
    simp only [Option.some.injEq, Prod.mk.injEq] at h
    obtain ⟨rfl, rfl⟩ := h
    rfl
  | case3 => simp at h
  | case4 e r ih =>
    obtain ⟨⟨q₁, q₂⟩, hq, hqe⟩ := Option.map_eq_some_iff.mp h
    simp only [Prod.mk.injEq] at hqe
    obtain ⟨rfl, rfl⟩ := hqe
    rw [List.cons_append, List.cons_append, scanString.eq_4, ih hq]
    rfl
  | case5 c r hq₁ hb₁ hb₂ ih =>
    obtain ⟨⟨q₁, q₂⟩, hq, hqe⟩ := Option.map_eq_some_iff.mp h
    simp only [Prod.mk.injEq] at hqe
    obtain ⟨rfl, rfl⟩ := hqe
    -- an escape would have been read as one: `c` is a plain rune
    have hc : c ≠ .char '\\' := fun hc => by
      cases r with
      | nil => exact hb₁ hc rfl
      | cons e r => exact hb₂ e r hc rfl
    rw [List.cons_append, scanString.eq_5 _ _ hq₁ (fun h _ => hc h) (fun _ _ h _ => hc h), ih hq]
    rfl

theorem scanNumber_suffix (r : List Rune) : (scanNumber r).2 <:+ r := by
  have h := List.dropWhile_suffix digit (l := r)
  unfold scanNumber
  split
  · next d more heq =>
    rw [heq] at h
    split
    · exact (List.dropWhile_suffix _).trans
        (((List.suffix_cons _ _).trans (List.suffix_cons _ _)).trans h)
    · exact h
  · exact h

theorem scanNumber_append {r : List Rune} (hr : r.getLast? = some (.char '\n'))
    (ds : List Rune) : scanNumber (r ++ ds) = ((scanNumber r).1, (scanNumber r).2 ++ ds) := by
  have hmem : .char '\n' ∈ r := List.mem_of_getLast? hr
  have hend : EndsLine (r.dropWhile digit) :=
    EndsLine.of_suffix (.inr hr) (List.dropWhile_suffix _)
  have hne : r.dropWhile digit ≠ [] := by
    intro h
    have := List.dropWhile_eq_nil_iff.mp h (.char '\n') hmem
    simp [digit] at this
  unfold scanNumber
  rw [dropWhile_append_of_mem hmem (by decide), takeWhile_append_of_mem hmem (by decide)]
  generalize r.dropWhile digit = D at hend hne ⊢
  rcases D with _ | ⟨x, _ | ⟨d, more⟩⟩
  · exact absurd rfl hne
  · rcases hend with h | h
    · cases h
    · simp only [List.getLast?_singleton, Option.some.injEq] at h
      subst h
      rfl
  · by_cases hx : x = .char '.'
    · subst hx
      by_cases hd : digit d = true
      · have hm : .char '\n' ∈ more := by
          have := hend.tail.mem_tail (by rintro rfl; simp [digit] at hd)
          exact this
        simp only [List.cons_append, hd, if_true, takeWhile_append_of_mem (p := digit) hm
          (by decide), dropWhile_append_of_mem (p := digit) hm (by decide)]
      · simp only [List.cons_append, hd, Bool.false_eq_true, if_false]
    · simp only [List.cons_append]
      split
      · next heq => simp at heq; exact absurd heq.1 hx
      · split
        · next heq => simp at heq; exact absurd heq.1 hx
        · rfl

theorem punctuation_cons (c x : Rune) (t : List Rune) :
    punctuation c (x :: t) = (punctuation c [x]).map (fun q => (q.1, q.2 ++ t)) := by
  unfold punctuation
  split <;> simp_all

theorem punctuation_append {c : Rune} {r : List Rune} (hr : r ≠ []) (ds : List Rune) :
    punctuation c (r ++ ds) = (punctuation c r).map (fun q => (q.1, q.2 ++ ds)) := by
  obtain ⟨x, t, rfl⟩ := List.exists_cons_of_ne_nil hr
  rw [List.cons_append, punctuation_cons c x (t ++ ds), punctuation_cons c x t, Option.map_map]
  congr 1
  funext q
  simp

theorem punctuation_suffix {c : Rune} {r rest : List Rune} {k : TokenKind}
    (h : punctuation c r = some (k, rest)) : rest <:+ r := by
  unfold punctuation at h
  split at h <;> simp only [Option.some.injEq, Prod.mk.injEq, reduceCtorEq] at h <;>
    obtain ⟨-, rfl⟩ := h <;> simp [List.suffix_cons]

theorem punctuation_newline (r : List Rune) : punctuation (.char '\n') r = none := by
  unfold punctuation
  split <;> simp_all

theorem no_comment_append {c : Rune} {r : List Rune} (hr : r ≠ [])
    (h₁ : ∀ r', c = .char '/' → r = .char '/' :: r' → False)
    (h₂ : ∀ r', c = .char '/' → r = .char '*' :: r' → False) (ds : List Rune) :
    c = .char '/' → (r ++ ds).head? ≠ some (.char '/') ∧ (r ++ ds).head? ≠ some (.char '*') := by
  intro hc
  obtain ⟨x, t, rfl⟩ := List.exists_cons_of_ne_nil hr
  simp only [List.cons_append, List.head?_cons, ne_eq, Option.some.injEq]
  exact ⟨fun hx => h₁ t hc (by rw [hx]), fun hx => h₂ t hc (by rw [hx])⟩

/-- Lexing a text that ends with a line feed, then more: the tokens of the first text without
its end of input, then those of the rest, read from where the first text ends. -/
theorem scanFrom_append {cs : List Rune} {p : Pos} {acc out : Array Token}
    (h : scanFrom cs p acc = .ok out) (hc : EndsLine cs) :
    ∃ q acc', out = acc'.push ⟨.eof, "", q⟩ ∧
      ∀ ds, scanFrom (cs ++ ds) p acc = scanFrom ds q acc' := by
  fun_induction scanFrom cs p acc with
  | case1 p acc =>
    simp only [Except.ok.injEq] at h
    exact ⟨p, acc, h.symm, fun _ => rfl⟩
  | case2 p acc r _ ih =>
    have hr : .char '\n' ∈ r := hc.tail.mem_tail (by decide)
    obtain ⟨q, acc', hout, heq⟩ := ih h (hc.tail.tail.of_suffix (skipLine_suffix r))
    refine ⟨q, acc', hout, fun ds => ?_⟩
    have hlen : (skipLine r).length ≤ (.char '/' :: .char '/' :: r).length := by
      have := (skipLine_suffix r).length_le
      simp only [List.length_cons]
      omega
    show scanFrom (.char '/' :: .char '/' :: (r ++ ds)) p acc = _
    rw [scanFrom.eq_2, skipLine_append hr,
      show (.char '/' :: .char '/' :: (r ++ ds)) = (.char '/' :: .char '/' :: r) ++ ds from rfl,
      after_append hlen]
    exact heq ds
  | case3 => cases h
  | case4 p acc r rest hs _ ih =>
    obtain ⟨q, acc', hout, heq⟩ := ih h (hc.tail.tail.of_suffix (skipBlock_suffix hs))
    refine ⟨q, acc', hout, fun ds => ?_⟩
    have hlen : rest.length ≤ (.char '/' :: .char '*' :: r).length := by
      have := (skipBlock_suffix hs).length_le
      simp only [List.length_cons]
      omega
    show scanFrom (.char '/' :: .char '*' :: (r ++ ds)) p acc = _
    rw [scanFrom.eq_3]
    split
    · next h' => rw [skipBlock_append hs] at h'; cases h'
    · next rest' h' =>
      rw [skipBlock_append hs] at h'
      cases h'
      rw [show (.char '/' :: .char '*' :: (r ++ ds)) = (.char '/' :: .char '*' :: r) ++ ds from rfl,
        after_append hlen]
      exact heq ds
  | case5 p acc c r _ _ hn _ _ ih =>
    have hr : .char '\n' ∈ r := hc.mem_tail (by rintro rfl; exact absurd hn (by decide))
    obtain ⟨q, acc', hout, heq⟩ := ih h (hc.tail.of_suffix (List.dropWhile_suffix _))
    refine ⟨q, acc', hout, fun ds => ?_⟩
    rw [List.cons_append, scanFrom_name hn, takeWhile_append_of_mem (p := partOfName) hr
      (by decide), dropWhile_append_of_mem (p := partOfName) hr (by decide)]
    exact heq ds
  | case6 p acc c r _ _ _ hd _ _ ih =>
    have hr : r.getLast? = some (.char '\n') :=
      hc.getLast?_tail (by rintro rfl; exact absurd hd (by decide))
    obtain ⟨q, acc', hout, heq⟩ := ih h (hc.tail.of_suffix (scanNumber_suffix r))
    refine ⟨q, acc', hout, fun ds => ?_⟩
    rw [List.cons_append, scanFrom_digit hd, scanNumber_append hr]
    exact heq ds
  | case7 => cases h
  | case8 p acc c r _ _ _ _ hq d rest hs _ ih =>
    obtain rfl := Rune.eq_char_of_toChar hq (by decide)
    obtain ⟨q, acc', hout, heq⟩ := ih h (hc.tail.of_suffix (scanString_suffix hs))
    refine ⟨q, acc', hout, fun ds => ?_⟩
    have hlen : rest.length ≤ (.char '"' :: r).length := by
      have := (scanString_suffix hs).length_le
      simp only [List.length_cons]
      omega
    rw [List.cons_append, scanFrom_quote (scanString_append hs ds),
      show (.char '"' :: (r ++ ds)) = (.char '"' :: r) ++ ds from rfl, after_append hlen]
    exact heq ds
  | case9 p acc c r h₁ h₂ hn hd hq k rest hk _ ih =>
    have hcn : c ≠ .char '\n' := by
      rintro rfl
      rw [punctuation_newline] at hk
      cases hk
    have hr : r ≠ [] := by
      rintro rfl
      rcases hc with h | h
      · cases h
      · exact hcn (by simpa using h)
    obtain ⟨q, acc', hout, heq⟩ := ih h (hc.tail.of_suffix (punctuation_suffix hk))
    refine ⟨q, acc', hout, fun ds => ?_⟩
    have hlen : rest.length ≤ (c :: r).length := by
      have := (punctuation_suffix hk).length_le
      simp only [List.length_cons]
      omega
    rw [List.cons_append, scanFrom_other (by simpa using hn) (by simpa using hd) hq
      (no_comment_append hr h₁ h₂ ds), punctuation_append hr, hk]
    dsimp only [Option.map]
    rw [show (c :: (r ++ ds)) = (c :: r) ++ ds from rfl, after_append hlen]
    exact heq ds
  | case10 p acc c r h₁ h₂ hn hd hq hk ih =>
    obtain ⟨q, acc', hout, heq⟩ := ih h hc.tail
    refine ⟨q, acc', hout, fun ds => ?_⟩
    by_cases hr : r = []
    · -- the final line feed, skipped
      subst hr
      have hc' : c = .char '\n' := by
        rcases hc with h | h
        · cases h
        · simpa using h
      subst hc'
      rw [List.cons_append, List.nil_append, scanFrom_other (by decide) (by decide) (by decide)
        (fun h => absurd h (by decide)), punctuation_newline]
      exact heq ds
    · rw [List.cons_append, scanFrom_other (by simpa using hn) (by simpa using hd) hq
        (no_comment_append hr h₁ h₂ ds), punctuation_append hr, hk]
      exact heq ds

theorem scanFrom_ok {cs : List Rune} {p : Pos} {acc out : Array Token}
    (h : scanFrom cs p acc = .ok out) :
    ∃ more q, out.toList = acc.toList ++ more ++ [⟨.eof, "", q⟩] := by
  fun_induction scanFrom cs p acc with
  | case1 p acc =>
    simp only [Except.ok.injEq] at h
    exact ⟨[], p, by simp [← h]⟩
  | case2 | case4 | case10 => rename_i ih; exact ih h
  | case3 | case7 => cases h
  | case5 p acc c r _ _ _ name _ ih =>
    obtain ⟨more, q, hout⟩ := ih h
    exact ⟨nameToken (String.ofList (name.map Rune.toChar)) p :: more, q, by simp [hout]⟩
  | case6 p acc c r _ _ _ _ lexeme _ ih =>
    obtain ⟨more, q, hout⟩ := ih h
    exact ⟨⟨.number, String.ofList (lexeme.map Rune.toChar), p⟩ :: more, q, by simp [hout]⟩
  | case8 p acc _ _ _ _ _ _ _ d _ _ _ ih =>
    obtain ⟨more, q, hout⟩ := ih h
    exact ⟨⟨.string, String.ofList d, p⟩ :: more, q, by simp [hout]⟩
  | case9 p acc _ _ _ _ _ _ _ k _ _ _ ih =>
    obtain ⟨more, q, hout⟩ := ih h
    exact ⟨⟨k, "", p⟩ :: more, q, by simp [hout]⟩

/-- Runes that end with a line feed and lex: whatever runes follow them either fail to lex or
add their tokens after the first ones' own, the end of input moving to the new end. -/
theorem tokenizeRunes_append {pre : List Rune} {ts : List Token} (hend : EndsLine pre)
    (h : tokenizeRunes pre = .ok ts) :
    ∃ A q, ts = A ++ [⟨.eof, "", q⟩] ∧ ∀ more : List Rune,
      (∃ e, tokenizeRunes (pre ++ more) = .error e) ∨
      ∃ B q', tokenizeRunes (pre ++ more) = .ok (A ++ B ++ [⟨.eof, "", q'⟩]) := by
  unfold tokenizeRunes at h
  cases hs : scanFrom pre Pos.start #[] with
  | error e =>
    rw [hs] at h
    cases h
  | ok out =>
    rw [hs] at h
    simp only [Except.map, Except.ok.injEq] at h
    subst h
    obtain ⟨q, acc', hout, happ⟩ := scanFrom_append hs hend
    refine ⟨acc'.toList, q, by simp [hout], fun more => ?_⟩
    unfold tokenizeRunes
    rw [happ more]
    cases hs' : scanFrom more q acc' with
    | error e => exact .inl ⟨e, rfl⟩
    | ok out' =>
      obtain ⟨more, q', hout'⟩ := scanFrom_ok hs'
      exact .inr ⟨more, q', by simp [Except.map, hout']⟩

/-- A text that ends with a line feed and lexes: whatever follows it either fails to lex or
adds its tokens after the text's own, the end of input moving to the new end. -/
theorem tokenize_append {pre : String} {ts : List Token} (h : tokenize (pre ++ "\n") = .ok ts) :
    ∃ A q, ts = A ++ [⟨.eof, "", q⟩] ∧ ∀ s : String,
      (∃ e, tokenize (pre ++ "\n" ++ s) = .error e) ∨
      ∃ B q', tokenize (pre ++ "\n" ++ s) = .ok (A ++ B ++ [⟨.eof, "", q'⟩]) := by
  have hend : EndsLine ((pre ++ "\n").toList.map Rune.char) := .inr (by simp)
  rw [tokenize_eq] at h
  obtain ⟨A, q, hts, hmore⟩ := tokenizeRunes_append hend h
  refine ⟨A, q, hts, fun s => ?_⟩
  have hs := hmore (s.toList.map Rune.char)
  rwa [← List.map_append, ← String.toList_append, ← tokenize_eq] at hs

end Treewalk.Lexer
