import Treewalk.Text.Letter
import Treewalk.Error
/-!
# Reading a source into tokens

The lexer reads the runes of a source from left to right. A name starts with a Unicode letter
and goes on with letters, ASCII digits, `_`, `-` and `!`; a number is a run of ASCII digits,
with a fractional part only when a digit follows the point (so `1.x` is a member access); a
string runs between double quotes, where `\n`, `\t`, `\\` and `\"` are escapes and a
backslash before any other rune stands for that rune. Line comments `//` and block comments
`/* */` are skipped, and so is every rune that starts no token, spaces and invalid bytes
included; inside a string an invalid byte stands for U+FFFD. The only failures are a string or
a block comment that the source ends inside of.

Each token records the position of its first rune; the last token is the end of input.
-/
namespace Treewalk.Lexer

/-- Whether `c` may start a name: a Unicode letter. -/
def isNameStart (c : Char) : Bool := Text.isLetter c

def isNamePart (c : Char) : Bool :=
  Text.isLetter c || c.isDigit || c == '_' || c == '-' || c == '!'

def partOfName (r : Rune) : Bool := isNamePart r.toChar

def digit (r : Rune) : Bool := r.toChar.isDigit

/-- The rest of the source after a line comment's body: past the next line feed, if any. -/
def skipLine (rs : List Rune) : List Rune :=
  match rs.dropWhile (·.toChar != '\n') with
  | [] => []
  | _ :: rest => rest

/-- The rest of the source after a block comment's body, or `none` when no `*/` closes it. -/
def skipBlock : List Rune → Option (List Rune)
  | [] => none
  | .char '*' :: .char '/' :: rest => some rest
  | _ :: rest => skipBlock rest

def unescape (c : Char) : Char :=
  if c = 'n' then '\n' else if c = 't' then '\t' else c

/-- The decoded contents of a string literal whose opening quote is already read, and the rest
of the source after its closing quote; `none` when the source ends first. -/
def scanString : List Rune → Option (List Char × List Rune)
  | [] => none
  | .char '"' :: rest => some ([], rest)
  | [.char '\\'] => none
  | .char '\\' :: e :: rest => (scanString rest).map (fun r => (unescape e.toChar :: r.1, r.2))
  | c :: rest => (scanString rest).map (fun r => (c.toChar :: r.1, r.2))

/-- The digits of a number after its first digit, and the rest: a fractional part is taken only
when a digit follows the point. -/
def scanNumber (rs : List Rune) : List Rune × List Rune :=
  match rs.dropWhile digit with
  | .char '.' :: d :: more =>
    if digit d then
      (rs.takeWhile digit ++ .char '.' :: d :: more.takeWhile digit, more.dropWhile digit)
    else (rs.takeWhile digit, .char '.' :: d :: more)
  | rest => (rs.takeWhile digit, rest)

/-- The punctuation token that starts with `c` followed by `rest`, and the rest after it;
`none` when `c` starts none (a `!` not followed by `=` starts none). -/
def punctuation (c : Rune) (rest : List Rune) : Option (TokenKind × List Rune) :=
  match c, rest with
  | .char ':', .char ':' :: r => some (.dot, r)
  | .char '=', .char '=' :: r => some (.eqEq, r)
  | .char '!', .char '=' :: r => some (.bangEq, r)
  | .char '+', r => some (.plus, r)
  | .char '-', r => some (.minus, r)
  | .char '*', r => some (.star, r)
  | .char '/', r => some (.slash, r)
  | .char '%', r => some (.percent, r)
  | .char '<', r => some (.less, r)
  | .char '>', r => some (.greater, r)
  | .char '(', r => some (.lparen, r)
  | .char ')', r => some (.rparen, r)
  | .char '\x7b', r => some (.lbrace, r)
  | .char '\x7d', r => some (.rbrace, r)
  | .char '[', r => some (.lbracket, r)
  | .char ']', r => some (.rbracket, r)
  | .char ',', r => some (.comma, r)
  | .char ';', r => some (.semicolon, r)
  | .char '.', r => some (.dot, r)
  | .char ':', r => some (.colon, r)
  | .char '=', r => some (.assign, r)
  | _, _ => none

def nameToken (s : String) (p : Pos) : Token :=
  match Keyword.ofString? s with
  | some k => ⟨.keyword k, s, p⟩
  | none => ⟨.ident, s, p⟩

theorem skipBlock_length {rs rest : List Rune} (h : skipBlock rs = some rest) :
    rest.length < rs.length := by
  fun_induction skipBlock rs with
  | case1 => simp at h
  | case2 r => simp at h; subst h; simp only [List.length_cons]; omega
  | case3 c r _ ih => exact Nat.lt_succ_of_lt (ih h)

theorem scanString_length {rs rest : List Rune} {d : List Char}
    (h : scanString rs = some (d, rest)) : rest.length < rs.length := by
  fun_induction scanString rs generalizing d with
  | case1 => simp at h
  | case2 r => simp at h; rw [← h.2]; simp
  | case3 => simp at h
  | case4 e r ih =>
    cases hs : scanString r with
    | none => simp [hs] at h
    | some q =>
      simp [hs] at h
      have := ih (d := q.1) (by rw [hs, ← h.2])
      simp only [List.length_cons]; omega
  | case5 c r _ _ _ ih =>
    cases hs : scanString r with
    | none => simp [hs] at h
    | some q =>
      simp [hs] at h
      have := ih (d := q.1) (by rw [hs, ← h.2])
      simp only [List.length_cons]; omega

theorem skipLine_length (rs : List Rune) : (skipLine rs).length ≤ rs.length := by
  unfold skipLine
  have h := (List.dropWhile_suffix (·.toChar != '\n') (l := rs)).length_le
  split
  · simp
  · next rest heq =>
    rw [heq, List.length_cons] at h
    omega

theorem scanNumber_length (rs : List Rune) : (scanNumber rs).2.length ≤ rs.length := by
  have h1 := (List.dropWhile_suffix digit (l := rs)).length_le
  unfold scanNumber
  split
  · next d more heq =>
    have h2 := (List.dropWhile_suffix digit (l := more)).length_le
    rw [heq] at h1
    simp only [List.length_cons] at h1
    split <;> simp only [List.length_cons] <;> omega
  · exact h1

theorem punctuation_length {c : Rune} {r rest : List Rune} {k : TokenKind}
    (h : punctuation c r = some (k, rest)) : rest.length ≤ r.length := by
  unfold punctuation at h
  split at h <;> simp only [Option.some.injEq, Prod.mk.injEq, reduceCtorEq] at h <;>
    obtain ⟨-, rfl⟩ := h <;> simp

def after (p : Pos) (rs rest : List Rune) : Pos :=
  p.advance (rs.take (rs.length - rest.length))

/-- The tokens of `rs`, read from position `p`, after the tokens `acc` already read. -/
def scanFrom (rs : List Rune) (p : Pos) (acc : Array Token) : Except Error (Array Token) :=
  match rs with
  | [] => .ok (acc.push ⟨.eof, "", p⟩)
  | .char '/' :: .char '/' :: r =>
    have := skipLine_length r
    scanFrom (skipLine r) (after p rs (skipLine r)) acc
  | .char '/' :: .char '*' :: r =>
    match h : skipBlock r with
    | none => .error { fault := .unterminatedComment, pos := some p, incomplete := true }
    | some rest =>
      have := skipBlock_length h
      scanFrom rest (after p rs rest) acc
  | c :: r =>
    if isNameStart c.toChar then
      let name := c :: r.takeWhile partOfName
      have := (List.dropWhile_suffix partOfName (l := r)).length_le
      scanFrom (r.dropWhile partOfName) (p.advance name)
        (acc.push (nameToken (String.ofList (name.map Rune.toChar)) p))
    else if digit c then
      let lexeme := c :: (scanNumber r).1
      have := scanNumber_length r
      scanFrom (scanNumber r).2 (p.advance lexeme)
        (acc.push ⟨.number, String.ofList (lexeme.map Rune.toChar), p⟩)
    else if c.toChar = '"' then
      match h : scanString r with
      | none => .error { fault := .unterminatedString, pos := some p, incomplete := true }
      | some (d, rest) =>
        have := scanString_length h
        scanFrom rest (after p rs rest) (acc.push ⟨.string, String.ofList d, p⟩)
    else
      match h : punctuation c r with
      | some (k, rest) =>
        have := punctuation_length h
        scanFrom rest (after p rs rest) (acc.push ⟨k, "", p⟩)
      | none => scanFrom r (p.next c) acc
termination_by rs.length
decreasing_by all_goals simp only [List.length_cons]; omega

/-- The tokens of the runes `rs`, ending with the end of input; or the error of a string or a
block comment that the runes end inside of. -/
def tokenizeRunes (rs : List Rune) : Except Error (List Token) :=
  (scanFrom rs Pos.start #[]).map Array.toList

/-- The tokens of a source given as bytes. -/
def tokenizeBytes (src : List UInt8) : Except Error (List Token) :=
  tokenizeRunes (decodeRunes src)

/-- The tokens of a source text, read through its UTF-8 bytes. -/
def tokenize (src : String) : Except Error (List Token) :=
  tokenizeBytes src.toUTF8.data.toList

end Treewalk.Lexer
