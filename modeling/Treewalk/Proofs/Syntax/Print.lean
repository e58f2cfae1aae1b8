import Mathlib
import Treewalk.Syntax.Parser
import Treewalk.Proofs.Value.Literal
/-!
# The canonical printer

The printer writes a program as words separated by single spaces. Every operand of a binary
operator, every callee, member object, array element and argument, every `if` condition and
`for` iterable and every assigned value stands in parentheses. Expression statements,
declarations and returns end with `;`, every body and `else` branch is braced, elements and
parameters are separated by commas, and an object key is written as a string. A string is
written between quotes with backslash and quote escaped, a number as the exact decimal of its
double (`Numeral.ofLiteral`).

A program is well formed when every name in it (variables, declared names, parameters, loop
bindings, member names after a dot, shorthand properties) is one the lexer reads back as a
name, and every number in it is a literal: positive infinity or a finite double with a clear
sign bit, so no NaN, negative number or `-0`, none of which a numeral can spell. What else a
hand-built tree could get wrong (a text that is not UTF-8, an assignment to a call, a constant
without a value) the types already exclude.

`nesting` counts how deep the parser goes to read a printed construct back, level for level
as `Parser.enter` counts, and `erase` forgets positions.
-/
namespace Treewalk

/-- A token as the printer writes it: its kind and its lexeme. -/
structure Word where
  kind : TokenKind
  lexeme : String
deriving DecidableEq, Repr

def Token.word (t : Token) : Word := ⟨t.kind, t.lexeme⟩

def padDigits (width k : Nat) : List Char :=
  List.replicate (width - (Nat.toDigits 10 k).length) '0' ++ Nat.toDigits 10 k

/-- The numeral written out: the digits of its whole part and, for a positive scale, a point
and exactly `scale` digits of its fractional part. -/
def Numeral.text (n : Numeral) : List Char :=
  if n.scale = 0 then Nat.toDigits 10 n.mantissa
  else Nat.toDigits 10 (n.mantissa / 10 ^ n.scale) ++
    '.' :: padDigits n.scale (n.mantissa % 10 ^ n.scale)

def BinOp.token : BinOp → TokenKind
  | .add => .plus
  | .sub => .minus
  | .mul => .star
  | .div => .slash
  | .mod => .percent
  | .eq => .eqEq
  | .ne => .bangEq
  | .lt => .less
  | .gt => .greater

namespace Lexer

/-- Whether the lexer reads `s` back as one name: a letter, then letters, digits, `_`, `-` or
`!`, and no keyword. -/
def isName (s : String) : Bool :=
  match s.toList with
  | c :: cs => isNameStart c && cs.all isNamePart && (Keyword.ofString? s).isNone
  | [] => false

end Lexer

namespace Printer

def escape : List Char → List Char
  | [] => []
  | c :: cs => if c = '\\' ∨ c = '"' then '\\' :: c :: escape cs else c :: escape cs

end Printer

/-- How a word is written: a name or number as its lexeme, a string between quotes, keywords
and punctuation as their spelling. -/
def Word.text (w : Word) : List Char :=
  match w.kind with
  | .ident | .number => w.lexeme.toList
  | .string => '"' :: Printer.escape w.lexeme.toList ++ ['"']
  | .keyword k => k.spelling.toList
  | k => k.name.toList

namespace Printer

def render (ws : List Word) : String :=
  String.ofList (ws.flatMap fun w => w.text ++ [' '])

def punct (k : TokenKind) : Word := ⟨k, ""⟩

def kw (k : Keyword) : Word := ⟨.keyword k, k.spelling⟩

def name (s : String) : Word := ⟨.ident, s⟩

def paren (ws : List Word) : List Word := punct .lparen :: ws ++ [punct .rparen]

def braced (ws : List Word) : List Word := punct .lbrace :: ws ++ [punct .rbrace]

def names : List String → List Word
  | [] => []
  | [x] => [name x]
  | x :: y :: xs => name x :: punct .comma :: names (y :: xs)

end Printer

open Printer

mutual

def Expr.words : Expr → List Word
  | .num x _ => [⟨.number, String.ofList (Numeral.ofLiteral x).text⟩]
  | .str s _ => [⟨.string, s⟩]
  | .ident x _ => [name x]
  | .binary op l r _ => paren l.words ++ punct op.token :: paren r.words
  | .assign t v => t.words ++ punct .assign :: paren v.words
  | .array es _ => punct .lbracket :: Expr.listWords es ++ [punct .rbracket]
  | .object fs _ => braced (Field.listWords fs)
  | .member o x _ _ => paren o.words ++ [punct .dot, name x]
  | .index o k _ => paren o.words ++ punct .lbracket :: k.words ++ [punct .rbracket]
  | .call f as _ => paren f.words ++ punct .lparen :: Expr.listWords as ++ [punct .rparen]

def Target.words : Target → List Word
  | .var x _ => [name x]
  | .member o x _ _ => paren o.words ++ [punct .dot, name x]
  | .index o k _ => paren o.words ++ punct .lbracket :: k.words ++ [punct .rbracket]

def Field.words : Field → List Word
  | .keyed k _ v => ⟨.string, k⟩ :: punct .colon :: v.words
  | .shorthand k _ => [name k]

def Expr.listWords : List Expr → List Word
  | [] => []
  | [e] => paren e.words
  | e :: e' :: es => paren e.words ++ punct .comma :: Expr.listWords (e' :: es)

def Field.listWords : List Field → List Word
  | [] => []
  | [f] => f.words
  | f :: f' :: fs => f.words ++ punct .comma :: Field.listWords (f' :: fs)

end

mutual

def Stmt.words : Stmt → List Word
  | .expr e => e.words ++ [punct .semicolon]
  | .letDecl x none _ => [kw .letKw, name x, punct .semicolon]
  | .letDecl x (some e) _ => [kw .letKw, name x, punct .assign] ++ e.words ++ [punct .semicolon]
  | .constDecl x e _ => [kw .constKw, name x, punct .assign] ++ e.words ++ [punct .semicolon]
  | .funcDecl f ps body _ =>
    [kw .funcKw, name f, punct .lparen] ++ names ps ++ punct .rparen ::
      braced (Stmt.listWords body)
  | .ret none _ => [kw .retKw, punct .semicolon]
  | .ret (some e) _ => kw .retKw :: e.words ++ [punct .semicolon]
  | .ifElse c t none _ => kw .ifKw :: paren c.words ++ braced (Stmt.listWords t)
  | .ifElse c t (some b) _ =>
    kw .ifKw :: paren c.words ++ braced (Stmt.listWords t) ++
      kw .elseKw :: braced (Stmt.listWords b)
  | .forIn x it body _ =>
    [kw .forKw, name x, kw .inKw] ++ paren it.words ++ braced (Stmt.listWords body)

def Stmt.listWords : List Stmt → List Word
  | [] => []
  | s :: ss => s.words ++ Stmt.listWords ss

end

/-- Whether the lexer reads a word back from its text: a name that spells no keyword, the text
of a numeral, any string, a keyword, or punctuation. -/
def Word.Readable (w : Word) : Prop :=
  match w.kind with
  | .ident => Lexer.isName w.lexeme = true
  | .number => ∃ n : Numeral, w.lexeme = String.ofList n.text
  | .string => True
  | .keyword k => w.lexeme = k.spelling
  | .eof => False
  | _ => w.lexeme = ""

/-- The canonical text of a program. -/
def Program.print (p : Program) : String := render (Stmt.listWords p)

open Lexer

mutual

/-- Whether every name in an expression reads back as a name, and every number is a literal. -/
def Expr.wellFormed : Expr → Bool
  | .num x _ => Binary64.isLiteral x
  | .str _ _ => true
  | .ident x _ => isName x
  | .binary _ l r _ => l.wellFormed && r.wellFormed
  | .assign t v => t.wellFormed && v.wellFormed
  | .array es _ => Expr.allWellFormed es
  | .object fs _ => Field.allWellFormed fs
  | .member o x _ _ => o.wellFormed && isName x
  | .index o k _ => o.wellFormed && k.wellFormed
  | .call f as _ => f.wellFormed && Expr.allWellFormed as

def Target.wellFormed : Target → Bool
  | .var x _ => isName x
  | .member o x _ _ => o.wellFormed && isName x
  | .index o k _ => o.wellFormed && k.wellFormed

def Field.wellFormed : Field → Bool
  | .keyed _ _ v => v.wellFormed
  | .shorthand k _ => isName k

def Expr.allWellFormed : List Expr → Bool
  | [] => true
  | e :: es => e.wellFormed && Expr.allWellFormed es

def Field.allWellFormed : List Field → Bool
  | [] => true
  | f :: fs => f.wellFormed && Field.allWellFormed fs

end

mutual

def Stmt.wellFormed : Stmt → Bool
  | .expr e => e.wellFormed
  | .letDecl x none _ => isName x
  | .letDecl x (some e) _ | .constDecl x e _ => isName x && e.wellFormed
  | .funcDecl f ps body _ => isName f && ps.all isName && Stmt.allWellFormed body
  | .ret none _ => true
  | .ret (some e) _ => e.wellFormed
  | .ifElse c t none _ => c.wellFormed && Stmt.allWellFormed t
  | .ifElse c t (some b) _ => c.wellFormed && Stmt.allWellFormed t && Stmt.allWellFormed b
  | .forIn x it body _ => isName x && it.wellFormed && Stmt.allWellFormed body

def Stmt.allWellFormed : List Stmt → Bool
  | [] => true
  | s :: ss => s.wellFormed && Stmt.allWellFormed ss

end

def Program.wellFormed (p : Program) : Bool := Stmt.allWellFormed p

mutual

/-- How many levels `Parser.enter` counts to read a printed expression, its own included. -/
def Expr.nesting : Expr → Nat
  | .num _ _ | .str _ _ | .ident _ _ => 1
  | .binary _ l r _ => 1 + max l.nesting r.nesting
  | .assign t v => max (1 + t.nesting) (2 + v.nesting)
  | .array es _ => 1 + Expr.listNesting es
  | .object fs _ => 1 + Field.listNesting fs
  | .member o _ _ _ => 1 + o.nesting
  | .index o k _ => 1 + max o.nesting k.nesting
  | .call f as _ => 1 + max f.nesting (Expr.listNesting as)

/-- How many levels a printed target adds to its assignment's. -/
def Target.nesting : Target → Nat
  | .var _ _ => 0
  | .member o _ _ _ => o.nesting
  | .index o k _ => max o.nesting k.nesting

/-- How many levels a printed property adds to its object's. -/
def Field.nesting : Field → Nat
  | .keyed _ _ v => v.nesting
  | .shorthand _ _ => 0

def Expr.listNesting : List Expr → Nat
  | [] => 0
  | e :: es => max (1 + e.nesting) (Expr.listNesting es)

def Field.listNesting : List Field → Nat
  | [] => 0
  | f :: fs => max f.nesting (Field.listNesting fs)

end

mutual

/-- How many levels a printed statement goes below the block it stands in. -/
def Stmt.nesting : Stmt → Nat
  | .expr e => e.nesting
  | .letDecl _ none _ | .ret none _ => 0
  | .letDecl _ (some e) _ | .constDecl _ e _ | .ret (some e) _ => e.nesting
  | .funcDecl _ _ body _ => 1 + Stmt.listNesting body
  | .ifElse c t none _ => 1 + max c.nesting (Stmt.listNesting t)
  | .ifElse c t (some b) _ =>
    1 + max c.nesting (max (Stmt.listNesting t) (Stmt.listNesting b))
  | .forIn _ it body _ => 1 + max it.nesting (Stmt.listNesting body)

def Stmt.listNesting : List Stmt → Nat
  | [] => 0
  | s :: ss => max s.nesting (Stmt.listNesting ss)

end

/-- How many levels the parser goes down to read a printed program. -/
def Program.nesting (p : Program) : Nat := Stmt.listNesting p

mutual

/-- An expression with every position forgotten. -/
def Expr.erase : Expr → Expr
  | .num x _ => .num x default
  | .str s _ => .str s default
  | .ident x _ => .ident x default
  | .binary op l r _ => .binary op l.erase r.erase default
  | .assign t v => .assign t.erase v.erase
  | .array es _ => .array (Expr.eraseList es) default
  | .object fs _ => .object (Field.eraseList fs) default
  | .member o x _ _ => .member o.erase x default default
  | .index o k _ => .index o.erase k.erase default
  | .call f as _ => .call f.erase (Expr.eraseList as) default

/-- A target with every position forgotten. -/
def Target.erase : Target → Target
  | .var x _ => .var x default
  | .member o x _ _ => .member o.erase x default default
  | .index o k _ => .index o.erase k.erase default

/-- A property with every position forgotten. -/
def Field.erase : Field → Field
  | .keyed k _ v => .keyed k default v.erase
  | .shorthand k _ => .shorthand k default

def Expr.eraseList : List Expr → List Expr
  | [] => []
  | e :: es => e.erase :: Expr.eraseList es

def Field.eraseList : List Field → List Field
  | [] => []
  | f :: fs => f.erase :: Field.eraseList fs

end

mutual

/-- A statement with every position forgotten. -/
def Stmt.erase : Stmt → Stmt
  | .expr e => .expr e.erase
  | .letDecl x none _ => .letDecl x none default
  | .letDecl x (some e) _ => .letDecl x (some e.erase) default
  | .constDecl x e _ => .constDecl x e.erase default
  | .funcDecl f ps body _ => .funcDecl f ps (Stmt.eraseList body) default
  | .ret none _ => .ret none default
  | .ret (some e) _ => .ret (some e.erase) default
  | .ifElse c t none _ => .ifElse c.erase (Stmt.eraseList t) none default
  | .ifElse c t (some b) _ =>
    .ifElse c.erase (Stmt.eraseList t) (some (Stmt.eraseList b)) default
  | .forIn x it body _ => .forIn x it.erase (Stmt.eraseList body) default

def Stmt.eraseList : List Stmt → List Stmt
  | [] => []
  | s :: ss => s.erase :: Stmt.eraseList ss

end

/-- A program with every position forgotten. -/
def Program.erase (p : Program) : Program := Stmt.eraseList p

@[simp] theorem Expr.eraseList_eq_map (es : List Expr) : Expr.eraseList es = es.map Expr.erase := by
  induction es with
  | nil => rfl
  | cons e es ih => simp [Expr.eraseList, ih]

@[simp] theorem Field.eraseList_eq_map (fs : List Field) :
    Field.eraseList fs = fs.map Field.erase := by
  induction fs with
  | nil => rfl
  | cons f fs ih => simp [Field.eraseList, ih]

@[simp] theorem Stmt.eraseList_eq_map (ss : List Stmt) : Stmt.eraseList ss = ss.map Stmt.erase := by
  induction ss with
  | nil => rfl
  | cons s ss ih => simp [Stmt.eraseList, ih]

end Treewalk
