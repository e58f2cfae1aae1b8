import Treewalk.Syntax.Position
/-!
# Tokens

A token is a kind, a lexeme and the position of its first character. Names, numbers and
strings carry their text as lexeme (a string its decoded contents); keywords carry their own
spelling; punctuation and the end of input carry the empty lexeme. Every kind has the name
under which messages cite it.
-/
namespace Treewalk

/-- The reserved words of the language. -/
inductive Keyword
  | letKw | constKw | mutKw | funcKw | retKw | ifKw | elseKw | forKw | inKw
deriving DecidableEq, Repr, Inhabited

namespace Keyword

def spelling : Keyword → String
  | letKw => "let"
  | constKw => "const"
  | mutKw => "mut"
  | funcKw => "func"
  | retKw => "ret"
  | ifKw => "if"
  | elseKw => "else"
  | forKw => "for"
  | inKw => "in"

def all : List Keyword := [letKw, constKw, mutKw, funcKw, retKw, ifKw, elseKw, forKw, inKw]

def ofString? (s : String) : Option Keyword :=
  all.find? (fun k => k.spelling == s)

end Keyword

/-- The kinds of token. `::` is read as `dot`. -/
inductive TokenKind
  | eof | ident | number | string
  | keyword (k : Keyword)
  | assign | eqEq | bangEq | plus | minus | star | slash | percent | less | greater
  | comma | semicolon | colon | dot
  | lparen | rparen | lbrace | rbrace | lbracket | rbracket
deriving DecidableEq, Repr, Inhabited

namespace TokenKind

/-- The name of a kind in messages: the spelling for keywords and punctuation. -/
def name : TokenKind → String
  | eof => "EOF"
  | ident => "identifier"
  | number => "number"
  | string => "string"
  | keyword k => k.spelling
  | assign => "="
  | eqEq => "=="
  | bangEq => "!="
  | plus => "+"
  | minus => "-"
  | star => "*"
  | slash => "/"
  | percent => "%"
  | less => "<"
  | greater => ">"
  | comma => ","
  | semicolon => ";"
  | colon => ":"
  | dot => "."
  | lparen => "("
  | rparen => ")"
  | lbrace => "\x7b"
  | rbrace => "\x7d"
  | lbracket => "["
  | rbracket => "]"

end TokenKind

/-- A token: its kind, its lexeme and where it starts. -/
structure Token where
  kind : TokenKind
  lexeme : String
  pos : Pos
deriving DecidableEq, Repr, Inhabited

end Treewalk
