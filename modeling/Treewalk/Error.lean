import Treewalk.Syntax.Token
import Treewalk.Value.Kind
import Treewalk.Text.Quoted
import Treewalk.Decimal.Layout
/-!
# Errors

Every failure of reading or running a program is a cause (`Fault`) with an optional source
position. The cause decides the error's kind and wording; the position, when known, is
written before the wording as `line:column: `. Reading errors also say whether more input
could still complete the text.
-/
namespace Treewalk

/-- The classes of failure. -/
inductive ErrorKind
  | lex | parse | nameResolution | duplicate | typeMismatch | arity | immutability
  | notCallable | notIterable | depth
deriving DecidableEq, Repr, Inhabited

def ErrorKind.name : ErrorKind → String
  | .lex => "Lex"
  | .parse => "Parse"
  | .nameResolution => "NameResolution"
  | .duplicate => "Duplicate"
  | .typeMismatch => "TypeMismatch"
  | .arity => "Arity"
  | .immutability => "Immutability"
  | .notCallable => "NotCallable"
  | .notIterable => "NotIterable"
  | .depth => "Depth"

/-- The causes of failure. -/
inductive Fault
  /-- A string literal runs to the end of the input. -/
  | unterminatedString
  /-- A block comment runs to the end of the input. -/
  | unterminatedComment
  /-- A token of kind `want` was needed where `found` stands. -/
  | expected (want found : TokenKind)
  /-- A constant is declared without a value. -/
  | constWithoutValue (name : String)
  /-- A block ends without its closing brace. -/
  | unclosedBlock
  /-- The left side of an assignment is neither a name nor a member. -/
  | invalidTarget
  /-- An object literal holds `found` where a property name belongs. -/
  | expectedPropertyName (found : TokenKind)
  /-- A property written as a string has no value. -/
  | expectedColon (key : String)
  /-- `found` cannot start an expression. -/
  | unexpectedToken (found : TokenKind)
  /-- Expressions and blocks nest deeper than `limit`. -/
  | nestingTooDeep (limit : Nat)
  /-- A name is declared twice in one scope. -/
  | alreadyDeclared (name : String)
  /-- A name is used where no scope binds it. -/
  | notDefined (name : String)
  /-- A constant is assigned. -/
  | assignToConstant (name : String)
  /-- A value of kind `k` is called. -/
  | notCallable (k : ValueKind)
  /-- `callee` is called with `got` arguments instead of `want`. -/
  | arity (callee : String) (want got : Nat)
  /-- A call to `callee` would exceed `limit` active calls. -/
  | callDepth (limit : Nat) (callee : String)
  /-- An object is indexed by a value of kind `k`. -/
  | objectKeyKind (k : ValueKind)
  /-- An array is read at a key of kind `k`. -/
  | indexKind (k : ValueKind)
  /-- A member `key` is read from a value of kind `k`. -/
  | readMember (key : String) (k : ValueKind)
  /-- An array of length `len` is written at `key`, which is no index of it. -/
  | indexRange (key : String) (len : Nat)
  /-- A member `key` is written on a value of kind `k`. -/
  | writeMember (key : String) (k : ValueKind)
  /-- A value of kind `k` is iterated. -/
  | notIterable (k : ValueKind)
  /-- The built-in `callee` needs a `want` and is given a value of kind `got`. -/
  | argumentKind (callee want : String) (got : ValueKind)
  /-- The built-in `callee` is given a count that is no natural number. -/
  | badCount (callee : String) (count : Float)
  /-- The built-in `callee` is given a count above `limit`. -/
  | countLimit (callee : String) (count : Float) (limit : Nat)

namespace Fault

def kind : Fault → ErrorKind
  | unterminatedString | unterminatedComment => .lex
  | expected .. | constWithoutValue .. | unclosedBlock | invalidTarget
  | expectedPropertyName .. | expectedColon .. | unexpectedToken .. => .parse
  | nestingTooDeep .. | callDepth .. => .depth
  | alreadyDeclared .. => .duplicate
  | notDefined .. => .nameResolution
  | assignToConstant .. => .immutability
  | notCallable .. => .notCallable
  | arity .. => .arity
  | notIterable .. => .notIterable
  | objectKeyKind .. | indexKind .. | readMember .. | indexRange .. | writeMember ..
  | argumentKind .. | badCount .. | countLimit .. => .typeMismatch

def text : Fault → String
  | unterminatedString => "unterminated string literal"
  | unterminatedComment => "unterminated block comment"
  | expected want found => "expected " ++ want.name ++ ", found " ++ found.name
  | constWithoutValue name => "const " ++ name ++ " requires an initializer"
  | unclosedBlock => "expected \x7d to close block"
  | invalidTarget => "invalid assignment target"
  | expectedPropertyName found => "expected property name, found " ++ found.name
  | expectedColon key => "expected : after property " ++ Text.quote key
  | unexpectedToken found => "unexpected token " ++ found.name ++ " in expression"
  | nestingTooDeep limit => "nesting exceeds " ++ toString limit ++ " levels"
  | alreadyDeclared name => "variable " ++ name ++ " already declared"
  | notDefined name => "variable " ++ name ++ " is not defined"
  | assignToConstant name => "cannot assign to constant " ++ name
  | notCallable k => k.name ++ " is not callable"
  | arity callee want got =>
    callee ++ " expects " ++ toString want ++ " argument(s), got " ++ toString got
  | callDepth limit callee =>
    "maximum call depth " ++ toString limit ++ " exceeded in " ++ callee
  | objectKeyKind k => "object key must be a string, got " ++ k.name
  | indexKind k => "array index must be a number, got " ++ k.name
  | readMember key k => "cannot read member " ++ key ++ " of " ++ k.name
  | indexRange key len => "array index " ++ key ++ " out of range 0.." ++ toString len
  | writeMember key k => "cannot assign member " ++ key ++ " of " ++ k.name
  | notIterable k => "cannot iterate over " ++ k.name
  | argumentKind callee want got => callee ++ " expects " ++ want ++ ", got " ++ got.name
  | badCount callee count =>
    callee ++ " expects a non-negative integer count, got " ++
      Decimal.Style.language.format count
  | countLimit callee count limit =>
    callee ++ " count " ++ Decimal.Style.language.format count ++ " exceeds limit " ++
      toString limit

end Fault

/-- A failure: its cause, where it happened if known, and whether the input ended before the
construct it was reading (so that more input might complete it). -/
structure Error where
  fault : Fault
  pos : Option Pos := none
  incomplete : Bool := false

namespace Error

def kind (e : Error) : ErrorKind := e.fault.kind

/-- The message: `line:column: ` and the wording, or the wording alone without a position. -/
def message (e : Error) : String :=
  match e.pos with
  | some p => p.label ++ ": " ++ e.fault.text
  | none => e.fault.text

/-- Gives the error the position `p` unless it already has one: the innermost place that
knows a position is the one reported. -/
def locate (e : Error) (p : Pos) : Error :=
  match e.pos with
  | some _ => e
  | none => { e with pos := some p }

end Error

end Treewalk
