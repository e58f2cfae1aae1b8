import Treewalk.Binary64
import Treewalk.Cli.Options
import Treewalk.Cli.Run
import Treewalk.Config.Decode
import Treewalk.Config.Load
import Treewalk.Config.Settings
import Treewalk.Decimal.Layout
import Treewalk.Decimal.Shortest
import Treewalk.Error
import Treewalk.Eval.Builtin
import Treewalk.Eval.Call
import Treewalk.Eval.Expr
import Treewalk.Eval.Machine
import Treewalk.Eval.Stmt
import Treewalk.Main
import Treewalk.Scope
import Treewalk.Session
import Treewalk.Store
import Treewalk.Syntax.Ast
import Treewalk.Syntax.Lexer
import Treewalk.Syntax.Parser
import Treewalk.Syntax.Position
import Treewalk.Syntax.Rune
import Treewalk.Syntax.Token
import Treewalk.Text.Base64
import Treewalk.Text.Letter
import Treewalk.Text.Path
import Treewalk.Text.Printable
import Treewalk.Text.Quoted
import Treewalk.Text.RangeTable
import Treewalk.Value.Basic
import Treewalk.Value.Equal
import Treewalk.Value.Kind
import Treewalk.Value.Member
import Treewalk.Value.Render
import Treewalk.Yaml.Cursor
import Treewalk.Yaml.Event
import Treewalk.Yaml.Lexeme
import Treewalk.Yaml.Node
import Treewalk.Yaml.Resolve
import Treewalk.Yaml.Token
import Treewalk.Yaml.TokenStream
import Treewalk.Proofs.Value.Number
import Treewalk.Proofs.Value.Literal
import Treewalk.Proofs.Syntax.Runes
import Treewalk.Proofs.Syntax.Print
import Treewalk.Proofs.Syntax.LexPrinted
import Treewalk.Proofs.Syntax.ParseSteps
import Treewalk.Proofs.Syntax.ReadBack
import Treewalk.Proofs.Syntax.ReadProgram
import Treewalk.Proofs.Syntax.ParseErrors
import Treewalk.Proofs.Syntax.TooDeep
import Treewalk.Proofs.Syntax.ParsedNames
import Treewalk.Proofs.Syntax.RoundTrip
import Treewalk.Proofs.Syntax.LexAppend
import Treewalk.Proofs.Syntax.ParseExtend
import Treewalk.Proofs.Syntax.Incomplete
import Treewalk.Proofs.Eval.Unwind
import Treewalk.Proofs.Scope.Forest
import Treewalk.Proofs.Eval.Termination
import Treewalk.Proofs.Eval.Operations
import Treewalk.Proofs.Eval.DepthLimit
import Treewalk.Proofs.Scope.Discipline
import Treewalk.Proofs.Syntax.Relocate
import Treewalk.Proofs.Syntax.ParseSequence
import Treewalk.Proofs.Syntax.LexShift
import Treewalk.Proofs.Syntax.Concatenate
import Treewalk.Proofs.Eval.StoreSteps
import Treewalk.Proofs.Eval.ForLoop
import Treewalk.Proofs.Scope.Snapshot
import Treewalk.Proofs.Scope.Closures
import Treewalk.Proofs.Value.Members
import Treewalk.Proofs.Value.Equality
import Treewalk.Proofs.Cli.Submissions
import Treewalk.Proofs.Syntax.TokenPositions
import Treewalk.Proofs.Syntax.ParsedPositions
import Treewalk.Proofs.Eval.ErrorPositions
import Treewalk.Proofs.Syntax.NestingLimit
import Treewalk.Proofs.Syntax.ReadForward
import Treewalk.Proofs.Syntax.Termination
