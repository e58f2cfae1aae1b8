import Treewalk.Store
import Treewalk.Text.Quoted
import Treewalk.Decimal.Layout
/-!
# Writing values

Every value has a debug form: numbers in the language's number style, texts quoted, arrays as
`[a, b]`, objects as `{ k: v, … }` in ascending order of name with names unquoted (`{}` when
empty), functions as `<func name>` and built-ins as `<native name>`. Elements and property
values are written in their debug form. The display form is the same except that a text is
written as it is.

An array or object is written by walking the store; each step down the walk goes one container
deeper, and there are only so many containers, so the walk is bounded by their number. Every
value without a cycle through containers is written in full.
-/
namespace Treewalk

namespace Store

def renderWith (s : Store) : Nat → Value → String
  | 0, _ => "..."
  | fuel + 1, v =>
    match v with
    | .null => "null"
    | .number x => Decimal.Style.language.format x
    | .bool b => if b then "true" else "false"
    | .str t => Text.quote t
    | .array r => "[" ++ ", ".intercalate ((s.elems r).toList.map (s.renderWith fuel)) ++ "]"
    | .object r =>
      match s.props r with
      | [] => "\x7b\x7d"
      | ps => "\x7b " ++ ", ".intercalate (ps.map (fun e => e.1 ++ ": " ++ s.renderWith fuel e.2)) ++ " \x7d"
    | .function r =>
      let name := (s.closures.getD r default).name
      if name.isEmpty then "<func>" else "<func " ++ name ++ ">"
    | .native n => "<native " ++ n.name ++ ">"

/-- How deep a walk through the store's containers can go without meeting one twice. -/
def depthBound (s : Store) : Nat := s.arrays.size + s.objects.size + 1

def render (s : Store) (v : Value) : String := s.renderWith s.depthBound v

/-- The display form of `v`: a text as it is, anything else in its debug form. -/
def display (s : Store) (v : Value) : String :=
  match v with
  | .str t => t
  | _ => s.render v

end Store

end Treewalk
