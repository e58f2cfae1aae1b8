import Treewalk.Value.Kind
/-!
# Values

A value is null, a double, a boolean, a text, or a reference into the store: an array, an
object or a function. Arrays, objects and functions are shared by reference, so two values are
the same array exactly when they hold the same reference. Built-in functions are named by what
they do and are their own identity.
-/
namespace Treewalk

/-- The built-in functions. -/
inductive Native
  | print | dateNow | arrayNew | arrayFrom | arrayHas | arrayConcat
deriving DecidableEq, Repr, Inhabited

def Native.name : Native → String
  | .print => "print!"
  | .dateNow => "Date.now"
  | .arrayNew => "Array.new"
  | .arrayFrom => "Array.from"
  | .arrayHas => "Array.has"
  | .arrayConcat => "Array.concat"

/-- Values of the language. -/
inductive Value
  | null
  | number (x : Float)
  | bool (b : Bool)
  | str (s : String)
  /-- The array stored at `ref`. -/
  | array (ref : Nat)
  /-- The object stored at `ref`. -/
  | object (ref : Nat)
  /-- The user function stored at `ref`. -/
  | function (ref : Nat)
  | native (n : Native)
deriving Inhabited

def Value.kind : Value → ValueKind
  | .null => .null
  | .number _ => .number
  | .bool _ => .boolean
  | .str _ => .string
  | .array _ => .array
  | .object _ => .object
  | .function _ => .function
  | .native _ => .native

end Treewalk
