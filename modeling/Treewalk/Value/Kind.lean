/-!
# Kinds of value

Every value of the language has one of eight kinds. The kind decides which operations apply,
and its name appears in messages that reject a value.
-/
namespace Treewalk

/-- The kind of a value. -/
inductive ValueKind
  | null | number | boolean | string | array | object | function | native
deriving DecidableEq, Repr, Inhabited

def ValueKind.name : ValueKind → String
  | .null => "null"
  | .number => "number"
  | .boolean => "boolean"
  | .string => "string"
  | .array => "array"
  | .object => "object"
  | .function => "function"
  | .native => "native function"

end Treewalk
