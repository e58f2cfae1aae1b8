import Treewalk.Eval.Machine
/-!
# Built-in functions

`print!` writes the display forms of its arguments and a line feed, and answers null.
`Date.now` answers the clock's next reading. `Array.new(n)` makes an array of `n` nulls, for a
whole `n` from 0 to 2^24; `Array.from(…)` makes an array of its arguments; `Array.has(a, v)`
says whether some element of `a` equals `v`; `Array.concat(a, v)` makes a new array of `a`'s
elements followed by `v`. Every array they answer is new. Failures carry no position: the call
that ran the built-in supplies it.
-/
namespace Treewalk

def arrayLimit : Nat := Nat.pow 2 24

namespace Eval

def checkArity (n : Native) (args : List Value) (want : Nat) : Eval Unit :=
  if args.length = want then pure ()
  else throw { fault := .arity n.name want args.length }

def runNative (n : Native) (args : List Value) : Eval Value := do
  match n with
  | .print =>
    let s ← store
    write (String.join (args.map s.display) ++ "\n")
    return .null
  | .dateNow =>
    checkArity n args 0
    return .number (← readClock)
  | .arrayNew =>
    checkArity n args 1
    match args with
    | [.number x] =>
      match (Value.number x).wholeNumber? with
      | some k =>
        if k < 0 then throw { fault := .badCount n.name x }
        else if k > arrayLimit then throw { fault := .countLimit n.name x arrayLimit }
        else alloc (·.allocArray (Array.replicate k.toNat .null))
      | none => throw { fault := .badCount n.name x }
    | v :: _ => throw { fault := .argumentKind n.name "number" v.kind }
    | [] => return .null
  | .arrayFrom => alloc (·.allocArray args.toArray)
  | .arrayHas =>
    checkArity n args 2
    match args with
    | [.array r, v] =>
      let s ← store
      return .bool ((s.elems r).any (fun x => s.equal x v))
    | a :: _ => throw { fault := .argumentKind n.name "array" a.kind }
    | [] => return .null
  | .arrayConcat =>
    checkArity n args 2
    match args with
    | [.array r, v] =>
      let s ← store
      alloc (·.allocArray ((s.elems r).push v))
    | a :: _ => throw { fault := .argumentKind n.name "array" a.kind }
    | [] => return .null

end Eval

end Treewalk
