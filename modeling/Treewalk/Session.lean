import Treewalk.Eval.Call
import Treewalk.Syntax.Parser
/-!
# Sessions

A session is an evaluator that runs programs one after another: declarations at the top level
of one program stay for the next, and so do the store and its arrays and objects. A new
session's global frame binds the constants `true`, `false` and `null`, the built-in `print!`,
and the objects `Date` (with `now`) and `Array` (with `new`, `from`, `has`, `concat`). Calls may
nest 10000 deep unless the session says otherwise.
-/
namespace Treewalk

/-- An evaluator for a sequence of programs. -/
structure Session where
  machine : Machine
  /-- The global frame. -/
  global : Nat
  /-- The depth limit for nested calls; `none` for no limit. -/
  limit : Option Nat

/-- What running one program gives: its value or error, and what it wrote. -/
structure RunResult where
  result : Except Error Value
  output : String

namespace Session

def defaultLimit : Nat := 10000

/-- The global frame of a new session (frame 0): the literals and the natives, each declared
constant, given the references of the `Date` and `Array` objects. -/
def globalFrame (date array : Nat) : Frame :=
  [("true", .bool true), ("false", .bool false), ("null", .null), ("print!", .native .print),
    ("Date", .object date), ("Array", .object array)].foldl
    (fun f (e : String × Value) => f.declare e.1 e.2 false) (.empty none)

/-- A new session whose `Date.now` answers the readings of `clock`. -/
def new (clock : Clock) : Session :=
  let dateProps : Props := [("now", .native .dateNow)]
  let arrayProps : Props := [("concat", .native .arrayConcat), ("from", .native .arrayFrom),
    ("has", .native .arrayHas), ("new", .native .arrayNew)]
  let store : Store := { objects := #[dateProps, arrayProps], frames := #[globalFrame 0 1] }
  { machine := { store := store, clock := clock }, global := 0, limit := some defaultLimit }

def withLimit (s : Session) (limit : Option Nat) : Session := { s with limit := limit }

/-- Binds `argv` in the global frame to a new constant array of the given texts, replacing any
earlier binding. -/
def setArgv (s : Session) (args : List String) : Session :=
  let st := s.machine.store
  let st := if st.has s.global "argv" then st.remove s.global "argv" else st
  let (st, arr) := st.allocArray (args.map Value.str).toArray
  let st := match st.declare s.global "argv" arr false with
    | .ok st' => st'
    | .error _ => st
  { s with machine := { s.machine with store := st } }

def exec (s : Session) (prog : Program) : RunResult × Session :=
  let m := { s.machine with out := "" }
  let (r, m') := ((Eval.runProgram s.limit s.global prog).run).run m
  (⟨r, m'.out⟩, { s with machine := m' })

/-- Runs one program on the session: reads it, then evaluates it in the global frame. A program
that cannot be read changes nothing. -/
def run (s : Session) (src : String) : RunResult × Session :=
  match Parser.parse src with
  | .error e => (⟨.error e, ""⟩, s)
  | .ok prog => s.exec prog

end Session

end Treewalk
