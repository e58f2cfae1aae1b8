import Treewalk.Scope
import Treewalk.Value.Member
import Treewalk.Value.Equal
/-!
# The machine a program runs on

A running program changes the store and writes output; both changes stay when it fails, so a
failed program leaves behind everything it did before the failure. The machine also carries a
clock: the readings `Date.now` answers, one per call, in the order the calls ask. Evaluation is
a computation over the machine that may fail with an error.
-/
namespace Treewalk

/-- The readings a clock gives when asked one time after another, in seconds since the epoch. -/
abbrev Clock := Nat → Float

/-- The state of a running program: the store, the output written so far, and the clock. -/
structure Machine where
  store : Store
  out : String := ""
  clock : Clock := fun _ => 0

/-- A computation over the machine that may fail; the machine's changes stay on failure. -/
abbrev Eval := ExceptT Error (StateM Machine)

namespace Eval

def store : Eval Store := do return (← get).store

def setStore (s : Store) : Eval Unit := modify fun m => { m with store := s }

def update (f : Store → Except Error Store) : Eval Unit := do
  match f (← store) with
  | .ok s => setStore s
  | .error e => throw e

/-- Runs a store operation that allocates, keeping the store and answering the result. -/
def alloc {α : Type} (f : Store → Store × α) : Eval α := do
  let (s, a) := f (← store)
  setStore s
  return a

def write (text : String) : Eval Unit := modify fun m => { m with out := m.out ++ text }

/-- Reads the clock: its next reading, which the clock then moves past. -/
def readClock : Eval Float := do
  let m ← get
  set { m with clock := fun n => m.clock (n + 1) }
  return m.clock 0

/-- Runs `x`, giving any error it raises the position `p` unless it has one. -/
def locating {α : Type} (p : Pos) (x : Eval α) : Eval α :=
  tryCatch x (fun e => throw (e.locate p))

def declareAt (env : Nat) (name : String) (v : Value) (mutable : Bool) (p : Pos) : Eval Unit :=
  locating p (update (·.declare env name v mutable))

def assignAt (env : Nat) (name : String) (v : Value) (p : Pos) : Eval Unit :=
  locating p (update (·.assign env name v))

def lookupAt (env : Nat) (name : String) (p : Pos) : Eval Value := do
  match (← store).lookup env name with
  | .ok v => return v
  | .error e => throw (e.locate p)

end Eval

end Treewalk
