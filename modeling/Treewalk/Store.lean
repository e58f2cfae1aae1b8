import Treewalk.Value.Basic
import Treewalk.Syntax.Ast
/-!
# The store

Everything a program can share lives in the store: arrays, objects, user functions and scope
frames, each kept in its own table and named by its index. Arrays keep their length for life:
only their elements are written. An object maps each of its property names to one value and
keeps the names in ascending order, so no two entries share a name and listing them needs no
sort. A frame binds names to values and keeps apart the set of names that are constant; it may
point to an older frame as its parent.
-/
namespace Treewalk

/-- The properties of an object, in ascending order of name, each name once. -/
abbrev Props := List (String × Value)

namespace Props

def get? (ps : Props) (k : String) : Option Value :=
  (ps.find? (fun e => e.1 == k)).map (·.2)

/-- Sets property `k` to `v`: replaces its value, or adds it in its place in the order. -/
def set (ps : Props) (k : String) (v : Value) : Props :=
  match ps with
  | [] => [(k, v)]
  | (k', v') :: rest =>
    if k = k' then (k, v) :: rest
    else if k < k' then (k, v) :: (k', v') :: rest
    else (k', v') :: set rest k v

/-- The object with the given properties, later ones replacing earlier ones of the same name. -/
def ofList (entries : List (String × Value)) : Props :=
  entries.foldl (fun ps e => ps.set e.1 e.2) []

end Props

/-- A user function: its name, parameters and body, and the frame it captured. -/
structure Closure where
  name : String
  params : List String
  body : List Stmt
  env : Nat
deriving Inhabited

/-- What a name is bound to in a frame. -/
structure Binding where
  value : Value
  mutable : Bool
deriving Inhabited

/-- A scope frame: its parent frame, if any, the values of the names it binds, and the set of
those names that are constant. The two are kept apart; every constant is a name the frame
binds. -/
structure Frame where
  parent : Option Nat
  values : List (String × Value)
  constants : List String
  constants_bound : ∀ n ∈ constants, n ∈ values.map Prod.fst

theorem Frame.nil_bound : ∀ n ∈ ([] : List String), n ∈ ([] : List (String × Value)).map Prod.fst :=
  fun _ h => absurd h List.not_mem_nil

instance : Inhabited Frame := ⟨⟨none, [], [], Frame.nil_bound⟩⟩

/-- The tables of the store. -/
structure Store where
  arrays : Array (Array Value) := #[]
  objects : Array Props := #[]
  closures : Array Closure := #[]
  frames : Array Frame := #[]

namespace Store

def allocArray (s : Store) (elems : Array Value) : Store × Value :=
  ({ s with arrays := s.arrays.push elems }, .array s.arrays.size)

def allocObject (s : Store) (ps : Props) : Store × Value :=
  ({ s with objects := s.objects.push ps }, .object s.objects.size)

def allocClosure (s : Store) (c : Closure) : Store × Nat :=
  ({ s with closures := s.closures.push c }, s.closures.size)

def elems (s : Store) (ref : Nat) : Array Value := s.arrays.getD ref #[]

def props (s : Store) (ref : Nat) : Props := s.objects.getD ref []

/-- Writes element `i` of the array at `ref`; an index outside the array changes nothing. -/
def setElem (s : Store) (ref i : Nat) (v : Value) : Store :=
  { s with arrays := s.arrays.modify ref (fun a => a.setIfInBounds i v) }

def setProp (s : Store) (ref : Nat) (k : String) (v : Value) : Store :=
  { s with objects := s.objects.modify ref (fun ps => ps.set k v) }

def setClosureEnv (s : Store) (ref env : Nat) : Store :=
  { s with closures := s.closures.modify ref (fun c => { c with env := env }) }

end Store

end Treewalk
