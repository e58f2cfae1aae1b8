import Treewalk.Yaml.Event
import Treewalk.Yaml.Resolve
/-!
# The document tree

The events of the first document of a stream are gathered into a tree of nodes: scalars,
sequences, mappings and aliases. Every node records its tag and the line where it starts,
counted from one.

The tag of a node is the one written, in short form, if there is one other than the
non-specific `!`. Otherwise a quoted or block scalar is `!!str`, a plain `<<` is the merge
key `!!merge`, another plain scalar takes the tag its text resolves to, and collections are
`!!seq` and `!!map`.

An anchor names the node it is written on from where that node starts, so an alias inside a
collection may name the collection itself. Anchored nodes are kept in a table, and an alias
holds the position in the table of the node it names; an alias to a name not yet given is
an error.
-/
namespace Treewalk.Yaml

/-- A node of a document. An alias holds its name and the position of its node in the
table of anchored nodes. -/
inductive Node
  | scalar (tag : String) (text : String) (line : Nat)
  | sequence (tag : String) (items : List Node) (line : Nat)
  | mapping (tag : String) (entries : List (Node × Node)) (line : Nat)
  | alias (name : String) (target : Nat) (line : Nat)
deriving Inhabited

namespace Node

def line : Node → Nat
  | .scalar _ _ l | .sequence _ _ l | .mapping _ _ l | .alias _ _ l => l

def tag : Node → String
  | .scalar t _ _ | .sequence t _ _ | .mapping t _ _ => t
  | .alias _ _ _ => ""

/-- The text of the node: a scalar's text, an alias's name, nothing for collections. -/
def text : Node → String
  | .scalar _ s _ => s
  | .alias n _ _ => n
  | _ => ""

def kindIndex : Node → Nat
  | .scalar _ _ _ => 0
  | .sequence _ _ _ => 1
  | .mapping _ _ _ => 2
  | .alias _ _ _ => 3

end Node

/-- A document: its root node and the table of anchored nodes. -/
structure Document where
  root : Node
  anchored : Array Node

/-- The state of gathering a document: the events, the event looked at but not taken, the
anchors given so far (latest first) and the table of anchored nodes. -/
structure Composer where
  events : Grammar
  pending : Option Event := none
  anchors : List (String × Nat) := []
  table : Array Node := #[]

namespace Composer

def peek (c : Composer) : Except Problem (Event × Composer) :=
  match c.pending with
  | some e => .ok (e, c)
  | none => do
    let (e, g) ← c.events.next
    return (e, { c with events := g, pending := some e })

def take (c : Composer) : Composer := { c with pending := none }

def reserve (c : Composer) (anchor : Option String) : Option Nat × Composer :=
  match anchor with
  | some name =>
    let id := c.table.size
    (some id, { c with table := c.table.push default, anchors := (name, id) :: c.anchors })
  | none => (none, c)

def fill (c : Composer) (id : Option Nat) (n : Node) : Composer :=
  match id with
  | some i => { c with table := c.table.set! i n }
  | none => c

end Composer

/-- The tag of a node from the tag written on it (empty for none) and the tag it has
without one. -/
def nodeTag (written : String) (otherwise : String) : String :=
  if written ≠ "" ∧ written ≠ "!" then shortTag written else otherwise

mutual

def composeNode : Nat → Composer → Except Problem (Node × Composer)
  | 0, _ => .error (Problem.plain "document too deeply nested")
  | fuel + 1, c => do
    let (e, c) ← c.peek
    let line := e.start.line + 1
    match e.kind with
    | .alias name =>
      match c.anchors.lookup name with
      | some id => return (.alias name id line, c.take)
      | none => throw (Problem.plain ("unknown anchor '" ++ name ++ "' referenced"))
    | .scalar anchor tag text style =>
      let otherwise :=
        if style ≠ .plain then "!!str" else if text = "<<" then "!!merge" else plainTag text
      let n := Node.scalar (nodeTag tag otherwise) text line
      let (id, c) := c.reserve anchor
      return (n, (c.fill id n).take)
    | .sequenceStart anchor tag =>
      let (id, c) := c.reserve anchor
      let (items, c) ← composeItems fuel c.take
      let n := Node.sequence (nodeTag tag "!!seq") items line
      return (n, c.fill id n)
    | .mappingStart anchor tag =>
      let (id, c) := c.reserve anchor
      let (entries, c) ← composeEntries fuel c.take
      let n := Node.mapping (nodeTag tag "!!map") entries line
      return (n, c.fill id n)
    | _ => throw (Problem.plain "unexpected event")

def composeItems : Nat → Composer → Except Problem (List Node × Composer)
  | 0, _ => .error (Problem.plain "document too deeply nested")
  | fuel + 1, c => do
    let (e, c) ← c.peek
    match e.kind with
    | .sequenceEnd => return ([], c.take)
    | _ =>
      let (n, c) ← composeNode fuel c
      let (rest, c) ← composeItems fuel c
      return (n :: rest, c)

def composeEntries : Nat → Composer → Except Problem (List (Node × Node) × Composer)
  | 0, _ => .error (Problem.plain "document too deeply nested")
  | fuel + 1, c => do
    let (e, c) ← c.peek
    match e.kind with
    | .mappingEnd => return ([], c.take)
    | _ =>
      let (k, c) ← composeNode fuel c
      let (v, c) ← composeNode fuel c
      let (rest, c) ← composeEntries fuel c
      return ((k, v) :: rest, c)

end

/-- Reads the first document of a YAML text, none when the text holds no document. Only
what the first document needs of the text is read, with two tokens of lookahead. -/
def readDocument (cs : List Char) : Except Problem (Option Document) := do
  let c : Composer := { events := Grammar.ofList cs }
  let (_, c) ← c.peek
  let c := c.take
  let (e, c) ← c.peek
  match e.kind with
  | .documentStart =>
    let (root, c) ← composeNode (4 * cs.length + 64) c.take
    let (_, c) ← c.peek
    return some { root, anchored := c.table }
  | _ => return none

end Treewalk.Yaml
