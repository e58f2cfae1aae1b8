import Treewalk.Yaml.TokenStream
/-!
# Events of a YAML stream

The grammar turns tokens into events, the steps of a walk over the documents: the start and
end of the stream, of each document, of each sequence and mapping, and each scalar or alias.
A node may carry an anchor and a tag. A missing node (an entry, key or value with nothing
written) becomes an empty plain scalar.

The grammar is a machine with a current state and a stack of states to return to, one per
open collection, as in the productions of the YAML 1.1 grammar:

* a document is an optional run of directives, a start marker, a node and an end marker;
  the first document may leave out the directives and the start marker;
* a block sequence is entries `-` up to a block end; a block mapping is pairs of optional
  key and value up to a block end; a sequence inside a mapping value may sit at the
  mapping's own indentation;
* a flow sequence or mapping is entries separated by `,` inside brackets; a flow sequence
  entry may be a single pair `k: v`.

Tag handles are expanded by the `%TAG` directives of the document and the two standard ones,
`!` and `!!`.
-/
namespace Treewalk.Yaml

/-- The kinds of events, with what each carries. An empty tag is no tag. -/
inductive EventKind
  | streamStart
  | streamEnd
  | documentStart
  | documentEnd
  | alias (name : String)
  | scalar (anchor : Option String) (tag : String) (text : String) (style : ScalarStyle)
  | sequenceStart (anchor : Option String) (tag : String)
  | sequenceEnd
  | mappingStart (anchor : Option String) (tag : String)
  | mappingEnd
deriving Repr, Inhabited

/-- An event with the place where it starts. -/
structure Event where
  kind : EventKind
  start : Mark
deriving Repr, Inhabited

/-- The states of the grammar. -/
inductive Phase
  | streamStart
  | implicitDocumentStart
  | documentStart
  | documentContent
  | documentEnd
  | blockNode
  | flowNode
  | blockSequenceFirstEntry
  | blockSequenceEntry
  | indentlessSequenceEntry
  | blockMappingFirstKey
  | blockMappingKey
  | blockMappingValue
  | flowSequenceFirstEntry
  | flowSequenceEntry
  | flowSequenceEntryMappingKey
  | flowSequenceEntryMappingValue
  | flowSequenceEntryMappingEnd
  | flowMappingFirstKey
  | flowMappingKey
  | flowMappingValue
  | flowMappingEmptyValue
  | finished
deriving Repr, Inhabited, DecidableEq

/-- The grammar's state: the tokens, the current state and the states to return to, the
places where the open collections began, and the tag handles of the document. -/
structure Grammar where
  tokens : TokenStream
  phase : Phase := .streamStart
  phases : List Phase := []
  marks : List Mark := []
  handles : List (String × String) := []

def defaultHandles : List (String × String) := [("!", "!"), ("!!", "tag:yaml.org,2002:")]

namespace Grammar

def ofList (cs : List Char) : Grammar := { tokens := TokenStream.ofList cs }

def peek (g : Grammar) : Except Problem (Token × Grammar) := do
  let (t, s) ← g.tokens.peek
  return (t, { g with tokens := s })

def skip (g : Grammar) : Grammar := { g with tokens := g.tokens.skipToken }

def pop (g : Grammar) : Grammar :=
  match g.phases with
  | p :: ps => { g with phase := p, phases := ps }
  | [] => g

def push (g : Grammar) (p : Phase) : Grammar := { g with phases := p :: g.phases }

def popMark (g : Grammar) : Mark × Grammar :=
  (g.marks.headD {}, { g with marks := g.marks.tail })

def emptyScalar (m : Mark) : Event := ⟨.scalar none "" "" .plain, m⟩

def directives (g : Grammar) : Except Problem Grammar :=
  let rec go : Nat → Grammar → Bool → Except Problem Grammar
    | 0, g, _ => .ok g
    | fuel + 1, g, seenVersion =>
      match g.peek with
      | .error p => .error p
      | .ok (t, g) =>
        match t.kind with
        | .versionDirective major minor =>
          if seenVersion then .error (Problem.ofGrammar {} t.start "found duplicate %YAML directive")
          else if major ≠ 1 ∨ minor ≠ 1 then
            .error (Problem.ofGrammar {} t.start "found incompatible YAML document")
          else go fuel g.skip true
        | .tagDirective handle pfx =>
          if (g.handles.lookup handle).isSome then
            .error (Problem.ofGrammar {} t.start "found duplicate %TAG directive")
          else go fuel { g.skip with handles := g.handles ++ [(handle, pfx)] } seenVersion
        | _ =>
          let extra := defaultHandles.filter fun (h, _) => (g.handles.lookup h).isNone
          .ok { g with handles := g.handles ++ extra }
  go g.tokens.budget g false

/-- The start of a document, or the end of the stream. Before the first document the
directives and the start marker may be left out; before a later one, extra end markers are
passed over. -/
def documentStart (g : Grammar) (implicit : Bool) : Except Problem (Event × Grammar) := do
  let (t, g) ← g.peek
  let rec passEnds : Nat → Token → Grammar → Except Problem (Token × Grammar)
    | 0, t, g => .ok (t, g)
    | fuel + 1, t, g =>
      if t.kind.isDocumentEnd then
        match g.skip.peek with
        | .ok (t, g) => passEnds fuel t g
        | .error p => .error p
      else .ok (t, g)
  let (t, g) ← if implicit then pure (t, g) else passEnds g.tokens.budget t g
  if implicit && !t.kind.isDirective && !t.kind.isDocumentStart && !t.kind.isStreamEnd then
    let g ← g.directives
    return (⟨.documentStart, t.start⟩, { g.push .documentEnd with phase := .blockNode })
  else if !t.kind.isStreamEnd then
    let start := t.start
    let g ← g.directives
    let (t, g) ← g.peek
    if !t.kind.isDocumentStart then
      throw (Problem.ofGrammar {} t.start "did not find expected <document start>")
    return (⟨.documentStart, start⟩, { g.skip.push .documentEnd with phase := .documentContent })
  else
    return (⟨.streamEnd, t.start⟩, { g.skip with phase := .finished })

def documentEnd (g : Grammar) : Except Problem (Event × Grammar) := do
  let (t, g) ← g.peek
  let g := if t.kind.isDocumentEnd then g.skip else g
  return (⟨.documentEnd, t.start⟩, { g with handles := [], phase := .documentStart })

/-- A node: an alias, or a scalar or collection with its optional anchor and tag. With
`indentless`, a sequence may start at the indentation of the mapping it is a value of. -/
def node (g : Grammar) (block indentless : Bool) : Except Problem (Event × Grammar) := do
  let (t, g) ← g.peek
  match t.kind with
  | .alias name => return (⟨.alias name, t.start⟩, g.pop.skip)
  | _ =>
    let start := t.start
    let (anchor, tagParts, tagMark, t, g) ← match t.kind with
      | .anchor name => do
        let (t', g) ← g.skip.peek
        match t'.kind with
        | .tag h s => do
          let (t'', g) ← g.skip.peek
          pure (some name, some (h, s), t'.start, t'', g)
        | _ => pure (some name, none, start, t', g)
      | .tag h s => do
        let (t', g) ← g.skip.peek
        match t'.kind with
        | .anchor name => do
          let (t'', g) ← g.skip.peek
          pure (some name, some (h, s), start, t'', g)
        | _ => pure (none, some (h, s), start, t', g)
      | _ => pure (none, none, start, t, g)
    let tag ← match tagParts with
      | none => pure ""
      | some (h, s) =>
        if h.isEmpty then pure s
        else match g.handles.lookup h with
          | some pfx => pure (pfx ++ s)
          | none => throw (Problem.ofGrammar start tagMark "found undefined tag handle")
    if indentless && t.kind.isBlockEntry then
      return (⟨.sequenceStart anchor tag, start⟩, { g with phase := .indentlessSequenceEntry })
    match t.kind with
    | .scalar text style => return (⟨.scalar anchor tag text style, start⟩, g.pop.skip)
    | .flowSequenceStart =>
      return (⟨.sequenceStart anchor tag, start⟩, { g with phase := .flowSequenceFirstEntry })
    | .flowMappingStart =>
      return (⟨.mappingStart anchor tag, start⟩, { g with phase := .flowMappingFirstKey })
    | .blockSequenceStart =>
      if block then
        return (⟨.sequenceStart anchor tag, start⟩, { g with phase := .blockSequenceFirstEntry })
      else if anchor.isSome || !tag.isEmpty then
        return (⟨.scalar anchor tag "" .plain, start⟩, g.pop)
      else throw (Problem.ofGrammar start t.start "did not find expected node content")
    | .blockMappingStart =>
      if block then
        return (⟨.mappingStart anchor tag, start⟩, { g with phase := .blockMappingFirstKey })
      else if anchor.isSome || !tag.isEmpty then
        return (⟨.scalar anchor tag "" .plain, start⟩, g.pop)
      else throw (Problem.ofGrammar start t.start "did not find expected node content")
    | _ =>
      if anchor.isSome || !tag.isEmpty then
        return (⟨.scalar anchor tag "" .plain, start⟩, g.pop)
      else throw (Problem.ofGrammar start t.start "did not find expected node content")

def enter (g : Grammar) : Except Problem Grammar := do
  let (t, g) ← g.peek
  return { g.skip with marks := t.start :: g.marks }

def blockSequenceEntry (g : Grammar) (first : Bool) : Except Problem (Event × Grammar) := do
  let g ← if first then g.enter else pure g
  let (t, g) ← g.peek
  match t.kind with
  | .blockEntry =>
    let m := t.stop
    let (t, g) ← g.skip.peek
    if !t.kind.isBlockEntry && !t.kind.isBlockEnd then
      (g.push .blockSequenceEntry).node true false
    else return (emptyScalar m, { g with phase := .blockSequenceEntry })
  | .blockEnd =>
    let (_, g) := g.popMark
    return (⟨.sequenceEnd, t.start⟩, g.pop.skip)
  | _ =>
    let (ctx, _) := g.popMark
    throw (Problem.ofGrammar ctx t.start "did not find expected '-' indicator")

def indentlessSequenceEntry (g : Grammar) : Except Problem (Event × Grammar) := do
  let (t, g) ← g.peek
  if t.kind.isBlockEntry then
    let m := t.stop
    let (t, g) ← g.skip.peek
    if !t.kind.isBlockEntry && !t.kind.isKey && !t.kind.isValue && !t.kind.isBlockEnd then
      (g.push .indentlessSequenceEntry).node true false
    else return (emptyScalar m, { g with phase := .indentlessSequenceEntry })
  else return (⟨.sequenceEnd, t.start⟩, g.pop)

def blockMappingKey (g : Grammar) (first : Bool) : Except Problem (Event × Grammar) := do
  let g ← if first then g.enter else pure g
  let (t, g) ← g.peek
  match t.kind with
  | .key =>
    let m := t.stop
    let (t, g) ← g.skip.peek
    if !t.kind.isKey && !t.kind.isValue && !t.kind.isBlockEnd then
      (g.push .blockMappingValue).node true true
    else return (emptyScalar m, { g with phase := .blockMappingValue })
  | .blockEnd =>
    let (_, g) := g.popMark
    return (⟨.mappingEnd, t.start⟩, g.pop.skip)
  | _ =>
    let (ctx, _) := g.popMark
    throw (Problem.ofGrammar ctx t.start "did not find expected key")

def blockMappingValue (g : Grammar) : Except Problem (Event × Grammar) := do
  let (t, g) ← g.peek
  if t.kind.isValue then
    let m := t.stop
    let (t, g) ← g.skip.peek
    if !t.kind.isKey && !t.kind.isValue && !t.kind.isBlockEnd then
      (g.push .blockMappingKey).node true true
    else return (emptyScalar m, { g with phase := .blockMappingKey })
  else return (emptyScalar t.start, { g with phase := .blockMappingKey })

def flowSequenceEntry (g : Grammar) (first : Bool) : Except Problem (Event × Grammar) := do
  let g ← if first then g.enter else pure g
  let (t, g) ← g.peek
  let (t, g) ←
    if !t.kind.isFlowSequenceEnd && !first then
      if t.kind.isFlowEntry then g.skip.peek
      else
        let (ctx, _) := g.popMark
        throw (Problem.ofGrammar ctx t.start "did not find expected ',' or ']'")
    else pure (t, g)
  if t.kind.isKey then
    return (⟨.mappingStart none "", t.start⟩, { g.skip with phase := .flowSequenceEntryMappingKey })
  else if !t.kind.isFlowSequenceEnd then
    (g.push .flowSequenceEntry).node false false
  else
    let (_, g) := g.popMark
    return (⟨.sequenceEnd, t.start⟩, g.pop.skip)

def flowSequenceEntryMappingKey (g : Grammar) : Except Problem (Event × Grammar) := do
  let (t, g) ← g.peek
  if !t.kind.isValue && !t.kind.isFlowEntry && !t.kind.isFlowSequenceEnd then
    (g.push .flowSequenceEntryMappingValue).node false false
  else return (emptyScalar t.stop, { g.skip with phase := .flowSequenceEntryMappingValue })

def flowSequenceEntryMappingValue (g : Grammar) : Except Problem (Event × Grammar) := do
  let (t, g) ← g.peek
  if t.kind.isValue then
    let (t, g) ← g.skip.peek
    if !t.kind.isFlowEntry && !t.kind.isFlowSequenceEnd then
      (g.push .flowSequenceEntryMappingEnd).node false false
    else return (emptyScalar t.start, { g with phase := .flowSequenceEntryMappingEnd })
  else return (emptyScalar t.start, { g with phase := .flowSequenceEntryMappingEnd })

def flowSequenceEntryMappingEnd (g : Grammar) : Except Problem (Event × Grammar) := do
  let (t, g) ← g.peek
  return (⟨.mappingEnd, t.start⟩, { g with phase := .flowSequenceEntry })

def flowMappingKey (g : Grammar) (first : Bool) : Except Problem (Event × Grammar) := do
  let g ← if first then g.enter else pure g
  let (t, g) ← g.peek
  let (t, g) ←
    if !t.kind.isFlowMappingEnd && !first then
      if t.kind.isFlowEntry then g.skip.peek
      else
        let (ctx, _) := g.popMark
        throw (Problem.ofGrammar ctx t.start "did not find expected ',' or '\x7d'")
    else pure (t, g)
  if t.kind.isKey then
    let (t, g) ← g.skip.peek
    if !t.kind.isValue && !t.kind.isFlowEntry && !t.kind.isFlowMappingEnd then
      (g.push .flowMappingValue).node false false
    else return (emptyScalar t.start, { g with phase := .flowMappingValue })
  else if !t.kind.isFlowMappingEnd then
    (g.push .flowMappingEmptyValue).node false false
  else
    let (_, g) := g.popMark
    return (⟨.mappingEnd, t.start⟩, g.pop.skip)

/-- A value of a flow mapping; with `empty`, the missing value of a key written alone. -/
def flowMappingValue (g : Grammar) (empty : Bool) : Except Problem (Event × Grammar) := do
  let (t, g) ← g.peek
  if empty then return (emptyScalar t.start, { g with phase := .flowMappingKey })
  else if t.kind.isValue then
    let (t, g) ← g.skip.peek
    if !t.kind.isFlowEntry && !t.kind.isFlowMappingEnd then
      (g.push .flowMappingKey).node false false
    else return (emptyScalar t.start, { g with phase := .flowMappingKey })
  else return (emptyScalar t.start, { g with phase := .flowMappingKey })

/-- The next event. After the end of the stream it stays at the end. -/
def next (g : Grammar) : Except Problem (Event × Grammar) :=
  match g.phase with
  | .streamStart => do
    let (t, g) ← g.peek
    match t.kind with
    | .streamStart => return (⟨.streamStart, t.start⟩, { g.skip with phase := .implicitDocumentStart })
    | _ => throw (Problem.ofGrammar {} t.start "did not find expected <stream-start>")
  | .implicitDocumentStart => g.documentStart true
  | .documentStart => g.documentStart false
  | .documentContent => do
    let (t, g) ← g.peek
    if t.kind.isDirective || t.kind.isDocumentStart || t.kind.isDocumentEnd || t.kind.isStreamEnd then
      return (emptyScalar t.start, g.pop)
    else g.node true false
  | .documentEnd => g.documentEnd
  | .blockNode => g.node true false
  | .flowNode => g.node false false
  | .blockSequenceFirstEntry => g.blockSequenceEntry true
  | .blockSequenceEntry => g.blockSequenceEntry false
  | .indentlessSequenceEntry => g.indentlessSequenceEntry
  | .blockMappingFirstKey => g.blockMappingKey true
  | .blockMappingKey => g.blockMappingKey false
  | .blockMappingValue => g.blockMappingValue
  | .flowSequenceFirstEntry => g.flowSequenceEntry true
  | .flowSequenceEntry => g.flowSequenceEntry false
  | .flowSequenceEntryMappingKey => g.flowSequenceEntryMappingKey
  | .flowSequenceEntryMappingValue => g.flowSequenceEntryMappingValue
  | .flowSequenceEntryMappingEnd => g.flowSequenceEntryMappingEnd
  | .flowMappingFirstKey => g.flowMappingKey true
  | .flowMappingKey => g.flowMappingKey false
  | .flowMappingValue => g.flowMappingValue false
  | .flowMappingEmptyValue => g.flowMappingValue true
  | .finished => .ok (⟨.streamEnd, g.tokens.cursor.mark⟩, g)

end Grammar

end Treewalk.Yaml
