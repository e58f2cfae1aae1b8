import Treewalk.Yaml.Cursor
/-!
# Tokens of YAML

The reader cuts a text into tokens: the markers of the stream and of documents,
directives, the indicators of block and flow collections, keys and values, anchors,
aliases, tags and scalars. Indentation is not a token of the text but the reader makes it
one: a block collection opens with a start token where its indentation grows and closes with
an end token where it shrinks back.
-/
namespace Treewalk.Yaml

/-- How a scalar is written: plain, in single or double quotes, or as a literal (`|`) or
folded (`>`) block. -/
inductive ScalarStyle
  | plain | single | double | literal | folded
deriving Repr, Inhabited, DecidableEq

/-- The kinds of tokens, with what each carries. -/
inductive TokenKind
  | streamStart
  | streamEnd
  | versionDirective (major minor : Nat)
  | tagDirective (handle pfx : String)
  | documentStart
  | documentEnd
  | blockSequenceStart
  | blockMappingStart
  | blockEnd
  | flowSequenceStart
  | flowSequenceEnd
  | flowMappingStart
  | flowMappingEnd
  | blockEntry
  | flowEntry
  | key
  | value
  | alias (name : String)
  | anchor (name : String)
  | tag (handle suffix : String)
  | scalar (text : String) (style : ScalarStyle)
deriving Repr, Inhabited

/-- A token with the places where it starts and ends. -/
structure Token where
  kind : TokenKind
  start : Mark
  stop : Mark
deriving Repr, Inhabited

namespace TokenKind

def isStreamEnd : TokenKind → Bool
  | .streamEnd => true
  | _ => false

def isDirective : TokenKind → Bool
  | .versionDirective _ _ | .tagDirective _ _ => true
  | _ => false

def isBlockEntry : TokenKind → Bool
  | .blockEntry => true
  | _ => false

def isKey : TokenKind → Bool
  | .key => true
  | _ => false

def isValue : TokenKind → Bool
  | .value => true
  | _ => false

def isBlockEnd : TokenKind → Bool
  | .blockEnd => true
  | _ => false

def isFlowEntry : TokenKind → Bool
  | .flowEntry => true
  | _ => false

def isFlowSequenceEnd : TokenKind → Bool
  | .flowSequenceEnd => true
  | _ => false

def isFlowMappingEnd : TokenKind → Bool
  | .flowMappingEnd => true
  | _ => false

def isDocumentStart : TokenKind → Bool
  | .documentStart => true
  | _ => false

def isDocumentEnd : TokenKind → Bool
  | .documentEnd => true
  | _ => false

end TokenKind

end Treewalk.Yaml
