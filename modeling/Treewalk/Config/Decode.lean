import Treewalk.Yaml.Node
import Treewalk.Config.Load
import Treewalk.Text.Quoted
import Treewalk.Text.Base64
/-!
# Decoding a settings document

The root of a settings document is a mapping from setting names to values, or a null
document that sets nothing. Decoding walks the tree and either fails outright, with one
message, or collects every type error of the file, each with its line:

* a value must suit its setting: a text takes any scalar, a number an integer in 64 bits
  (or a float, cut toward zero), a switch a boolean or one of the words `y`, `yes`, `on`,
  `n`, `no`, `off` in their usual spellings; a null value leaves the setting as it was;
* a key that names no setting, a setting given twice, and two equal keys of one mapping are
  errors; a null key is passed over;
* a merge key `<<` takes, after the other pairs of its mapping, the pairs of a mapping or
  of each mapping of a sequence in turn, for the names not given in the mapping that holds
  it nor by an earlier merged mapping;
* an alias stands for the node it names, and decoding a node inside itself fails;
* a scalar whose text does not fit its standard tag fails, and `!!binary` scalars are
  decoded from base64.

`yamlDecode` is this decoding as settings loading calls it, on a stream that may also be the
error of reading a file.
-/
namespace Treewalk.Config

open Yaml

def fileType : String := "config.fileConfig"

/-- A scalar as messages show it: longer than ten bytes, its first seven bytes and an
ellipsis; a character cut by the seventh byte leaves one replacement character per byte
kept. -/
def clipValue (s : String) : String :=
  if s.utf8ByteSize ≤ 10 then s
  else
    let (kept, used) := s.toList.foldl (fun (acc : List Char × Nat) c =>
      let (kept, used) := acc
      if used ≥ 7 then acc
      else if used + c.utf8Size ≤ 7 then (c :: kept, used + c.utf8Size)
      else (List.replicate (7 - used) (Char.ofNat 0xFFFD) ++ kept, 7)) ([], 0)
    let _ := used
    String.ofList kept.reverse ++ "..."

/-- The message for a node that cannot be decoded as `into`: its tag (or `tag` when it has
none), and its text unless it is a collection of the plain kind. -/
def cannotDecode (n : Node) (tag : String) (into : String) : String :=
  let tag := if n.tag ≠ "" then n.tag else tag
  let shown := if tag ≠ "!!seq" ∧ tag ≠ "!!map" then " `" ++ clipValue n.text ++ "`" else ""
  "line " ++ toString n.line ++ ": cannot unmarshal " ++ shortTag tag ++ shown ++ " into " ++ into

/-- One message for each pair of equal keys of a mapping (of one kind with one text), the
later one cited at its line. -/
def duplicateKeys : List (Node × Node) → List String
  | [] => []
  | (k, _) :: rest =>
    (rest.filter (fun (k', _) => k.kindIndex = k'.kindIndex ∧ k.text = k'.text)).map (fun (k', _) =>
      "line " ++ toString k'.line ++ ": mapping key " ++ Text.quote k'.text ++
        " already defined at line " ++ toString k.line) ++ duplicateKeys rest

def switchWord (s : String) : Option Bool :=
  if ["y", "Y", "yes", "Yes", "YES", "on", "On", "ON"].contains s then some true
  else if ["n", "N", "no", "No", "NO", "off", "Off", "OFF"].contains s then some false
  else none

/-- A float cut toward zero to a signed 64-bit integer; what does not fit (infinities
included) becomes the smallest one. -/
def truncToInt64 (x : Float) : Int :=
  match Binary64.ofFloat x with
  | .finite negative m e =>
    let magnitude : Nat := if e ≥ 0 then m * Nat.pow 2 e.toNat else m / Nat.pow 2 (-e).toNat
    let v : Int := if negative then -(magnitude : Int) else magnitude
    if minInt64 ≤ v ∧ v ≤ maxInt64 then v else minInt64
  | _ => minInt64

def isMergeKey : Node → Bool
  | .scalar tag text _ => text = "<<" && tag = "!!merge"
  | _ => false

/-- What decoding has found so far: the type errors, the settings given, the names that
merged mappings may no longer give (while merging), and the anchored nodes being decoded. -/
structure DecodeState where
  errors : Array String := #[]
  overrides : Overrides := {}
  merged : Option (List String) := none
  active : List Nat := []

abbrev Decoding := StateT DecodeState (Except String)

def report (msg : String) : Decoding Unit :=
  modify fun st => { st with errors := st.errors.push msg }

/-- Records the errors of equal keys of a mapping, answering whether there were none. -/
def checkKeys (entries : List (Node × Node)) : Decoding Bool := do
  let dups := duplicateKeys entries
  modify fun st => { st with errors := st.errors ++ dups.toArray }
  return dups.isEmpty

/-- The tag and value of a scalar: a `!!str` scalar is its text, a `!!binary` one the text
its base64 spells; the others are resolved by their tag. -/
def scalarValue (tag text : String) : Decoding (String × Resolved) :=
  if tag = "!!str" then pure ("!!str", .text text)
  else
    match resolve tag text with
    | .error msg => throw msg
    | .ok (rtag, value) =>
      if rtag = "!!binary" then
        match Text.base64Decode text with
        | some bytes => pure ("!!binary", .text (Text.bytesToText bytes))
        | none => throw "!!binary value contains invalid base64 data"
      else pure (rtag, value)

/-- The text a scalar gives to a setting of text: the decoded text of `!!binary`, else the
scalar as written. -/
def textOf (rtag text : String) (value : Resolved) : String :=
  match rtag, value with
  | "!!binary", .text s => s
  | _, _ => text

def wantMap : String := "map merge requires map or sequence of maps as the value"

section Decoders

variable (doc : Document)

def target (id : Nat) : Node := doc.anchored.getD id default

/-- Decodes the node an alias names with `k`, failing when that node is already being
decoded. -/
def throughAlias {α : Type} (name : String) (id : Nat) (k : Node → Decoding α) : Decoding α := do
  let st ← get
  if st.active.contains id then throw ("anchor '" ++ name ++ "' value contains itself")
  set { st with active := id :: st.active }
  let r ← k (target doc id)
  modify fun st => { st with active := st.active.drop 1 }
  return r

mutual

/-- Decodes a key naming a setting: its text, none for a null or a collection. -/
def decodeName : Nat → Node → Decoding (Option String)
  | 0, _ => throw "document too deeply nested"
  | fuel + 1, n =>
    match n with
    | .alias name id _ => throughAlias doc name id (decodeName fuel)
    | .scalar tag text _ => do
      let (rtag, value) ← scalarValue tag text
      match value with
      | .null => return none
      | _ => return some (textOf rtag text value)
    | .sequence _ _ _ => do
      report (cannotDecode n "!!seq" "string")
      return none
    | .mapping _ entries _ => do
      if ← checkKeys entries then report (cannotDecode n "!!map" "string")
      return none

/-- Decodes a key of a mapping that merges, as any value: its text when it is one. A key that
is a mapping reports its equal keys once more. -/
def decodeAny : Nat → Node → Decoding (Option String)
  | 0, _ => throw "document too deeply nested"
  | fuel + 1, n =>
    match n with
    | .alias name id _ => throughAlias doc name id (decodeAny fuel)
    | .scalar tag text _ => do
      let (_, value) ← scalarValue tag text
      match value with
      | .text s => return some s
      | .timestamp => return some text
      | _ => return none
    | .mapping _ entries _ => do
      let _ ← checkKeys entries
      return none
    | .sequence _ _ _ => return none

def decodeField : Nat → Node → Field → Decoding Unit
  | 0, _, _ => throw "document too deeply nested"
  | fuel + 1, n, f =>
    let into (tag : String) := (if tag = "!!null" then "*" else "") ++ f.want.name
    let put (d : Decoded) : Decoding Unit :=
      modify fun st => { st with overrides := st.overrides.set f d }
    match n with
    | .alias name id _ => throughAlias doc name id (fun t => decodeField fuel t f)
    | .scalar tag text _ => do
      let (rtag, value) ← scalarValue tag text
      let refuse := report (cannotDecode n rtag f.want.name)
      match value, f.want with
      | .null, _ => put .unset
      | _, .text => put (.text (textOf rtag text value))
      | .int k, .int => if minInt64 ≤ k ∧ k ≤ maxInt64 then put (.int k) else refuse
      | .float x, .int => if x ≤ 9223372036854775808.0 then put (.int (truncToInt64 x)) else refuse
      | .bool b, .bool => put (.bool b)
      | .text s, .bool =>
        match switchWord s with
        | some b => put (.bool b)
        | none => refuse
      | _, _ => refuse
    | .sequence tag _ _ => report (cannotDecode n "!!seq" (into tag))
    | .mapping tag entries _ => do
      if ← checkKeys entries then report (cannotDecode n "!!map" (into tag))

def decodeFile : Nat → Node → Decoding Unit
  | 0, _ => throw "document too deeply nested"
  | fuel + 1, n =>
    match n with
    | .alias name id _ => throughAlias doc name id (decodeFile fuel)
    | .scalar tag text _ => do
      let (rtag, value) ← scalarValue tag text
      match value with
      | .null => pure ()
      | _ => report (cannotDecode n rtag fileType)
    | .sequence _ _ _ => report (cannotDecode n "!!seq" fileType)
    | .mapping _ entries _ => do
      if ← checkKeys entries then decodePairs fuel entries entries [] none

/-- Decodes the pairs of a settings mapping: every pair in order but the merge key, whose
value is merged last. `parent` is the whole mapping, `done` the settings it has given and
`merge` the value of its merge key. -/
def decodePairs : Nat → List (Node × Node) → List (Node × Node) → List Field → Option Node →
    Decoding Unit
  | 0, _, _, _, _ => throw "document too deeply nested"
  | fuel + 1, parent, [], _, merge =>
    match merge with
    | some v => decodeMerge fuel parent v
    | none => pure ()
  | fuel + 1, parent, (k, v) :: rest, done, merge => do
    if isMergeKey k then decodePairs fuel parent rest done (some v)
    else
      match ← decodeName fuel k with
      | none => decodePairs fuel parent rest done merge
      | some name =>
        let st ← get
        let shadowed := match st.merged with
          | some names => names.contains name
          | none => false
        if shadowed then decodePairs fuel parent rest done merge
        else
          if let some names := st.merged then set { st with merged := some (name :: names) }
          match Field.ofKey? name with
          | some f =>
            if done.contains f then
              report ("line " ++ toString k.line ++ ": field " ++ name ++
                " already set in type " ++ fileType)
              decodePairs fuel parent rest done merge
            else
              decodeField fuel v f
              decodePairs fuel parent rest (f :: done) merge
          | none =>
            report ("line " ++ toString k.line ++ ": field " ++ name ++ " not found in type " ++
              fileType)
            decodePairs fuel parent rest done merge

/-- Merges the value of a merge key into the settings, for the names not given before: at
the outermost merge, the keys of the mapping that holds it; inside a merged mapping, the
names its enclosing merge has already seen, which the merge goes on adding to. -/
def decodeMerge : Nat → List (Node × Node) → Node → Decoding Unit
  | 0, _, _ => throw "document too deeply nested"
  | fuel + 1, parent, v => do
    let outermost := (← get).merged.isNone
    if outermost then
      let names ← mergedNames fuel parent
      modify fun st => { st with merged := some names }
    match v with
    | .mapping _ _ _ => decodeFile fuel v
    | .alias _ id _ =>
      match target doc id with
      | .mapping _ _ _ => decodeFile fuel v
      | _ => throw wantMap
    | .sequence _ items _ => decodeMergeItems fuel items
    | .scalar _ _ _ => throw wantMap
    if outermost then modify fun st => { st with merged := none }

def decodeMergeItems : Nat → List Node → Decoding Unit
  | 0, _ => throw "document too deeply nested"
  | _, [] => pure ()
  | fuel + 1, item :: rest => do
    match item with
    | .mapping _ _ _ => decodeFile fuel item
    | .alias _ id _ =>
      match target doc id with
      | .mapping _ _ _ => decodeFile fuel item
      | _ => throw wantMap
    | _ => throw wantMap
    decodeMergeItems fuel rest

def mergedNames : Nat → List (Node × Node) → Decoding (List String)
  | 0, _ => throw "document too deeply nested"
  | _, [] => pure []
  | fuel + 1, (k, _) :: rest => do
    let name ← decodeAny fuel k
    let names ← mergedNames fuel rest
    return match name with
      | some s => s :: names
      | none => names

end

end Decoders

/-- Decodes a settings document: the settings it gives with the type errors found, or the
message of a failure. -/
def decodeDocument (doc : Document) (fuel : Nat) : Except String (List String × Overrides) :=
  match (decodeFile doc fuel doc.root).run {} with
  | .ok ((), st) => .ok (st.errors.toList, st.overrides)
  | .error msg => .error msg

/-- Whether a character may appear in a YAML stream: tab, line breaks, and the printable
characters (no other control characters, surrogates, or U+FFFE and U+FFFF). -/
def allowedChar (c : Char) : Bool :=
  let n := c.toNat
  n = 0x09 ∨ n = 0x0A ∨ n = 0x0D ∨ (0x20 ≤ n ∧ n ≤ 0x7E) ∨ n = 0x85 ∨
    (0xA0 ≤ n ∧ n ≤ 0xD7FF) ∨ (0xE000 ≤ n ∧ n ≤ 0xFFFD) ∨ 0x10000 ≤ n

/-- The YAML library's decoding of a settings stream: a failed read is an input error; a
leading byte order mark is dropped and every other character must be allowed; the first
document is read, and decoded with all type errors of the file reported together. -/
def yamlDecode : YamlDecode
  | .error m => .failed ("yaml: input error: " ++ m)
  | .ok text =>
    let body := match text.toList with
      | '\uFEFF' :: rest => rest
      | cs => cs
    if !body.all allowedChar then .failed "yaml: control characters are not allowed"
    else
      match readDocument body with
      | .error p => .failed p.message
      | .ok none => .noDocument
      | .ok (some doc) =>
        let fuel := (body.length + 16) * (body.length + 16)
        match decodeDocument doc fuel with
        | .error msg => .failed ("yaml: " ++ msg)
        | .ok (errors@(_ :: _), _) =>
          .failed ("yaml: unmarshal errors:\n  " ++ String.intercalate "\n  " errors)
        | .ok ([], o) => .values o

end Treewalk.Config
