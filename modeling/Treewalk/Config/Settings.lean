import Treewalk.Text.Path
import Treewalk.Session
/-!
# Session settings

Settings come from a YAML mapping on top of built-in defaults. Each key names one setting; a
key that names none is refused, as is a key given twice. A value must suit its setting: any
scalar for a text, an integer (or a float, truncated) for a number, a boolean (or one of the
words `yes`, `no`, `on`, `off` in their usual spellings) for a switch. A null value keeps the
default. All type errors of a file are reported together, each with its line.

After the file is applied the numbers are checked: the history limit may not be negative and
the call depth must be at least one.
-/
namespace Treewalk.Config

/-- The settings of a session. -/
structure Settings where
  path : String
  prompt : String
  continuationPrompt : String
  historyFile : String
  historyLimit : Int
  color : Bool
  maxDepth : Int
  echo : Bool
deriving Repr, Inhabited

/-- The built-in settings for a user whose home directory is `home`; with no known home
there is no history file. -/
def Settings.defaults (home : Option String) : Settings where
  path := ""
  prompt := "lumen> "
  continuationPrompt := "...> "
  historyFile := match home with
    | some h => Text.Path.join [h, ".lumen_history"]
    | none => ""
  historyLimit := 1000
  color := true
  maxDepth := Session.defaultLimit
  echo := true

/-- A path with a leading `~` (alone or before a slash) taken into the home directory;
`~user` forms and paths without a home stay as they are. -/
def expandHome (home : Option String) (p : String) : String :=
  if p = "~" ∨ p.startsWith "~/" then
    match home with
    | some h => Text.Path.join [h, String.ofList (p.toList.drop 1)]
    | none => p
  else p

/-- The settings a file can give. -/
inductive Field
  | prompt | continuationPrompt | historyFile | historyLimit | color | maxDepth | echo
deriving DecidableEq, Repr

def Field.ofKey? : String → Option Field
  | "prompt" => some .prompt
  | "continuation_prompt" => some .continuationPrompt
  | "history_file" => some .historyFile
  | "history_limit" => some .historyLimit
  | "color" => some .color
  | "max_depth" => some .maxDepth
  | "echo" => some .echo
  | _ => none

/-- The kind of value a setting takes. -/
inductive Want
  | text | int | bool
deriving DecidableEq, Repr

def Want.name : Want → String
  | .text => "string"
  | .int => "int"
  | .bool => "bool"

def Field.want : Field → Want
  | .prompt | .continuationPrompt | .historyFile => .text
  | .historyLimit | .maxDepth => .int
  | .color | .echo => .bool

/-- A decoded value: none (keep the default), or a value of the wanted kind. -/
inductive Decoded
  | unset
  | text (s : String)
  | int (n : Int)
  | bool (b : Bool)
deriving Repr

/-- The values given in a file, each `none` when not given. -/
structure Overrides where
  prompt : Option String := none
  continuationPrompt : Option String := none
  historyFile : Option String := none
  historyLimit : Option Int := none
  color : Option Bool := none
  maxDepth : Option Int := none
  echo : Option Bool := none
deriving Repr

/-- Records a decoded value for a setting; `unset` (or a value of another kind) clears it. -/
def Overrides.set (o : Overrides) (f : Field) (d : Decoded) : Overrides :=
  let text := match d with | .text s => some s | _ => none
  let int := match d with | .int n => some n | _ => none
  let bool := match d with | .bool b => some b | _ => none
  match f with
  | .prompt => { o with prompt := text }
  | .continuationPrompt => { o with continuationPrompt := text }
  | .historyFile => { o with historyFile := text }
  | .historyLimit => { o with historyLimit := int }
  | .maxDepth => { o with maxDepth := int }
  | .color => { o with color := bool }
  | .echo => { o with echo := bool }

def Settings.apply (s : Settings) (home : Option String) (o : Overrides) : Settings :=
  { s with
    prompt := o.prompt.getD s.prompt
    continuationPrompt := o.continuationPrompt.getD s.continuationPrompt
    historyFile := (o.historyFile.map (expandHome home)).getD s.historyFile
    historyLimit := o.historyLimit.getD s.historyLimit
    color := o.color.getD s.color
    maxDepth := o.maxDepth.getD s.maxDepth
    echo := o.echo.getD s.echo }

def Settings.issues (s : Settings) : List String :=
  (if s.historyLimit < 0 then ["history_limit must be >= 0, got " ++ toString s.historyLimit]
    else []) ++
  (if s.maxDepth < 1 then ["max_depth must be >= 1, got " ++ toString s.maxDepth] else [])

end Treewalk.Config
