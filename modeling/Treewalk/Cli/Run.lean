import Treewalk.Cli.Options
import Treewalk.Config.Load
import Treewalk.Session
/-!
# The command line

`lumen [options] [script | -] [args...]` evaluates one expression (`-e`), runs a script (a
file, or standard input for `-`), or else reads standard input as a session, one submission
at a time. Settings come from `-c path`, else from the path the environment names, else from
`~/.lumenrc.yml`; `-d` overrides the call depth, `-q` the echo of results and `-n` colour.

A run is a pure function of the command line, of the libraries it calls (to read options and to
decode settings files) and of what it can see: its name, the home directory, the environment's
settings path, the files, standard input and the clock. It answers the exit code and the texts
written to standard output and standard error. Exit code
2 is for a bad command line, 1 for a failed evaluation or unreadable settings, 0 otherwise;
a session always ends with 0, reporting each failed submission and going on.
-/
namespace Treewalk.Cli

def version : String := "0.1.0"

def usage : String :=
  "usage: lumen [options] [script | -] [args...]\n\n" ++
  "options:\n" ++
  "  -e expr   evaluate expr and print its value\n" ++
  "  -c path   read settings from path (default $LUMEN_CONFIG or ~/.lumenrc.yml)\n" ++
  "  -d depth  maximum function call depth\n" ++
  "  -n        disable coloured diagnostics\n" ++
  "  -q        do not print expression results\n" ++
  "  -h        show this help\n" ++
  "  -V        print version\n\n" ++
  "With no script, lumen starts an interactive session.\n"

def optSpec : String := "e:c:d:nqhV"

/-- The libraries a run calls: a reader of command-line options and a YAML library. -/
structure Libraries where
  getopts : Getopts
  yaml : Config.YamlDecode

/-- What a run of the program sees of its surroundings. -/
structure World where
  /-- The name the program was started under. -/
  program : String
  /-- The home directory, if known. -/
  home : Option String
  /-- The settings path that the environment names, if any. -/
  configVar : Option String
  /-- What each path leads to. -/
  files : String → Config.Source
  /-- Everything on standard input. -/
  stdin : String
  /-- The readings of the clock, in seconds since the epoch. -/
  clock : Clock
  /-- Whether the output is a terminal that shows colours. -/
  colours : Bool

/-- What a run leaves behind: its exit code and what it wrote. -/
structure Transcript where
  code : Nat
  stdout : String := ""
  stderr : String := ""
deriving Repr

/-- The options as given on the command line. -/
structure Options where
  expr : Option String := none
  configPath : String
  maxDepth : Nat := 0
  noColor : Bool := false
  quiet : Bool := false
deriving Repr

/-- The settings path when no `-c` is given: the environment's, else the one in the home
directory, else none. -/
def defaultConfigPath (w : World) : String :=
  match w.configVar with
  | some p => if p.isEmpty then fallback else p
  | none => fallback
where
  fallback := match w.home with
    | some h => Text.Path.join [h, ".lumenrc.yml"]
    | none => ""

/-- A whole decimal number with an optional sign that fits in 64 bits. -/
def parseDecimal (s : String) : Option Int :=
  let (negative, digits) := match s.toList with
    | '-' :: rest => (true, rest)
    | '+' :: rest => (false, rest)
    | cs => (false, cs)
  if digits.isEmpty ∨ ¬ digits.all Char.isDigit then none
  else
    let n : Nat := digits.foldl (fun acc c => 10 * acc + (c.toNat - 48)) 0
    let v : Int := if negative then -(n : Int) else n
    if -(Nat.pow 2 63 : Int) ≤ v ∧ v < Nat.pow 2 63 then some v else none

/-- Takes one option into account. Options that end the run at once (`-V`, `-h` and a bad
`-d`) answer the finished transcript instead. -/
def applyOpt (o : Options) (opt : Opt) : Except Transcript Options :=
  match opt.letter with
  | 'e' => .ok { o with expr := some opt.value }
  | 'c' => .ok { o with configPath := opt.value }
  | 'd' =>
    match parseDecimal opt.value with
    | some d => if d < 1 then .error (badDepth opt.value) else .ok { o with maxDepth := d.toNat }
    | none => .error (badDepth opt.value)
  | 'n' => .ok { o with noColor := true }
  | 'q' => .ok { o with quiet := true }
  | 'V' => .error { code := 0, stdout := "lumen " ++ version ++ "\n" }
  | _ => .error { code := 0, stdout := usage }
where
  badDepth (v : String) : Transcript :=
    { code := 2, stderr := "lumen: invalid -d value " ++ Text.quote v ++ "\n" }

/-- How diagnostics and results are written: with or without colour. -/
structure Reporter where
  colour : Bool

def Reporter.label (r : Reporter) (text : String) : String :=
  if r.colour then "\x1b[31;1m" ++ text ++ "\x1b[0m" else text

def Reporter.failure (r : Reporter) (e : Error) : String :=
  r.label ("error[" ++ e.kind.name ++ "]:") ++ " " ++ e.message ++ "\n"

def Reporter.plainFailure (r : Reporter) (message : String) : String :=
  r.label "error:" ++ " " ++ message ++ "\n"

def Reporter.result (r : Reporter) (text : String) : String :=
  (if r.colour then "\x1b[2m" ++ text ++ "\x1b[22m" else text) ++ "\n"

/-- The echo of a value: nothing for null or when echo is off, else its written form. -/
def echoLine (r : Reporter) (echo : Bool) (st : Store) (v : Value) : String :=
  match v with
  | .null => ""
  | _ => if echo then r.result (st.render v) else ""

/-- A script without its first line when that starts with `#!`; the line break stays, so
lines keep their numbers. -/
def skipShebang (text : String) : String :=
  if text.startsWith "#!" then
    String.ofList (text.toList.dropWhile (· ≠ '\n'))
  else text

def isSpace (c : Char) : Bool :=
  let n := c.toNat
  n = 0x20 ∨ (0x09 ≤ n ∧ n ≤ 0x0D) ∨ n = 0x85 ∨ n = 0xA0 ∨ n = 0x1680 ∨
    (0x2000 ≤ n ∧ n ≤ 0x200A) ∨ n = 0x2028 ∨ n = 0x2029 ∨ n = 0x202F ∨ n = 0x205F ∨
    n = 0x3000

/-- A session reading standard input: the submission so far and what was written. -/
structure Repl where
  session : Session
  buffer : String := ""
  stdout : String := ""
  stderr : String := ""

/-- Submits the buffer. An unfinished program waits for more input unless the input is at
its end; anything else is reported or run, and the buffer starts afresh. -/
def Repl.submit (r : Repl) (rep : Reporter) (echo final : Bool) : Repl :=
  match Parser.parse r.buffer with
  | .error e =>
    if e.incomplete && !final then r
    else { r with buffer := "", stderr := r.stderr ++ rep.failure e }
  | .ok prog =>
    let (res, s) := r.session.exec prog
    let out := r.stdout ++ res.output
    match res.result with
    | .error e => { session := s, stdout := out, stderr := r.stderr ++ rep.failure e }
    | .ok v =>
      { session := s, stdout := out ++ echoLine rep echo s.machine.store v, stderr := r.stderr }

/-- Feeds the session the lines of its input, each with its line break, then what follows
the last line break; input that ends in white space alone ends the session quietly. -/
def Repl.feed (rep : Reporter) (echo : Bool) (r : Repl) : List String → String → Repl
  | [], last =>
    let r := { r with buffer := r.buffer ++ last }
    if r.buffer.all isSpace then r else r.submit rep echo true
  | line :: more, last =>
    Repl.feed rep echo ({ r with buffer := r.buffer ++ line }.submit rep echo false) more last

/-- The characters of a text up to and including its first line break (all of them if it has
none), and the pieces after it, cut the same way. -/
def cutLines : List Char → List Char × List (List Char)
  | [] => ([], [])
  | c :: cs =>
    let r := cutLines cs
    if c = '\n' then ([c], r.1 :: r.2) else (c :: r.1, r.2)

/-- The lines of a text, each with its line break, and what follows the last line break. -/
def splitLines (text : String) : List String × String :=
  let (first, more) := cutLines text.toList
  ((first :: more).dropLast.map String.ofList, String.ofList ((first :: more).getLast?.getD []))

def readScript (w : World) (path : String) : Except String String :=
  if path = "-" then .ok w.stdin
  else
    match w.files path with
    | .absent => .error ("open " ++ path ++ ": no such file or directory")
    | .directory => .error ("read " ++ path ++ ": is a directory")
    | .file text => .ok text

/-- The settings of a run: those loaded, with the command line's overrides. -/
def Options.settle (o : Options) (s : Config.Settings) : Config.Settings :=
  { s with
    maxDepth := if o.maxDepth > 0 then o.maxDepth else s.maxDepth
    color := if o.noColor then false else s.color
    echo := if o.quiet then false else s.echo }

/-- What a run does once its command line and settings are read. -/
inductive Mode
  /-- Evaluate one expression and echo its value. -/
  | expr (src : String)
  /-- Run a script: a file, or standard input for `-`. -/
  | script (path : String)
  /-- Read standard input as a session of submissions. -/
  | session

/-- A run ready to start: its settings, how it reports, its session (with `argv` bound) and
what it does. -/
structure Plan where
  settings : Config.Settings
  reporter : Reporter
  session : Session
  mode : Mode

/-- Reads the command line and the settings. A bad command line, `-V`, `-h` and unreadable
settings end the run here with their transcript. -/
def plan (lib : Libraries) (w : World) (args : List String) : Except Transcript Plan :=
  match lib.getopts (w.program :: args) optSpec with
  | .error m => .error { code := 2, stderr := "lumen: " ++ m ++ "\n" ++ usage }
  | .ok (opts, optind) =>
    let rest := (w.program :: args).drop optind
    match opts.foldlM applyOpt { configPath := defaultConfigPath w } with
    | .error t => .error t
    | .ok o =>
      match Config.load lib.yaml w.home o.configPath (w.files o.configPath) with
      | .error m => .error { code := 1, stderr := "lumen: " ++ m ++ "\n" }
      | .ok loaded =>
        let cfg := o.settle loaded
        let session := (Session.new w.clock).withLimit (some cfg.maxDepth.toNat)
        let (mode, argv) := match o.expr, rest with
          | some src, _ => (Mode.expr src, rest)
          | none, script :: _ => (Mode.script script, rest)
          | none, [] => (Mode.session, [])
        .ok ⟨cfg, ⟨cfg.color && w.colours⟩, session.setArgv argv, mode⟩

def Plan.execute (p : Plan) (w : World) : Transcript :=
  let rep := p.reporter
  match p.mode with
  | .expr src =>
    let (res, s) := p.session.run src
    match res.result with
    | .error e => { code := 1, stdout := res.output, stderr := rep.failure e }
    | .ok v => { code := 0, stdout := res.output ++ echoLine rep p.settings.echo s.machine.store v }
  | .script path =>
    match readScript w path with
    | .error m => { code := 1, stderr := rep.plainFailure m }
    | .ok text =>
      let (res, _) := p.session.run (skipShebang text)
      match res.result with
      | .error e => { code := 1, stdout := res.output, stderr := rep.failure e }
      | .ok _ => { code := 0, stdout := res.output }
  | .session =>
    let (lines, last) := splitLines w.stdin
    let r := Repl.feed rep p.settings.echo { session := p.session } lines last
    { code := 0, stdout := r.stdout, stderr := r.stderr }

/-- Runs the program on a command line (without the program's name). -/
def run (lib : Libraries) (w : World) (args : List String) : Transcript :=
  match plan lib w args with
  | .error t => t
  | .ok p => p.execute w

/-- The paths a run may read: its settings file and its script, so that a caller can fetch
them before the run. -/
def pathsRead (lib : Libraries) (w : World) (args : List String) : List String :=
  match lib.getopts (w.program :: args) optSpec with
  | .error _ => []
  | .ok (opts, optind) =>
    let configPath := opts.foldl (fun p opt => if opt.letter = 'c' then opt.value else p)
      (defaultConfigPath w)
    configPath :: ((w.program :: args).drop optind).take 1

end Treewalk.Cli
