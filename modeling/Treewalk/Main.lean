import Treewalk.Cli.Run
import Treewalk.Config.Decode
import Std.Time.DateTime.Timestamp
/-!
# The program

The executable reads its surroundings (environment, files, standard input, the clock and
whether output goes to a terminal), hands them to `Treewalk.Cli.plan` and `Plan.execute` with
the libraries the program is built with, and writes the transcript. The clock is read once, and
every `Date.now` of a run answers that reading. Only a session on a terminal is run line by
line here, with prompts, since its input cannot be read ahead.
-/
namespace Treewalk.Cli

/-- The libraries the program is built with: `getoptsLib` reads options and
`Config.yamlDecode` decodes settings files. -/
def libraries : Libraries := ⟨getoptsLib, Config.yamlDecode⟩

def envValue (name : String) : IO (Option String) := do
  match ← IO.getEnv name with
  | some v => return if v.isEmpty then none else some v
  | none => return none

def wallClock : IO Float := do
  let t ← Std.Time.Timestamp.now
  let nanos : Int := t.toNanosecondsSinceUnixEpoch.val
  let seconds := nanos / 1000000000
  let fraction := nanos % 1000000000
  return Float.ofInt seconds + Float.ofInt fraction / 1000000000.0

def readSource (path : String) : IO Config.Source := do
  if path.isEmpty then return .absent
  try
    return .file (← IO.FS.readFile path)
  catch e =>
    match e with
    | .noFileOrDirectory .. => return .absent
    | _ => return .directory

partial def readAll (stream : IO.FS.Stream) (acc : ByteArray) : IO String := do
  let chunk ← stream.read 65536
  if chunk.isEmpty then return (String.fromUTF8? acc).getD ""
  else readAll stream (acc ++ chunk)

def emit (t : Transcript) : IO UInt32 := do
  let out ← IO.getStdout
  let err ← IO.getStderr
  out.putStr t.stdout
  out.flush
  err.putStr t.stderr
  err.flush
  return t.code.toUInt32

/-- A session on a terminal: prompts, reads a line at a time, and runs each complete
submission at once. -/
partial def interactive (p : Plan) (stdin : IO.FS.Stream) (r : Repl) : IO UInt32 := do
  let out ← IO.getStdout
  let err ← IO.getStderr
  out.putStr (if r.buffer.isEmpty then p.settings.prompt else p.settings.continuationPrompt)
  out.flush
  let line ← stdin.getLine
  if line.isEmpty then
    out.putStrLn ""
    return 0
  let text := if line.endsWith "\n" then line else line ++ "\n"
  let r' := { r with buffer := r.buffer ++ text, stdout := "", stderr := "" }.submit
    p.reporter p.settings.echo false
  out.putStr r'.stdout
  out.flush
  err.putStr r'.stderr
  err.flush
  interactive p stdin r'

end Treewalk.Cli

open Treewalk.Cli in
def main (args : List String) : IO UInt32 := do
  let home ← envValue "HOME"
  let configVar ← IO.getEnv "LUMEN_CONFIG"
  let clock ← wallClock
  let stdout ← IO.getStdout
  let noColour := (← envValue "NO_COLOR").isSome || (← IO.getEnv "TERM") == some "dumb"
  let colours := !noColour && (← stdout.isTty)
  let base : World :=
    { program := "lumen", home := home, configVar := configVar, files := fun _ => .absent,
      stdin := "", clock := fun _ => clock, colours := colours }
  let sources ← (pathsRead libraries base args).mapM fun path => do
    return (path, ← readSource path)
  let world := { base with files := fun path => (sources.lookup path).getD .absent }
  match plan libraries world args with
  | .error t => emit t
  | .ok p =>
    let stdin ← IO.getStdin
    match p.mode with
    | .session =>
      if ← stdin.isTty then interactive p stdin { session := p.session }
      else emit (p.execute { world with stdin := ← readAll stdin .empty })
    | .script "-" => emit (p.execute { world with stdin := ← readAll stdin .empty })
    | _ => emit (p.execute world)
