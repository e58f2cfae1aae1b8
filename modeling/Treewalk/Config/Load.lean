import Treewalk.Config.Settings
/-!
# Loading settings from a file

A settings path may name no file, a directory, or a file. No path and no file give the
defaults. Otherwise the file is opened and handed to a YAML library, which decodes its first
document into the values a settings file can give, refusing unknown keys; a directory opens
but cannot be read, and the library reports the failure to read it. A stream that holds no
document gives the defaults with its path; the values of a document are applied onto the
defaults, and the numbers of the result are checked.

The YAML library is a parameter: loading is what it does with whatever the library answers.
-/
namespace Treewalk.Config

/-- What a settings path leads to. -/
inductive Source
  | absent
  | directory
  | file (text : String)
deriving Repr

/-- What a YAML library makes of a stream when asked for the first document as settings. -/
inductive DecodeResult
  /-- The stream holds no document. -/
  | noDocument
  /-- The values the document gives. -/
  | values (o : Overrides)
  /-- The library's message for a stream it cannot decode. -/
  | failed (message : String)
deriving Repr

/-- A YAML library as settings loading uses it: it decodes the first document of a stream,
which is the text of a file or the error of reading it, into the values a settings file can
give, with unknown keys refused. -/
abbrev YamlDecode := Except String String → DecodeResult

/-- The settings read from `path` with the YAML library `yaml`, on top of the defaults for the
home directory `home`. Errors carry the text a user sees. -/
def load (yaml : YamlDecode) (home : Option String) (path : String) (source : Source) :
    Except String Settings :=
  if path.isEmpty then .ok (Settings.defaults home)
  else
    match source with
    | .absent => .ok (Settings.defaults home)
    | .directory => finish (yaml (.error ("read " ++ path ++ ": is a directory")))
    | .file text => finish (yaml (.ok text))
where
  /-- The settings after the library has decoded the stream. -/
  finish : DecodeResult → Except String Settings
    | .noDocument => .ok { Settings.defaults home with path := path }
    | .failed m => .error ("config: parse " ++ path ++ ": " ++ m)
    | .values o =>
      let s := { (Settings.defaults home).apply home o with path := path }
      match s.issues with
      | [] => .ok s
      | issues => .error ("config: " ++ path ++ ": " ++ String.intercalate "; " issues)

end Treewalk.Config
