/-!
# Slash-separated paths

File names are cleaned lexically, without looking at the file system: repeated slashes
collapse, `.` elements vanish, and `..` removes the element before it. A `..` that has
nothing to remove is kept in a relative path and dropped at the root of an absolute one.
The empty path cleans to `.`.
-/
namespace Treewalk.Text.Path

/-- The elements of a path after cleaning, from a stack of the elements kept so far (last
first): `rooted` tells whether a `..` at the top may be dropped. -/
def cleanElements (rooted : Bool) : List String → List String → List String
  | kept, [] => kept.reverse
  | kept, e :: rest =>
    if e = "" ∨ e = "." then cleanElements rooted kept rest
    else if e = ".." then
      match kept with
      | top :: below =>
        if top = ".." then cleanElements rooted (".." :: kept) rest
        else cleanElements rooted below rest
      | [] => cleanElements rooted (if rooted then [] else [".."]) rest
    else cleanElements rooted (e :: kept) rest

/-- The shortest path naming the same file as `p` by lexical rules alone. -/
def clean (p : String) : String :=
  let rooted := p.startsWith "/"
  let kept := cleanElements rooted [] (p.splitOn "/")
  let body := String.intercalate "/" kept
  if rooted then "/" ++ body
  else if body.isEmpty then "." else body

/-- The elements joined by slashes and cleaned; empty elements are skipped, and no element
at all gives the empty path. -/
def join (parts : List String) : String :=
  match parts.filter (fun e => !e.isEmpty) with
  | [] => ""
  | kept => clean (String.intercalate "/" kept)

end Treewalk.Text.Path
