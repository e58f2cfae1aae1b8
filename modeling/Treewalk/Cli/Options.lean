/-!
# Command-line options

Options are single letters after a dash, several of which may share one dash (`-qn`). A letter
that takes an argument takes the rest of its word when anything follows it there (`-d10`),
else the next word (`-d 10`). Reading stops at the first word that is empty, a lone `-`, or
does not start with a dash; a word `--` is dropped and also stops it. The words left over are
the operands.
-/
namespace Treewalk.Cli

/-- An option as given: its letter and its argument (empty for a letter without one). -/
structure Opt where
  letter : Char
  value : String
deriving DecidableEq, Repr

/-- Why a command line has no valid options: a letter that is no option, or an option whose
argument is missing at the end of the line. -/
inductive OptError
  | unknown (letter : Char)
  | missing (letter : Char)
deriving DecidableEq, Repr

def OptError.text (prog : String) : OptError → String
  | .unknown c => prog ++ ": unknown option -" ++ c.toString
  | .missing c => prog ++ ": expected argument for -" ++ c.toString

abbrev OptSpec := List (Char × Bool)

/-- The table written as letters, each followed by `:` when it takes an argument. -/
def OptSpec.ofString (s : String) : OptSpec :=
  let rec go : List Char → OptSpec
    | [] => []
    | c :: ':' :: rest => (c, true) :: go rest
    | c :: rest => (c, false) :: go rest
  go s.toList

/-- The options of one word's letters, given the word after it (if any). Answers the options
and whether the next word was taken as an argument. -/
def readCluster (spec : OptSpec) (next : Option String) :
    List Char → Except OptError (List Opt × Bool)
  | [] => .ok ([], false)
  | c :: rest =>
    match spec.lookup c with
    | none => .error (.unknown c)
    | some true =>
      if rest ≠ [] then .ok ([⟨c, String.ofList rest⟩], false)
      else
        match next with
        | some v => .ok ([⟨c, v⟩], true)
        | none => .error (.missing c)
    | some false =>
      match readCluster spec next rest with
      | .ok (opts, took) => .ok (⟨c, ""⟩ :: opts, took)
      | .error e => .error e

def endsOptions (arg : String) : Bool :=
  arg.isEmpty || arg == "-" || !arg.startsWith "-"

/-- The options at the front of a command line, in order, and the operands after them. -/
def getopts (spec : OptSpec) (args : List String) : Except OptError (List Opt × List String) :=
  match args with
  | [] => .ok ([], [])
  | arg :: rest =>
    if endsOptions arg then .ok ([], arg :: rest)
    else if arg = "--" then .ok ([], rest)
    else
      match readCluster spec rest.head? (arg.toList.drop 1) with
      | .error e => .error e
      | .ok (opts, took) =>
        match getopts spec (if took then rest.drop 1 else rest) with
        | .ok (more, operands) => .ok (opts ++ more, operands)
        | .error e => .error e
termination_by args.length
decreasing_by
  split
  · simp only [List.length_drop, List.length_cons]
    omega
  · simp

/-- A reader of command-line options as the program calls it: given the words of a command
line, the program's name first, and the table of options written as letters (`:` after one
that takes an argument), the options in order and the index of the first operand, or the
message of what is wrong. -/
abbrev Getopts := List String → String → Except String (List Opt × Nat)

/-- `getopts` as a reader of whole command lines: its messages name the program. -/
def getoptsLib : Getopts := fun argv spec =>
  match getopts (OptSpec.ofString spec) (argv.drop 1) with
  | .error e => .error (e.text (argv.headD ""))
  | .ok (opts, operands) => .ok (opts, argv.length - operands.length)

end Treewalk.Cli
