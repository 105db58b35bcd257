import CodeAtlas.Command.Help

/-!
# Commands

The commands of the program: to analyze a project and to write a configuration file to start
with.
-/

namespace CodeAtlas

/-- What an analysis is asked to do on the command line. -/
structure AnalyzeRequest where
  path : Option String := none
  project : Option String := none
  out : Option String := none
  pretty : Bool := false
  exclude : List String := []
  config : Option String := none
deriving DecidableEq, Repr

/-- What writing a configuration file is asked to do on the command line. -/
structure InitRequest where
  force : Bool := false
  config : Option String := none
deriving DecidableEq, Repr

/-- A command. -/
inductive Command where
  | analyze (request : AnalyzeRequest)
  | init (request : InitRequest)
deriving DecidableEq, Repr

/-- Why a command line gives no command: it is wrong, or it asks for a text. -/
inductive NoCommand where
  | misuse
  | text (s : String)
deriving DecidableEq, Repr

namespace Command

/-! ### Switches -/

def verbose : Switch where
  long := "verbose"
  short := some 'v'
  about := "Enable verbose logging"

def path : Switch where
  long := "path"
  short := some 'p'
  value := some .path
  about := "Project root directory"

def project : Switch where
  long := "project"
  value := some .text
  about := "Project name (defaults to the root directory's name)"

def out : Switch where
  long := "out"
  short := some 'o'
  value := some .path
  about := "Output directory; documents land in <out>/<project>/"

def pretty : Switch where
  long := "pretty"
  about := "Pretty-print the JSON documents"

def exclude : Switch where
  long := "exclude"
  short := some 'e'
  value := some .text
  repeatable := true
  about := "Extra gitignore-style patterns to skip (repeatable)"

def config : Switch where
  long := "config"
  short := some 'c'
  value := some .path
  about := "Path to the config file"

def force : Switch where
  long := "force"
  short := some 'f'
  about := "Overwrite an existing config"

/-! ### Manuals -/

/-- The name of the program. -/
def programName : String := "archscope"

/-- The version of the program. -/
def versionText : String := programName ++ " 0.0.1"

def analyzeManual : Manual where
  about := "Analyze a project and write component_tree.json and relations.json"
  usage := programName ++ " analyze [OPTIONS]"
  switches := [path, verbose, project, out, pretty, exclude, config, .help]

def initManual : Manual where
  about := "Write a starter archscope.toml"
  usage := programName ++ " init [OPTIONS]"
  switches := [force, verbose, config, .help]

def helpManual : Manual where
  about := "Print this message or the help of the given subcommand(s)"
  usage := programName ++ " help [COMMAND]..."
  arguments := [("[COMMAND]...", "Print help for the subcommand(s)")]

/-- The commands and their manuals. -/
def manuals : List (String × Manual) :=
  [("analyze", analyzeManual), ("init", initManual), ("help", helpManual)]

def programDetails : String :=
  "Archscope recovers the architecture of a Python project:\n" ++
  "  • Packages, modules, classes and functions as a containment tree\n" ++
  "  • Import, inheritance, call and attribute relations between them\n" ++
  "  • The same relations condensed onto sibling modules and packages\n\n" ++
  "Example usage:\n" ++
  "  archscope init\n" ++
  "  archscope analyze --path ./src --project myapp --pretty\n"

def programManual : Manual where
  about := "Architecture recovery for Python source trees"
  details := some programDetails
  usage := programName ++ " [OPTIONS] <COMMAND>"
  commands := manuals.map fun (name, m) ↦ (name, m.about)
  switches := [verbose, .help, .version]

/-! ### Reading a command line -/

/-- What an early stop of reading gives. -/
def stopped (m : Manual) : Halt → NoCommand
  | .misuse => .misuse
  | .help detailed => .text (m.text detailed)
  | .version => .text versionText

/-- Reads switches of a command. -/
def switches (m : Manual) (words : List String) : Except NoCommand (Given × List String) :=
  (Given.read m.switches [] none words).mapError (stopped m)

/-- Reads the switches of a command that takes nothing else. -/
def onlySwitches (m : Manual) (words : List String) : Except NoCommand Given := do
  match ← switches m words with
  | (given, []) => return given
  | _ => .error .misuse

/-- The help that the words after `help` ask for. -/
def helpOn : List String → NoCommand
  | [] => .text (programManual.text true)
  | [name] =>
    match manuals.lookup name with
    | some m => .text (m.text true)
    | none => .misuse
  | _ => .misuse

/-- The command of a command line. -/
def ofWords (words : List String) : Except NoCommand Command := do
  match (← switches programManual words).2 with
  | "analyze" :: rest =>
    let given ← onlySwitches analyzeManual rest
    return .analyze {
      path := given.value? path
      project := given.value? project
      out := given.value? out
      pretty := given.has pretty
      exclude := given.values exclude
      config := given.value? config }
  | "init" :: rest =>
    let given ← onlySwitches initManual rest
    return .init { force := given.has force, config := given.value? config }
  | "help" :: rest => .error (helpOn rest)
  | _ => .error .misuse

end Command

end CodeAtlas
